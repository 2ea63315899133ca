import SeriesCodec.Json.Skip
import SeriesCodec.Proofs.Json.Number
import SeriesCodec.Proofs.Json.Text

/-!
# Well-formed values

The grammar of values, as it is used where a value is passed over, and the proof that a
value is passed over exactly when it is well-formed.  The grammar follows an array or an
object from its start to its end, so that each of its parts is a place of the reader; the
brackets that are open at a place still have to be closed behind it.
-/

namespace SeriesCodec

namespace Json

variable {text rest chars behind : List Char} {bracket : Bracket} {stack : List Bracket}

def Bracket.start : Bracket → Char
  | array => '['
  | object => '\x7b'

/-- A value that is neither an array nor an object. -/
inductive ScalarText : List Char → Prop where
  | null : ScalarText ['n', 'u', 'l', 'l']
  | yes : ScalarText ['t', 'r', 'u', 'e']
  | no : ScalarText ['f', 'a', 'l', 's', 'e']
  | text {body : List Char} (written : BodyText body) : ScalarText ('"' :: (body ++ ['"']))
  | number {numeral : Numeral} {text : List Char} (written : NumeralText numeral text) :
      ScalarText text

inductive KeyText : List Char → Prop where
  | key {front body back : List Char} (before : Blanks front) (written : BodyText body)
      (after : Blanks back) : KeyText (front ++ '"' :: (body ++ '"' :: (back ++ [':'])))

inductive Part where
  | value
  /-- What follows the start of a bracket. -/
  | opened (bracket : Bracket)
  /-- The first of the remaining members of a bracket, and what follows it. -/
  | member (bracket : Bracket)
  /-- What follows a member of a bracket. -/
  | more (bracket : Bracket)

inductive Form : Part → List Char → Prop where
  | scalar {front text : List Char} (blanks : Blanks front) (written : ScalarText text) :
      Form .value (front ++ text)
  | bracketed {bracket : Bracket} {front text : List Char} (blanks : Blanks front)
      (inside : Form (.opened bracket) text) : Form .value (front ++ bracket.start :: text)
  | empty {bracket : Bracket} {front : List Char} (blanks : Blanks front) :
      Form (.opened bracket) (front ++ [bracket.close])
  | filled {bracket : Bracket} {text : List Char} (inside : Form (.member bracket) text) :
      Form (.opened bracket) text
  | element {text behind : List Char} (value : Form .value text)
      (later : Form (.more .array) behind) : Form (.member .array) (text ++ behind)
  | field {key text behind : List Char} (named : KeyText key) (value : Form .value text)
      (later : Form (.more .object) behind) : Form (.member .object) (key ++ (text ++ behind))
  | next {bracket : Bracket} {front text : List Char} (blanks : Blanks front)
      (later : Form (.member bracket) text) : Form (.more bracket) (front ++ ',' :: text)
  | last {bracket : Bracket} {front : List Char} (blanks : Blanks front) :
      Form (.more bracket) (front ++ [bracket.close])

/-! ## Scalars and keys -/

theorem NumeralText.head {numeral : Numeral} (written : NumeralText numeral text) :
    ∃ char others, text = char :: others ∧ (char = '-' ∨ isDigit char = true) := by
  cases written with
  | parts signed whole broken scaled =>
      cases signed with
      | minus => exact ⟨_, _, rfl, .inl rfl⟩
      | none =>
          obtain ⟨⟨nonempty, decimal⟩, _⟩ := whole
          obtain ⟨char, others, rfl⟩ := List.exists_cons_of_ne_nil nonempty
          exact ⟨_, _, rfl, .inr (decimal _ List.mem_cons_self)⟩

/-- A number starts with no other part of a document. -/
theorem numeric_head {char : Char} (numeric : char = '-' ∨ isDigit char = true) :
    isBlank char = false ∧ char ∉ ['[', ']', '\x7b', '\x7d'] := by
  rcases numeric with rfl | digit
  · decide
  · refine ⟨solid_of_isDigit digit, fun inside => ?_⟩
    simp only [List.mem_cons, List.not_mem_nil, or_false] at inside
    rcases inside with rfl | rfl | rfl | rfl <;> cases digit

theorem skipScalar_of_numeric {char : Char} (numeric : char = '-' ∨ isDigit char = true)
    (rest : List Char) : skipScalar (char :: rest) = skipNumber (char :: rest) := by
  rw [skipScalar, if_pos numeric]
  all_goals
    rintro rfl
    rcases numeric with impossible | impossible <;> cases impossible

theorem skipScalar_append (written : ScalarText text) (ended : Delimited rest) :
    skipScalar (text ++ rest) = .ok rest := by
  cases written with
  | null => exact readIdentifier_append ['u', 'l', 'l'] rest
  | yes => exact readIdentifier_append ['r', 'u', 'e'] rest
  | no => exact readIdentifier_append ['a', 'l', 's', 'e'] rest
  | text written =>
      rw [List.cons_append, List.append_assoc]
      exact skipText_append written rest
  | number written =>
      have read := skipNumber_append written ended
      obtain ⟨char, others, rfl, numeric⟩ := written.head
      rw [List.cons_append] at read ⊢
      rw [skipScalar_of_numeric numeric, read]

theorem scalarText_of_skipScalar (read : skipScalar chars = .ok rest) :
    ∃ text, ScalarText text ∧ chars = text ++ rest := by
  unfold skipScalar at read
  split at read
  next => cases read
  next => exact ⟨_, .null, congrArg _ (eq_append_of_readIdentifier read)⟩
  next => exact ⟨_, .yes, congrArg _ (eq_append_of_readIdentifier read)⟩
  next => exact ⟨_, .no, congrArg _ (eq_append_of_readIdentifier read)⟩
  next others =>
    obtain ⟨body, written, rfl⟩ := bodyText_of_skipText read
    refine ⟨_, .text written, ?_⟩
    rw [List.cons_append, List.append_assoc]
    rfl
  next =>
    split at read
    next =>
      obtain ⟨numeral, text, written, whole⟩ := numeralText_of_skipNumber read
      exact ⟨text, .number written, whole⟩
    next => cases read

theorem skipKey_append (named : KeyText text) (rest : List Char) :
    skipKey (text ++ rest) = .ok rest := by
  cases named with
  | @key front body back before written after =>
      have behind : readColon ((back ++ [':']) ++ rest) = .ok rest := by
        rw [List.append_assoc]
        exact readColon_append after rest
      rw [List.append_assoc, List.cons_append, List.append_assoc, List.cons_append, skipKey,
        skipBlanks_behind before rfl]
      simp only [skipText_append written, behind]

theorem keyText_of_skipKey (read : skipKey chars = .ok rest) :
    ∃ text, KeyText text ∧ chars = text ++ rest := by
  rw [skipKey] at read
  split at read
  next => cases read
  next others front =>
    obtain ⟨blanks, before, rfl⟩ := exists_blanks_of_skipBlanks front
    split at read
    next => cases read
    next found skipped =>
      obtain ⟨body, written, rfl⟩ := bodyText_of_skipText skipped
      obtain ⟨back, after, rfl⟩ := exists_colon_of_readColon read
      refine ⟨_, .key before written after, ?_⟩
      simp only [List.append_assoc, List.cons_append, List.nil_append]
  next => cases read

/-! ## One step over a value -/

theorem skip_of_start (front : skipBlanks chars = bracket.start :: rest) :
    skip .value stack chars = skip (.opened bracket) stack rest := by
  cases bracket <;> rw [skip] <;> split <;> simp_all [Bracket.start]

theorem skip_of_scalar {char : Char} {others : List Char}
    (front : skipBlanks chars = char :: others) (array : char ≠ '[') (object : char ≠ '\x7b')
    (scalar : skipScalar (char :: others) = .ok rest) :
    skip .value stack chars = skip .behind stack rest := by
  rw [skip]
  split
  next nothing =>
    rw [front] at nothing
    cases nothing
  next found =>
    rw [front] at found
    cases found
    exact absurd rfl array
  next found =>
    rw [front] at found
    cases found
    exact absurd rfl object
  next found =>
    rw [front] at found
    cases found
    split
    next failed =>
      rw [scalar] at failed
      cases failed
    next read =>
      rw [scalar] at read
      cases read
      rfl

theorem skip_opened_of_close (front : skipBlanks chars = bracket.close :: rest) :
    skip (.opened bracket) stack chars = skip .behind stack rest := by
  rw [skip]
  split <;> simp_all

theorem skip_opened_of_member {char : Char} {others : List Char}
    (front : skipBlanks chars = char :: others) (other : char ≠ bracket.close) :
    skip (.opened bracket) stack chars = skip (.member bracket) stack chars := by
  rw [skip]
  split <;> simp_all

theorem skip_member_of_key (key : skipKey chars = .ok rest) :
    skip (.member .object) stack chars = skip .value (.object :: stack) rest := by
  conv_lhs => rw [skip]
  split <;> simp_all

theorem skip_behind_of_comma (front : skipBlanks chars = ',' :: rest) :
    skip .behind (bracket :: stack) chars = skip (.member bracket) stack rest := by
  rw [skip]
  split <;> simp_all

theorem skip_behind_of_close (front : skipBlanks chars = bracket.close :: rest) :
    skip .behind (bracket :: stack) chars = skip .behind stack rest := by
  rw [skip]
  split <;> cases bracket <;> simp_all [Bracket.close]

/-! ## A value that is passed over is well-formed -/

/-- What closes the brackets that are open, from the inside out. -/
inductive Closes : List Bracket → List Char → Prop where
  | nothing : Closes [] []
  | bracket {bracket : Bracket} {outer : List Bracket} {inner later : List Char}
      (inside : Form (.more bracket) inner) (around : Closes outer later) :
      Closes (bracket :: outer) (inner ++ later)

/-- What completes a value from a place on. -/
inductive Completes : Place → List Bracket → List Char → Prop where
  | value {stack : List Bracket} {inner later : List Char} (inside : Form .value inner)
      (around : Closes stack later) : Completes .value stack (inner ++ later)
  | opened {bracket : Bracket} {stack : List Bracket} {inner later : List Char}
      (inside : Form (.opened bracket) inner) (around : Closes stack later) :
      Completes (.opened bracket) stack (inner ++ later)
  | member {bracket : Bracket} {stack : List Bracket} {inner later : List Char}
      (inside : Form (.member bracket) inner) (around : Closes stack later) :
      Completes (.member bracket) stack (inner ++ later)
  | behind {stack : List Bracket} {text : List Char} (around : Closes stack text) :
      Completes .behind stack text

theorem Completes.start {front : List Char} (blanks : Blanks front)
    (completes : Completes (.opened bracket) stack text) :
    Completes .value stack (front ++ bracket.start :: text) := by
  cases completes with
  | opened inside around =>
      have value := Completes.value (.bracketed blanks inside) around
      rwa [List.append_assoc] at value

theorem Completes.scalar {front scalar : List Char} (blanks : Blanks front)
    (written : ScalarText scalar) (completes : Completes .behind stack text) :
    Completes .value stack (front ++ (scalar ++ text)) := by
  cases completes with
  | behind around =>
      have value := Completes.value (.scalar blanks written) around
      rwa [List.append_assoc] at value

theorem Completes.close {front : List Char} (blanks : Blanks front)
    (completes : Completes .behind stack text) :
    Completes (.opened bracket) stack (front ++ bracket.close :: text) := by
  cases completes with
  | behind around =>
      have opened : Completes (.opened bracket) stack (front ++ [bracket.close] ++ text) :=
        .opened (.empty blanks) around
      rwa [List.append_assoc] at opened

theorem Completes.fill (completes : Completes (.member bracket) stack text) :
    Completes (.opened bracket) stack text := by
  cases completes with
  | member inside around => exact .opened (.filled inside) around

theorem Completes.element (completes : Completes .value (.array :: stack) text) :
    Completes (.member .array) stack text := by
  cases completes with
  | value inside closes =>
      cases closes with
      | bracket more around =>
          rw [← List.append_assoc]
          exact .member (.element inside more) around

theorem Completes.field {key : List Char} (named : KeyText key)
    (completes : Completes .value (.object :: stack) text) :
    Completes (.member .object) stack (key ++ text) := by
  cases completes with
  | value inside closes =>
      cases closes with
      | bracket more around =>
          have member := Completes.member (.field named inside more) around
          rwa [List.append_assoc, List.append_assoc] at member

theorem Completes.next {front : List Char} (blanks : Blanks front)
    (completes : Completes (.member bracket) stack text) :
    Completes .behind (bracket :: stack) (front ++ ',' :: text) := by
  cases completes with
  | member inside around =>
      have closes := Closes.bracket (.next blanks inside) around
      rw [List.append_assoc] at closes
      exact .behind closes

theorem Completes.last {front : List Char} (blanks : Blanks front)
    (completes : Completes .behind stack text) :
    Completes .behind (bracket :: stack) (front ++ bracket.close :: text) := by
  cases completes with
  | behind around =>
      have closes : Closes (bracket :: stack) (front ++ [bracket.close] ++ text) :=
        .bracket (.last blanks) around
      rw [List.append_assoc] at closes
      exact .behind closes

/-- By the steps of the reader: what it passes over completes what was open. -/
theorem completes_of_skip {place : Place} (done : skip place stack chars = .ok rest) :
    ∃ text, Completes place stack text ∧ chars = text ++ rest := by
  fun_induction skip place stack chars with
  | case1 => cases done
  | case2 stack chars others front _ ih =>
      obtain ⟨blanks, before, rfl⟩ := exists_blanks_of_skipBlanks front
      obtain ⟨text, completes, rfl⟩ := ih done
      refine ⟨_, completes.start before, ?_⟩
      rw [List.append_assoc]
      rfl
  | case3 stack chars others front _ ih =>
      obtain ⟨blanks, before, rfl⟩ := exists_blanks_of_skipBlanks front
      obtain ⟨text, completes, rfl⟩ := ih done
      refine ⟨_, completes.start before, ?_⟩
      rw [List.append_assoc]
      rfl
  | case4 => cases done
  | case5 stack chars char others _ _ front behind scalar _ ih =>
      obtain ⟨blanks, before, rfl⟩ := exists_blanks_of_skipBlanks front
      obtain ⟨written, inside, whole⟩ := scalarText_of_skipScalar scalar
      obtain ⟨text, completes, rfl⟩ := ih done
      refine ⟨_, completes.scalar before inside, ?_⟩
      rw [whole, List.append_assoc, List.append_assoc]
  | case6 => cases done
  | case7 stack chars bracket behind front _ ih =>
      obtain ⟨blanks, before, rfl⟩ := exists_blanks_of_skipBlanks front
      obtain ⟨text, completes, rfl⟩ := ih done
      refine ⟨_, completes.close before, ?_⟩
      rw [List.append_assoc]
      rfl
  | case8 stack chars bracket char others front other ih =>
      obtain ⟨text, completes, whole⟩ := ih done
      exact ⟨text, completes.fill, whole⟩
  | case9 stack chars ih =>
      obtain ⟨text, completes, whole⟩ := ih done
      exact ⟨text, completes.element, whole⟩
  | case10 => cases done
  | case11 stack chars behind named _ ih =>
      obtain ⟨key, written, rfl⟩ := keyText_of_skipKey named
      obtain ⟨text, completes, rfl⟩ := ih done
      exact ⟨_, completes.field written, (List.append_assoc _ _ _).symm⟩
  | case12 chars =>
      cases done
      exact ⟨[], .behind .nothing, rfl⟩
  | case13 => cases done
  | case14 chars bracket outer behind front _ ih =>
      obtain ⟨blanks, before, rfl⟩ := exists_blanks_of_skipBlanks front
      obtain ⟨text, completes, rfl⟩ := ih done
      refine ⟨_, completes.next before, ?_⟩
      rw [List.append_assoc]
      rfl
  | case15 chars bracket outer behind front _ _ ih =>
      obtain ⟨blanks, before, rfl⟩ := exists_blanks_of_skipBlanks front
      obtain ⟨text, completes, rfl⟩ := ih done
      refine ⟨_, completes.last before, ?_⟩
      rw [List.append_assoc]
      rfl
  | case16 => cases done

theorem form_of_skipValue (done : skipValue chars = .ok rest) :
    ∃ text, Form .value text ∧ chars = text ++ rest := by
  obtain ⟨text, completes, whole⟩ := completes_of_skip done
  cases completes with
  | value inside around =>
      cases around
      refine ⟨_, inside, ?_⟩
      rw [whole, List.append_nil]

/-! ## A well-formed value is passed over -/

theorem ScalarText.head (written : ScalarText text) :
    ∃ char others, text = char :: others ∧ isBlank char = false ∧
      char ∉ ['[', ']', '\x7b', '\x7d'] := by
  cases written with
  | null => exact ⟨_, _, rfl, rfl, by decide⟩
  | yes => exact ⟨_, _, rfl, rfl, by decide⟩
  | no => exact ⟨_, _, rfl, rfl, by decide⟩
  | text written => exact ⟨_, _, rfl, rfl, by decide⟩
  | number written =>
      obtain ⟨char, others, rfl, numeric⟩ := written.head
      exact ⟨char, others, rfl, numeric_head numeric⟩

/-- What a value or a member starts with does not close a bracket. -/
theorem Form.value_head (form : Form .value text) :
    ∃ front char others, Blanks front ∧ text = front ++ char :: others ∧
      isBlank char = false ∧ char ≠ ']' ∧ char ≠ '\x7d' := by
  cases form with
  | scalar blanks written =>
      obtain ⟨char, others, rfl, solid, other⟩ := written.head
      simp only [List.mem_cons, not_or] at other
      exact ⟨_, char, others, blanks, rfl, solid, other.2.1, other.2.2.2.1⟩
  | @bracketed bracket front later blanks inside =>
      refine ⟨_, bracket.start, later, blanks, rfl, ?_⟩
      cases bracket <;> decide

theorem Form.member_head (form : Form (.member bracket) text) :
    ∃ front char others, Blanks front ∧ text = front ++ char :: others ∧
      isBlank char = false ∧ char ≠ bracket.close := by
  cases form with
  | element value later =>
      obtain ⟨front, char, others, blanks, rfl, solid, array, object⟩ := value.value_head
      exact ⟨front, char, _, blanks, List.append_assoc _ _ _, solid, array⟩
  | field named value later =>
      cases named with
      | @key front body back before written after =>
          refine ⟨front, '"', _, before, List.append_assoc _ _ _, rfl, ?_⟩
          decide

theorem Form.delimited (form : Form (.more bracket) text) (rest : List Char) :
    Delimited (text ++ rest) := by
  cases form with
  | next blanks later =>
      rw [List.append_assoc]
      exact .of_blanks blanks (.of_comma _)
  | last blanks =>
      rw [List.append_assoc]
      refine .of_blanks blanks ?_
      rintro char ⟨rfl⟩
      cases bracket with
      | array => exact .inr (.inr (.inl rfl))
      | object => exact .inr (.inr (.inr rfl))

/-- The reader at a part of a value, inside the brackets of the stack. -/
def Part.skip (stack : List Bracket) (chars : List Char) : Part → Except Fault (List Char)
  | value => Json.skip .value stack chars
  | opened bracket => Json.skip (.opened bracket) stack chars
  | member bracket => Json.skip (.member bracket) stack chars
  | more bracket => Json.skip .behind (bracket :: stack) chars

/-- By the grammar: each part is passed over. -/
theorem Form.skip_append {part : Part} (form : Form part text)
    (ended : part = .value → Delimited rest) :
    part.skip stack (text ++ rest) = Json.skip .behind stack rest := by
  induction form generalizing stack rest with
  | @scalar front text blanks written =>
      obtain ⟨char, others, rfl, solid, other⟩ := written.head
      have read := skipScalar_append written (ended rfl)
      rw [List.append_assoc]
      refine skip_of_scalar (skipBlanks_behind blanks solid _) ?_ ?_ read
      · rintro rfl
        exact other List.mem_cons_self
      · rintro rfl
        simp at other
  | @bracketed bracket front text blanks inside ih =>
      have solid : isBlank bracket.start = false := by cases bracket <;> rfl
      rw [List.append_assoc]
      exact (skip_of_start (skipBlanks_behind blanks solid _)).trans (ih (by rintro ⟨⟩))
  | @empty bracket front blanks =>
      have solid : isBlank bracket.close = false := by cases bracket <;> rfl
      rw [List.append_assoc]
      exact skip_opened_of_close (skipBlanks_behind blanks solid _)
  | @filled bracket text inside ih =>
      obtain ⟨front, char, others, blanks, whole, solid, other⟩ := inside.member_head
      have starts : skipBlanks (text ++ rest) = char :: (others ++ rest) := by
        rw [whole, List.append_assoc]
        exact skipBlanks_behind blanks solid _
      exact (skip_opened_of_member starts other).trans (ih (by rintro ⟨⟩))
  | @element text behind value later first second =>
      rw [List.append_assoc, Part.skip, Json.skip]
      exact (first fun _ => later.delimited rest).trans (second (by rintro ⟨⟩))
  | @field key text behind named value later first second =>
      rw [List.append_assoc, List.append_assoc]
      refine (skip_member_of_key (skipKey_append named _)).trans ?_
      exact (first fun _ => later.delimited rest).trans (second (by rintro ⟨⟩))
  | @next bracket front text blanks later ih =>
      rw [List.append_assoc]
      exact (skip_behind_of_comma (skipBlanks_behind blanks rfl _)).trans (ih (by rintro ⟨⟩))
  | @last bracket front blanks =>
      have solid : isBlank bracket.close = false := by cases bracket <;> rfl
      rw [List.append_assoc]
      exact skip_behind_of_close (skipBlanks_behind blanks solid _)

theorem skipValue_append (form : Form .value text) (ended : Delimited rest) :
    skipValue (text ++ rest) = .ok rest := by
  refine (form.skip_append fun _ => ended).trans ?_
  rw [skip]

end Json

end SeriesCodec
