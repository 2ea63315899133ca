import SeriesCodec.Json.Text
import SeriesCodec.Proofs.Fallible

/-!
# How texts are written

A text is written piece by piece: characters as they are, short escapes and escaped code
units.  A text that is passed over may hold any code units; where its content matters,
surrogates come in pairs.
-/

namespace SeriesCodec

namespace Json

variable {text rest chars content : List Char} {char : Char} {code : Nat}

inductive PieceText : Piece → List Char → Prop where
  | close : PieceText .close ['"']
  | plain {char : Char} (printable : 32 ≤ char.toNat) (unquoted : char ≠ '"')
      (direct : char ≠ '\\') : PieceText (.plain char) [char]
  | short {letter meant : Char} (escape : shortEscape? letter = some meant) :
      PieceText (.plain meant) ['\\', letter]
  | unit {first second third fourth : Char} {a b c d : Nat}
      (one : Text.hexDigit? first = some a) (two : Text.hexDigit? second = some b)
      (three : Text.hexDigit? third = some c) (four : Text.hexDigit? fourth = some d) :
      PieceText (.unit (4096 * a + 256 * b + 16 * c + d)) ['\\', 'u', first, second, third, fourth]

/-- A text without its quotes that is only passed over. -/
inductive BodyText : List Char → Prop where
  | nil : BodyText []
  | plain {char : Char} {piece text : List Char} (written : PieceText (.plain char) piece)
      (later : BodyText text) : BodyText (piece ++ text)
  | unit {code : Nat} {piece text : List Char} (written : PieceText (.unit code) piece)
      (later : BodyText text) : BodyText (piece ++ text)

/-- A text without its quotes that has some content. -/
inductive Spells : List Char → List Char → Prop where
  | nil : Spells [] []
  | plain {char : Char} {content piece text : List Char}
      (written : PieceText (.plain char) piece) (later : Spells content text) :
      Spells (char :: content) (piece ++ text)
  | unit {code : Nat} {content piece text : List Char}
      (written : PieceText (.unit code) piece) (notLeading : isLeading code = false)
      (notTrailing : isTrailing code = false) (later : Spells content text) :
      Spells (Char.ofNat code :: content) (piece ++ text)
  | pair {leading trailing : Nat} {content front back text : List Char}
      (first : PieceText (.unit leading) front) (second : PieceText (.unit trailing) back)
      (leads : isLeading leading = true) (trails : isTrailing trailing = true)
      (later : Spells content text) :
      Spells (pairChar leading trailing :: content) (front ++ (back ++ text))

/-- A text with some content can be passed over. -/
theorem Spells.body (written : Spells content text) : BodyText text := by
  induction written with
  | nil => exact .nil
  | plain written later ih => exact .plain written ih
  | unit written notLeading notTrailing later ih => exact .unit written ih
  | pair first second leads trails later ih => exact .unit first (.unit second ih)

/-! ## Pieces -/

theorem cons_of_mapM {α β : Type} {read : α → Option β} {items : List α} {value : β}
    {values : List β} (all : items.mapM read = some (value :: values)) :
    ∃ item others, items = item :: others ∧ read item = some value ∧
      others.mapM read = some values := by
  cases items with
  | nil => cases all
  | cons item others =>
      rw [List.mapM_cons] at all
      obtain ⟨found, front, all⟩ := Option.bind_eq_some_iff.mp all
      obtain ⟨later, behind, same⟩ := Option.bind_eq_some_iff.mp all
      cases same
      exact ⟨item, others, rfl, front, behind⟩

theorem nil_of_mapM {α β : Type} {read : α → Option β} {items : List α}
    (all : items.mapM read = some []) : items = [] := by
  cases items with
  | nil => rfl
  | cons item others =>
      rw [List.mapM_cons] at all
      obtain ⟨found, _, all⟩ := Option.bind_eq_some_iff.mp all
      obtain ⟨later, _, same⟩ := Option.bind_eq_some_iff.mp all
      cases same

theorem four_le_utf8Length (first second third fourth : Char) :
    4 ≤ utf8Length [first, second, third, fourth] := by
  have one := first.utf8Size_pos
  have two := second.utf8Size_pos
  have three := third.utf8Size_pos
  have four := fourth.utf8Size_pos
  simp only [utf8Length]
  omega

theorem readUnit_of_digits {first second third fourth : Char} {a b c d : Nat}
    (one : Text.hexDigit? first = some a) (two : Text.hexDigit? second = some b)
    (three : Text.hexDigit? third = some c) (four : Text.hexDigit? fourth = some d)
    (rest : List Char) :
    readUnit (first :: second :: third :: fourth :: rest) =
      .ok (4096 * a + 256 * b + 16 * c + d, rest) := by
  have digits : [first, second, third, fourth].mapM Text.hexDigit? = some [a, b, c, d] := by
    simp only [List.mapM_cons, List.mapM_nil, one, two, three, four]
    rfl
  have enough := four_le_utf8Length first second third fourth
  have front : (first :: second :: third :: fourth :: rest).take 4 =
      [first, second, third, fourth] := rfl
  rw [readUnit, front, if_neg (Nat.not_lt_of_le enough), digits]
  rfl

theorem readPiece_append {piece : Piece} (written : PieceText piece text) (rest : List Char) :
    readPiece (text ++ rest) = .ok (piece, rest) := by
  cases written with
  | close => rfl
  | plain printable unquoted direct =>
      rw [List.singleton_append, readPiece, if_neg (Nat.not_lt_of_le printable)]
      · exact unquoted
      · exact direct
  | @short letter meant escape =>
      have other : letter ≠ 'u' := by
        rintro rfl
        cases escape
      change readEscape (letter :: rest) = _
      rw [readEscape, escape]
      exact other
  | unit one two three four =>
      exact congrArg (Except.map _) (readUnit_of_digits one two three four rest)

theorem pieceText_of_readUnit (read : readUnit chars = .ok (code, rest)) :
    ∃ text, PieceText (.unit code) ('\\' :: 'u' :: text) ∧ chars = text ++ rest := by
  rw [readUnit] at read
  split at read
  next => cases read
  next =>
    split at read
    next a b c d digits =>
      cases read
      obtain ⟨first, _, front, one, digits⟩ := cons_of_mapM digits
      obtain ⟨second, _, rfl, two, digits⟩ := cons_of_mapM digits
      obtain ⟨third, _, rfl, three, digits⟩ := cons_of_mapM digits
      obtain ⟨fourth, _, rfl, four, digits⟩ := cons_of_mapM digits
      cases nil_of_mapM digits
      refine ⟨_, .unit one two three four, ?_⟩
      rw [← front, List.take_append_drop]
    next => cases read

theorem pieceText_of_readPiece {piece : Piece} (read : readPiece chars = .ok (piece, rest)) :
    ∃ text, PieceText piece text ∧ chars = text ++ rest := by
  unfold readPiece at read
  split at read
  next => cases read
  next =>
    cases read
    exact ⟨_, .close, rfl⟩
  next behind =>
    unfold readEscape at read
    split at read
    next => cases read
    next others =>
      obtain ⟨⟨code, found⟩, unitRead, same⟩ := Fallible.map_eq_ok_iff.mp read
      cases same
      obtain ⟨text, written, rfl⟩ := pieceText_of_readUnit unitRead
      exact ⟨_, written, rfl⟩
    next letter others _ =>
      split at read
      next meant escape =>
        cases read
        exact ⟨_, .short escape, rfl⟩
      next => cases read
  next char others unquoted direct =>
    split at read
    next => cases read
    next printable =>
      cases read
      exact ⟨_, .plain (Nat.le_of_not_lt printable) unquoted direct, rfl⟩

/-! ## Texts that are passed over -/

theorem skipText_of_close (read : readPiece chars = .ok (.close, rest)) :
    skipText chars = .ok rest := by
  rw [skipText]
  split <;> simp_all

theorem skipText_of_plain (read : readPiece chars = .ok (.plain char, rest)) :
    skipText chars = skipText rest := by
  rw [skipText]
  split <;> simp_all

theorem skipText_of_unit (read : readPiece chars = .ok (.unit code, rest)) :
    skipText chars = skipText rest := by
  rw [skipText]
  split <;> simp_all

theorem skipText_append (written : BodyText text) (rest : List Char) :
    skipText (text ++ '"' :: rest) = .ok rest := by
  induction written with
  | nil => exact skipText_of_close rfl
  | plain written later ih =>
      rw [List.append_assoc, skipText_of_plain (readPiece_append written _), ih]
  | unit written later ih =>
      rw [List.append_assoc, skipText_of_unit (readPiece_append written _), ih]

theorem bodyText_of_skipText (read : skipText chars = .ok rest) :
    ∃ text, BodyText text ∧ chars = text ++ '"' :: rest := by
  fun_induction skipText chars with
  | case1 => cases read
  | case2 chars behind first =>
      cases read
      obtain ⟨text, written, rfl⟩ := pieceText_of_readPiece first
      cases written
      exact ⟨[], .nil, rfl⟩
  | case3 chars char behind first shorter ih =>
      obtain ⟨piece, written, rfl⟩ := pieceText_of_readPiece first
      obtain ⟨text, later, rfl⟩ := ih read
      exact ⟨_, .plain written later, (List.append_assoc _ _ _).symm⟩
  | case4 chars code behind first shorter ih =>
      obtain ⟨piece, written, rfl⟩ := pieceText_of_readPiece first
      obtain ⟨text, later, rfl⟩ := ih read
      exact ⟨_, .unit written later, (List.append_assoc _ _ _).symm⟩

/-! ## Texts with their content -/

theorem isTrailing_of_isLeading (leads : isLeading code = true) : isTrailing code = false := by
  simp only [isLeading, isTrailing, Bool.and_eq_true, decide_eq_true_eq,
    Bool.and_eq_false_iff, decide_eq_false_iff_not] at *
  omega

theorem readTrailing_append (written : PieceText (.unit code) text)
    (trails : isTrailing code = true) (rest : List Char) :
    readTrailing (text ++ rest) = .ok (code, rest) := by
  cases written with
  | unit one two three four =>
      have read := readUnit_of_digits one two three four rest
      simp only [List.cons_append, List.nil_append, readTrailing, read]
      exact if_pos trails

theorem pieceText_of_readTrailing (read : readTrailing chars = .ok (code, rest)) :
    isTrailing code = true ∧ ∃ text, PieceText (.unit code) text ∧ chars = text ++ rest := by
  unfold readTrailing at read
  split at read
  next => cases read
  next => cases read
  next others =>
    split at read
    next => cases read
    next found behind unitRead =>
      split at read
      next trails =>
        cases read
        obtain ⟨text, written, rfl⟩ := pieceText_of_readUnit unitRead
        exact ⟨trails, _, written, rfl⟩
      next => cases read
  next => cases read

theorem readText_of_close (read : readPiece chars = .ok (.close, rest)) :
    readText chars = .ok ([], rest) := by
  rw [readText]
  split <;> simp_all

theorem readText_of_plain (read : readPiece chars = .ok (.plain char, rest)) :
    readText chars = (readText rest).map fun (content, behind) => (char :: content, behind) := by
  rw [readText]
  split <;> simp_all

theorem readText_of_unit {others : List Char} (read : readPiece chars = .ok (.unit code, rest))
    (meant : readChar code rest = .ok (char, others)) :
    readText chars = (readText others).map fun (content, behind) => (char :: content, behind) := by
  rw [readText]
  split <;> simp_all
  split <;> simp_all

theorem readText_append (written : Spells content text) (rest : List Char) :
    readText (text ++ '"' :: rest) = .ok (content, rest) := by
  induction written with
  | nil => exact readText_of_close rfl
  | plain written later ih =>
      rw [List.append_assoc, readText_of_plain (readPiece_append written _), ih]
      rfl
  | @unit code content piece text written notLeading notTrailing later ih =>
      have meant : readChar code (text ++ '"' :: rest) =
          .ok (Char.ofNat code, text ++ '"' :: rest) := by
        rw [readChar, notLeading, notTrailing]
        rfl
      rw [List.append_assoc, readText_of_unit (readPiece_append written _) meant, ih]
      rfl
  | @pair leading trailing content front back text first second leads trails later ih =>
      have meant : readChar leading (back ++ (text ++ '"' :: rest)) =
          .ok (pairChar leading trailing, text ++ '"' :: rest) := by
        rw [readChar, isTrailing_of_isLeading leads, leads,
          readTrailing_append second trails]
        rfl
      rw [List.append_assoc, List.append_assoc,
        readText_of_unit (readPiece_append first _) meant, ih]
      rfl

theorem spells_of_readText (read : readText chars = .ok (content, rest)) :
    ∃ text, Spells content text ∧ chars = text ++ '"' :: rest := by
  fun_induction readText chars generalizing content rest with
  | case1 => cases read
  | case2 chars behind first =>
      cases read
      obtain ⟨text, written, rfl⟩ := pieceText_of_readPiece first
      cases written
      exact ⟨[], .nil, rfl⟩
  | case3 chars char behind first shorter ih =>
      obtain ⟨⟨later, found⟩, inner, same⟩ := Fallible.map_eq_ok_iff.mp read
      cases same
      obtain ⟨piece, written, rfl⟩ := pieceText_of_readPiece first
      obtain ⟨text, spelled, rfl⟩ := ih inner
      exact ⟨_, .plain written spelled, (List.append_assoc _ _ _).symm⟩
  | case4 => cases read
  | case5 chars code behind first char others meant shorter notLonger ih =>
      obtain ⟨⟨later, found⟩, inner, same⟩ := Fallible.map_eq_ok_iff.mp read
      cases same
      obtain ⟨piece, written, rfl⟩ := pieceText_of_readPiece first
      obtain ⟨text, spelled, rfl⟩ := ih inner
      rw [readChar] at meant
      split at meant
      next => cases meant
      next notTrailing =>
        split at meant
        next leads =>
          obtain ⟨⟨trailing, after⟩, trailingRead, same⟩ := Fallible.map_eq_ok_iff.mp meant
          obtain ⟨rfl, rfl⟩ := Prod.mk.inj same
          obtain ⟨trails, back, second, rfl⟩ := pieceText_of_readTrailing trailingRead
          refine ⟨_, .pair written second leads trails spelled, ?_⟩
          rw [List.append_assoc, List.append_assoc]
        next notLeading =>
          cases meant
          refine ⟨_, .unit written (Bool.eq_false_iff.mpr notLeading)
            (Bool.eq_false_iff.mpr notTrailing) spelled, ?_⟩
          rw [List.append_assoc]

end Json

end SeriesCodec
