import SeriesCodec.Json.Scan

/-!
# Blanks, identifiers and what ends a value

Blanks may stand between the parts of a document.  A value is followed by a blank, by a
comma, by the end of an array or object, or by nothing.
-/

namespace SeriesCodec

namespace Json

variable {text rest chars : List Char} {char : Char}

def Blanks (text : List Char) : Prop := ∀ char ∈ text, isBlank char = true

/-- What follows a value. -/
def Delimited (rest : List Char) : Prop :=
  ∀ char ∈ rest.head?, isBlank char = true ∨ char = ',' ∨ char = ']' ∨ char = '\x7d'

theorem Blanks.nil : Blanks [] := by
  intro char impossible
  cases impossible

theorem isBlank_iff : isBlank char = true ↔
    char = ' ' ∨ char = '\n' ∨ char = '\t' ∨ char = '\r' := by
  simp only [isBlank, Bool.or_eq_true, beq_iff_eq, or_assoc]

theorem solid_of_isDigit (digit : isDigit char = true) : isBlank char = false := by
  refine Bool.eq_false_iff.mpr fun blank => ?_
  rcases isBlank_iff.mp blank with rfl | rfl | rfl | rfl <;> cases digit

/-! ## Blanks -/

theorem skipBlanks_append (blanks : Blanks text) (rest : List Char) :
    skipBlanks (text ++ rest) = skipBlanks rest := by
  induction text with
  | nil => rfl
  | cons char others ih =>
      obtain ⟨first, later⟩ := List.forall_mem_cons.mp blanks
      rw [skipBlanks, List.cons_append, List.dropWhile_cons_of_pos first]
      exact ih later

theorem skipBlanks_of_solid (solid : isBlank char = false) (rest : List Char) :
    skipBlanks (char :: rest) = char :: rest :=
  List.dropWhile_cons_of_neg (by rw [solid]; exact Bool.false_ne_true)

/-- Behind blanks a reader finds the first character that is none. -/
theorem skipBlanks_behind (blanks : Blanks text) (solid : isBlank char = false)
    (rest : List Char) : skipBlanks (text ++ char :: rest) = char :: rest := by
  rw [skipBlanks_append blanks, skipBlanks_of_solid solid]

/-- What is passed over are blanks. -/
theorem exists_blanks (chars : List Char) :
    ∃ text, Blanks text ∧ chars = text ++ skipBlanks chars :=
  ⟨chars.takeWhile isBlank, List.all_eq_true.mp List.all_takeWhile,
    List.takeWhile_append_dropWhile.symm⟩

theorem exists_blanks_of_skipBlanks {found : List Char} (front : skipBlanks chars = found) :
    ∃ text, Blanks text ∧ chars = text ++ found := by
  rw [← front]
  exact exists_blanks chars

theorem blanks_iff : Blanks text ↔ skipBlanks text = [] := by
  constructor
  · intro blanks
    have nothing := skipBlanks_append blanks []
    rwa [List.append_nil] at nothing
  · intro nothing
    obtain ⟨front, blanks, whole⟩ := exists_blanks_of_skipBlanks nothing
    rw [whole, List.append_nil]
    exact blanks

/-! ## What ends a value -/

theorem Delimited.nil : Delimited [] := by
  intro char impossible
  cases impossible

theorem Delimited.of_comma (rest : List Char) : Delimited (',' :: rest) := by
  rintro char ⟨rfl⟩
  exact .inr (.inl rfl)

theorem Delimited.of_blanks (blanks : Blanks text) (ended : Delimited rest) :
    Delimited (text ++ rest) := by
  cases text with
  | nil => exact ended
  | cons char others =>
      rintro char ⟨rfl⟩
      exact .inl (blanks _ List.mem_cons_self)

/-! ## Identifiers -/

/-- What has been read stood at the front. -/
theorem eq_append_of_readIdentifier {identifier : List Char}
    (read : readIdentifier identifier chars = .ok rest) : chars = identifier ++ rest := by
  induction identifier generalizing chars with
  | nil =>
      cases read
      rfl
  | cons wanted identifier ih =>
      cases chars with
      | nil => cases read
      | cons char others =>
          rw [readIdentifier] at read
          split at read
          next same => rw [ih read, same, List.cons_append]
          next => cases read

/-! ## Colons -/

theorem readColon_append (blanks : Blanks text) (rest : List Char) :
    readColon (text ++ ':' :: rest) = .ok rest := by
  rw [readColon, skipBlanks_behind blanks rfl]
  rfl

theorem exists_colon_of_readColon (read : readColon chars = .ok rest) :
    ∃ text, Blanks text ∧ chars = text ++ ':' :: rest := by
  rw [readColon] at read
  split at read
  next => cases read
  next others front =>
    cases read
    exact exists_blanks_of_skipBlanks front
  next => cases read

end Json

end SeriesCodec
