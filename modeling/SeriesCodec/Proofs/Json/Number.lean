import Mathlib.Data.List.Basic
import SeriesCodec.Json.Typed
import SeriesCodec.Proofs.Fallible
import SeriesCodec.Proofs.Json.Scan

/-!
# How numbers are written

A number is an integer without leading zeros, perhaps with a sign in front, a fraction and
an exponent behind it.  A number is read exactly when it is written like that, and a word
has only one spelling, its decimal digits.
-/

namespace SeriesCodec

namespace Json

variable {text rest chars : List Char}

structure Digits (text : List Char) : Prop where
  nonempty : text ≠ []
  decimal : ∀ char ∈ text, isDigit char = true

/-- An integer without leading zeros. -/
structure IntegerText (text : List Char) : Prop where
  digits : Digits text
  short : ∀ later, text = '0' :: later → later = []

inductive MinusText : Bool → List Char → Prop where
  | minus : MinusText true ['-']
  | none : MinusText false []

inductive SignText : Bool → List Char → Prop where
  | minus : SignText true ['-']
  | plus : SignText false ['+']
  | none : SignText false []

inductive FractionText : Option (List Char) → List Char → Prop where
  | digits {digits : List Char} (decimal : Digits digits) :
      FractionText (some digits) ('.' :: digits)
  | none : FractionText none []

inductive ExponentText : Option Int → List Char → Prop where
  | scaled {letter : Char} {negative : Bool} {sign digits : List Char}
      (marked : letter = 'e' ∨ letter = 'E') (signed : SignText negative sign)
      (decimal : Digits digits) :
      ExponentText (some (if negative then -(naturalOf digits : Int) else naturalOf digits))
        (letter :: (sign ++ digits))
  | none : ExponentText none []

inductive NumeralText : Numeral → List Char → Prop where
  | parts {negative : Bool} {integer : List Char} {fraction : Option (List Char)}
      {exponent : Option Int} {minus point power : List Char}
      (signed : MinusText negative minus) (whole : IntegerText integer)
      (broken : FractionText fraction point) (scaled : ExponentText exponent power) :
      NumeralText ⟨negative, integer, fraction, exponent⟩
        (minus ++ (integer ++ (point ++ power)))

/-! ## Digits -/

/-- What digits are followed by when they end. -/
def EndsDigits (rest : List Char) : Prop := ∀ char ∈ rest.head?, isDigit char = false

theorem spanDigits_append (decimal : ∀ char ∈ text, isDigit char = true)
    (ends : EndsDigits rest) : spanDigits (text ++ rest) = (text, rest) := by
  induction text with
  | nil =>
      cases rest with
      | nil => rfl
      | cons char others =>
          have other : ¬isDigit char = true := by
            rw [ends char rfl]
            exact Bool.false_ne_true
          rw [List.nil_append, spanDigits, List.takeWhile_cons_of_neg other,
            List.dropWhile_cons_of_neg other]
  | cons char others ih =>
      obtain ⟨first, later⟩ := List.forall_mem_cons.mp decimal
      have behind := ih later
      rw [spanDigits, Prod.mk.injEq] at behind ⊢
      rw [List.cons_append, List.takeWhile_cons_of_pos first, List.dropWhile_cons_of_pos first,
        behind.1]
      exact ⟨rfl, behind.2⟩

theorem digits_of_spanDigits {found : List Char} (split : spanDigits chars = (found, rest)) :
    chars = found ++ rest ∧ ∀ char ∈ found, isDigit char = true := by
  rw [spanDigits, Prod.mk.injEq] at split
  obtain ⟨rfl, rfl⟩ := split
  exact ⟨List.takeWhile_append_dropWhile.symm, List.all_eq_true.mp List.all_takeWhile⟩

/-- What can stand behind a whole number goes on neither its digits nor with a part of it. -/
theorem Delimited.head (ended : Delimited rest) {char : Char} (front : char ∈ rest.head?) :
    isDigit char = false ∧ char ≠ '.' ∧ char ≠ 'e' ∧ char ≠ 'E' := by
  rcases ended char front with blank | rfl | rfl | rfl
  · rcases isBlank_iff.mp blank with rfl | rfl | rfl | rfl <;> decide
  · decide
  · decide
  · decide

theorem Delimited.endsDigits (ended : Delimited rest) : EndsDigits rest :=
  fun _ front => (ended.head front).1

theorem ExponentText.endsDigits {exponent : Option Int} (scaled : ExponentText exponent text)
    (ended : Delimited rest) : EndsDigits (text ++ rest) := by
  cases scaled with
  | none => exact ended.endsDigits
  | scaled marked signed decimal =>
      rintro char ⟨rfl⟩
      rcases marked with rfl | rfl <;> rfl

theorem FractionText.endsDigits {fraction : Option (List Char)} {power : List Char}
    {exponent : Option Int} (broken : FractionText fraction text)
    (scaled : ExponentText exponent power) (ended : Delimited rest) :
    EndsDigits (text ++ (power ++ rest)) := by
  cases broken with
  | none => exact scaled.endsDigits ended
  | digits decimal =>
      rintro char ⟨rfl⟩
      rfl

/-! ## Parts -/

theorem readInteger_append (whole : IntegerText text) (ends : EndsDigits rest) :
    readInteger (text ++ rest) = .ok (text, rest) := by
  rw [readInteger, spanDigits_append whole.digits.decimal ends]
  split
  next same =>
    cases same
    exact absurd rfl whole.digits.nonempty
  next same =>
    cases same
    cases whole.short _ rfl
  next same =>
    cases same
    rfl

theorem integerText_of_readInteger {digits : List Char}
    (read : readInteger chars = .ok (digits, rest)) :
    IntegerText digits ∧ chars = digits ++ rest := by
  rw [readInteger] at read
  split at read
  next => cases read
  next => cases read
  next found behind nonempty short split =>
    cases read
    obtain ⟨whole, decimal⟩ := digits_of_spanDigits split
    refine ⟨⟨⟨nonempty, decimal⟩, ?_⟩, whole⟩
    rintro later rfl
    cases later with
    | nil => rfl
    | cons second others => exact absurd rfl (short second others)

theorem readFraction_append {fraction : Option (List Char)}
    (broken : FractionText fraction text) (ends : EndsDigits rest)
    (other : ∀ char ∈ rest.head?, char ≠ '.') :
    readFraction (text ++ rest) = .ok (fraction, rest) := by
  cases broken with
  | digits decimal =>
      rw [List.cons_append, readFraction, spanDigits_append decimal.decimal ends]
      split
      next same =>
        cases same
        exact absurd rfl decimal.nonempty
      next same =>
        cases same
        rfl
  | none =>
      rw [List.nil_append, readFraction]
      rintro others rfl
      exact other '.' rfl rfl

theorem fractionText_of_readFraction {fraction : Option (List Char)}
    (read : readFraction chars = .ok (fraction, rest)) :
    ∃ text, FractionText fraction text ∧ chars = text ++ rest := by
  unfold readFraction at read
  split at read
  next others =>
    split at read
    next => cases read
    next digits behind nonempty split =>
      cases read
      obtain ⟨rfl, decimal⟩ := digits_of_spanDigits split
      exact ⟨_, .digits ⟨nonempty, decimal⟩, rfl⟩
  next =>
    cases read
    exact ⟨[], .none, rfl⟩

theorem readSign_append {negative : Bool} (signed : SignText negative text)
    (digits : ∀ char ∈ rest.head?, isDigit char = true) :
    readSign (text ++ rest) = (negative, rest) := by
  cases signed with
  | minus => rfl
  | plus => rfl
  | none =>
      cases rest with
      | nil => rfl
      | cons char others =>
          have decimal := digits char rfl
          rw [List.nil_append, readSign]
          · rintro _ ⟨rfl⟩
            cases decimal
          · rintro _ ⟨rfl⟩
            cases decimal

theorem exists_sign (chars : List Char) :
    ∃ text, SignText (readSign chars).1 text ∧ chars = text ++ (readSign chars).2 := by
  unfold readSign
  split
  next => exact ⟨_, .minus, rfl⟩
  next => exact ⟨_, .plus, rfl⟩
  next => exact ⟨_, .none, rfl⟩

theorem Digits.head {text : List Char} (decimal : Digits text) (rest : List Char) :
    ∀ char ∈ (text ++ rest).head?, isDigit char = true := by
  cases text with
  | nil => exact absurd rfl decimal.nonempty
  | cons first others =>
      rintro char ⟨rfl⟩
      exact decimal.decimal _ List.mem_cons_self

theorem readExponent_append {exponent : Option Int} (scaled : ExponentText exponent text)
    (ended : Delimited rest) : readExponent (text ++ rest) = .ok (exponent, rest) := by
  cases scaled with
  | @scaled letter negative sign digits marked signed decimal =>
      rw [List.cons_append, List.append_assoc, readExponent, if_pos marked,
        readSign_append signed (decimal.head rest)]
      dsimp only
      rw [spanDigits_append decimal.decimal ended.endsDigits]
      split
      next same =>
        cases same
        exact absurd rfl decimal.nonempty
      next same =>
        cases same
        rfl
  | none =>
      cases rest with
      | nil => rfl
      | cons char others =>
          obtain ⟨_, _, lower, upper⟩ := ended.head (Option.mem_some_self char)
          rw [List.nil_append, readExponent, if_neg (not_or_intro lower upper)]

theorem exponentText_of_readExponent {exponent : Option Int}
    (read : readExponent chars = .ok (exponent, rest)) :
    ∃ text, ExponentText exponent text ∧ chars = text ++ rest := by
  unfold readExponent at read
  split at read
  next =>
    cases read
    exact ⟨[], .none, rfl⟩
  next letter behind =>
    split at read
    next marked =>
      obtain ⟨sign, signed, whole⟩ := exists_sign behind
      dsimp only at read
      split at read
      next => cases read
      next digits others nonempty split =>
        cases read
        obtain ⟨unsigned, decimal⟩ := digits_of_spanDigits split
        refine ⟨_, .scaled marked signed ⟨nonempty, decimal⟩, ?_⟩
        rw [whole, unsigned, List.cons_append, List.append_assoc]
    next =>
      cases read
      exact ⟨[], .none, rfl⟩

theorem readMinus_append {negative : Bool} (signed : MinusText negative text)
    (digits : ∀ char ∈ rest.head?, isDigit char = true) :
    readMinus (text ++ rest) = (negative, rest) := by
  cases signed with
  | minus => rfl
  | none =>
      cases rest with
      | nil => rfl
      | cons char others =>
          have decimal := digits char rfl
          rw [List.nil_append, readMinus]
          rintro _ ⟨rfl⟩
          cases decimal

theorem exists_minus (chars : List Char) :
    ∃ text, MinusText (readMinus chars).1 text ∧ chars = text ++ (readMinus chars).2 := by
  unfold readMinus
  split
  next => exact ⟨_, .minus, rfl⟩
  next => exact ⟨_, .none, rfl⟩

/-! ## Numbers -/

theorem readNumeral_append {numeral : Numeral} (written : NumeralText numeral text)
    (ended : Delimited rest) : readNumeral (text ++ rest) = .ok (numeral, rest) := by
  cases written with
  | @parts negative integer fraction exponent minus point power signed whole broken scaled =>
      have behind := broken.endsDigits scaled ended
      have other : ∀ char ∈ (power ++ rest).head?, char ≠ '.' := by
        cases scaled with
        | none => exact fun char front => (ended.head front).2.1
        | scaled marked _ _ =>
            rintro char ⟨rfl⟩
            rcases marked with rfl | rfl <;> decide
      rw [List.append_assoc, List.append_assoc, List.append_assoc, readNumeral,
        readMinus_append signed (whole.digits.head _)]
      dsimp only
      rw [readInteger_append whole behind, Fallible.ok_bind]
      dsimp only
      rw [readFraction_append broken (scaled.endsDigits ended) other, Fallible.ok_bind]
      dsimp only
      rw [readExponent_append scaled ended]
      rfl

theorem numeralText_of_readNumeral {numeral : Numeral}
    (read : readNumeral chars = .ok (numeral, rest)) :
    ∃ text, NumeralText numeral text ∧ chars = text ++ rest := by
  obtain ⟨minus, signed, whole⟩ := exists_minus chars
  rw [readNumeral] at read
  dsimp only at read
  obtain ⟨⟨integer, first⟩, integerRead, read⟩ := Fallible.bind_eq_ok_iff.mp read
  obtain ⟨⟨fraction, second⟩, fractionRead, read⟩ := Fallible.bind_eq_ok_iff.mp read
  obtain ⟨⟨exponent, third⟩, exponentRead, read⟩ := Fallible.bind_eq_ok_iff.mp read
  cases read
  obtain ⟨digits, unsigned⟩ := integerText_of_readInteger integerRead
  obtain ⟨point, broken, rfl⟩ := fractionText_of_readFraction fractionRead
  obtain ⟨power, scaled, rfl⟩ := exponentText_of_readExponent exponentRead
  refine ⟨_, .parts signed digits broken scaled, ?_⟩
  rw [whole, unsigned, List.append_assoc, List.append_assoc, List.append_assoc]

theorem skipNumber_append {numeral : Numeral} (written : NumeralText numeral text)
    (ended : Delimited rest) : skipNumber (text ++ rest) = .ok rest := by
  rw [skipNumber, readNumeral_append written ended]

theorem numeralText_of_skipNumber (read : skipNumber chars = .ok rest) :
    ∃ numeral text, NumeralText numeral text ∧ chars = text ++ rest := by
  rw [skipNumber] at read
  split at read
  next numeral behind found =>
    cases read
    exact ⟨numeral, numeralText_of_readNumeral found⟩
  next => cases read

end Json

end SeriesCodec
