import SeriesCodec.Json.Typed
import SeriesCodec.Proofs.Json.Form

/-!
# How booleans and words are written

A boolean is one of two identifiers.  A word has only one spelling, its decimal digits:
leading zeros, signs, fractions and exponents are all refused.
-/

namespace SeriesCodec

namespace Json

variable {text rest chars : List Char}

def boolText : Bool → List Char
  | true => ['t', 'r', 'u', 'e']
  | false => ['f', 'a', 'l', 's', 'e']

def wordText (word : UInt32) : List Char := Nat.toDigits 10 word.toNat

/-! ## Decimal digits -/

theorem isDigit_eq (char : Char) : isDigit char = char.isDigit := by
  rw [isDigit, Char.isDigit, Bool.eq_iff_iff]
  simp only [Bool.and_eq_true, decide_eq_true_eq]
  rfl

theorem value_of_isDigit {char : Char} (digit : isDigit char = true) :
    '0'.toNat ≤ char.toNat ∧ char.toNat - '0'.toNat < 10 := by
  rw [isDigit_eq, Char.isDigit, Bool.and_eq_true, decide_eq_true_eq, decide_eq_true_eq] at digit
  exact ⟨digit.1, Nat.sub_lt_left_of_lt_add digit.1 (Nat.lt_succ_of_le digit.2)⟩

theorem naturalOf_eq (digits : List Char) : naturalOf digits = Nat.ofDigitChars 10 digits 0 :=
  List.foldl_map

/-- The digit that stands for the value of a digit is the digit. -/
theorem digitChar_value {char : Char} (digit : isDigit char = true) :
    Nat.digitChar (char.toNat - '0'.toNat) = char := by
  obtain ⟨least, small⟩ := value_of_isDigit digit
  apply Char.toNat_inj.mp
  rw [Nat.toNat_digitChar_of_lt_ten small]
  exact Nat.add_sub_cancel' least

/-- Behind the digits of a positive number, digits are the digits of the number they make. -/
theorem toDigits_append_digits {digits : List Char} {front : Nat} (positive : 0 < front)
    (decimal : ∀ char ∈ digits, isDigit char = true) :
    Nat.toDigits 10 front ++ digits = Nat.toDigits 10 (Nat.ofDigitChars 10 digits front) := by
  induction digits generalizing front with
  | nil => rw [List.append_nil, Nat.ofDigitChars_nil]
  | cons char others ih =>
      obtain ⟨first, later⟩ := List.forall_mem_cons.mp decimal
      obtain ⟨_, small⟩ := value_of_isDigit first
      have step := Nat.toDigits_append_toDigits (by decide) positive small
      rw [Nat.toDigits_of_lt_base small, digitChar_value first] at step
      rw [Nat.ofDigitChars_cons, ← ih (by omega) later, ← step, List.append_assoc]
      rfl

/-- An integer without leading zeros consists of the digits of its value. -/
theorem toDigits_naturalOf (whole : IntegerText text) :
    Nat.toDigits 10 (naturalOf text) = text := by
  obtain ⟨⟨nonempty, decimal⟩, short⟩ := whole
  obtain ⟨char, others, rfl⟩ := List.exists_cons_of_ne_nil nonempty
  obtain ⟨first, later⟩ := List.forall_mem_cons.mp decimal
  rw [naturalOf_eq]
  by_cases leading : char = '0'
  · subst leading
    cases short _ rfl
    rfl
  · obtain ⟨least, small⟩ := value_of_isDigit first
    have other : '0'.toNat ≠ char.toNat := fun same => leading (Char.toNat_inj.mp same.symm)
    have positive : 0 < char.toNat - '0'.toNat := Nat.sub_pos_of_lt (Nat.lt_of_le_of_ne least other)
    have behind := toDigits_append_digits positive later
    rw [Nat.toDigits_of_lt_base small, digitChar_value first] at behind
    rw [Nat.ofDigitChars_cons, Nat.mul_zero, Nat.zero_add, ← behind]
    rfl

/-- The digits of a number other than zero do not start with zero. -/
theorem eq_zero_of_toDigits {number : Nat} {later : List Char}
    (leading : Nat.toDigits 10 number = '0' :: later) : number = 0 := by
  induction number using Nat.strongRecOn generalizing later with
  | ind number ih =>
      by_cases small : number < 10
      · rw [Nat.toDigits_of_lt_base small] at leading
        have same := congrArg Char.toNat (List.cons.inj leading).1
        rw [Nat.toNat_digitChar_of_lt_ten small] at same
        exact Nat.add_left_cancel same
      · have large : 10 ≤ number := Nat.le_of_not_lt small
        rw [Nat.toDigits_of_base_le (by decide) large] at leading
        obtain ⟨char, others, front⟩ :=
          List.exists_cons_of_ne_nil (Nat.toDigits_ne_nil (n := number / 10) (b := 10))
        rw [front, List.cons_append] at leading
        rw [(List.cons.inj leading).1] at front
        have shorter := ih (number / 10) (by omega) front
        omega

theorem integerText_toDigits (number : Nat) : IntegerText (Nat.toDigits 10 number) := by
  refine ⟨⟨Nat.toDigits_ne_nil, ?_⟩, ?_⟩
  · intro char inside
    rw [isDigit_eq]
    exact Nat.isDigit_of_mem_toDigits (by decide) (by decide) inside
  · intro later leading
    cases eq_zero_of_toDigits leading
    exact (List.cons.inj leading).2.symm

theorem naturalOf_toDigits (number : Nat) : naturalOf (Nat.toDigits 10 number) = number := by
  rw [naturalOf_eq]
  exact Nat.ofDigitChars_toDigits (by decide) (by decide)

/-! ## Booleans -/

theorem readBool_append (blanks : Blanks text) (value : Bool) (rest : List Char) :
    readBool (text ++ (boolText value ++ rest)) = .ok (value, rest) := by
  rw [readBool]
  cases value with
  | true =>
      rw [boolText, List.cons_append, skipBlanks_behind blanks rfl]
      exact congrArg (Except.map (true, ·)) (readIdentifier_append ['r', 'u', 'e'] rest)
  | false =>
      rw [boolText, List.cons_append, skipBlanks_behind blanks rfl]
      exact congrArg (Except.map (false, ·)) (readIdentifier_append ['a', 'l', 's', 'e'] rest)

theorem skipBlanks_of_readBool {value : Bool} (read : readBool chars = .ok (value, rest)) :
    skipBlanks chars = boolText value ++ rest := by
  unfold readBool at read
  split at read
  next others front =>
    obtain ⟨behind, identified, same⟩ := Fallible.map_eq_ok_iff.mp read
    cases same
    rw [front, eq_append_of_readIdentifier identified]
    rfl
  next others front =>
    obtain ⟨behind, identified, same⟩ := Fallible.map_eq_ok_iff.mp read
    cases same
    rw [front, eq_append_of_readIdentifier identified]
    rfl
  next => cases read

theorem boolText_of_readBool {value : Bool} (read : readBool chars = .ok (value, rest)) :
    ∃ text, Blanks text ∧ chars = text ++ (boolText value ++ rest) :=
  exists_blanks_of_skipBlanks (skipBlanks_of_readBool read)

/-! ## Words -/

theorem integerOf?_eq_some_iff {negative : Bool} {value found : Nat} (small : found < UInt32.size) :
    integerOf? negative value = some (found : Int) ↔ negative = false ∧ value = found := by
  have wide : UInt32.size ≤ UInt64.size := by decide
  rw [integerOf?]
  cases negative with
  | true =>
      refine iff_of_false ?_ (fun impossible => Bool.noConfusion impossible.1)
      rw [if_pos rfl]
      split
      next positive =>
        intro same
        have equal := Option.some.inj same
        omega
      next => exact nofun
  | false =>
      rw [if_neg Bool.false_ne_true]
      constructor
      · intro same
        split at same
        next => exact ⟨rfl, Int.ofNat.inj (Option.some.inj same)⟩
        next => cases same
      · rintro ⟨_, rfl⟩
        exact if_pos (Nat.lt_of_lt_of_le small wide)

theorem wordOf_eq_ok_iff {number : Number} {word : UInt32} :
    wordOf number = .ok word ↔ number = .integer word.toNat := by
  cases number with
  | real value =>
      constructor
      · intro impossible
        cases impossible
      · intro impossible
        cases impossible
  | integer value =>
      rw [wordOf, Number.integer.injEq]
      constructor
      · intro same
        split at same
        next range =>
          cases same
          have small : value.toNat < UInt32.size := by omega
          rw [UInt32.toNat_ofNat_of_lt' small, Int.toNat_of_nonneg range.1]
        next => cases same
      · rintro rfl
        have small := word.toNat_lt_size
        rw [if_pos ⟨Int.natCast_nonneg _, Int.ofNat_lt.mpr small⟩, Int.toNat_natCast,
          UInt32.ofNat_toNat]

/-- A numeral is a word if it is written in digits only. -/
theorem value_eq_word_iff {numeral : Numeral} {word : UInt32} :
    numeral.value = .ok (.integer word.toNat) ↔
      numeral.negative = false ∧ naturalOf numeral.integer = word.toNat ∧
        numeral.fraction = none ∧ numeral.exponent = none := by
  have small := word.toNat_lt_size
  rw [Numeral.value, Numeral.integer?]
  constructor
  · intro same
    split at same
    next found known =>
      cases same
      split at known
      next plain =>
        obtain ⟨unsigned, natural⟩ := (integerOf?_eq_some_iff small).mp known
        exact ⟨unsigned, natural, Option.isNone_iff_eq_none.mp plain.1,
          Option.isNone_iff_eq_none.mp plain.2⟩
      next => cases known
    next =>
      split at same <;> cases same
  · rintro ⟨unsigned, natural, whole, unscaled⟩
    rw [whole, unscaled, if_pos ⟨rfl, rfl⟩,
      (integerOf?_eq_some_iff small).mpr ⟨unsigned, natural⟩]

theorem exists_digit_of_wordText (word : UInt32) :
    ∃ char others, wordText word = char :: others ∧ isDigit char = true := by
  have digits := (integerText_toDigits word.toNat).digits
  obtain ⟨char, others, front⟩ := List.exists_cons_of_ne_nil digits.nonempty
  exact ⟨char, others, front, digits.decimal char (front ▸ List.mem_cons_self)⟩

theorem numeralText_wordText (word : UInt32) :
    NumeralText ⟨false, wordText word, none, none⟩ (wordText word) := by
  have parts := NumeralText.parts .none (integerText_toDigits word.toNat) .none .none
  rwa [List.append_nil, List.append_nil] at parts

theorem readWord_append (blanks : Blanks text) (word : UInt32) (ended : Delimited rest) :
    readWord (text ++ (wordText word ++ rest)) = .ok (word, rest) := by
  have value : Numeral.value ⟨false, wordText word, none, none⟩ = .ok (.integer word.toNat) :=
    value_eq_word_iff.mpr ⟨rfl, naturalOf_toDigits _, rfl, rfl⟩
  have read : readNumber (wordText word ++ rest) = .ok (.integer word.toNat, rest) := by
    rw [readNumber, readNumeral_append (numeralText_wordText word) ended, Fallible.ok_bind]
    dsimp only
    rw [value]
    rfl
  obtain ⟨char, others, front, digit⟩ := exists_digit_of_wordText word
  rw [front, List.cons_append] at read ⊢
  rw [readWord, skipBlanks_behind blanks (solid_of_isDigit digit)]
  dsimp only
  rw [if_pos (.inr digit), read, Fallible.ok_bind]
  dsimp only
  rw [wordOf_eq_ok_iff.mpr rfl]
  rfl

/-- A numeral without any other part is written in the digits of its value. -/
theorem wordText_of_value {numeral : Numeral} {word : UInt32} (written : NumeralText numeral text)
    (unsigned : numeral.negative = false) (natural : naturalOf numeral.integer = word.toNat)
    (plain : numeral.fraction = none) (unscaled : numeral.exponent = none) :
    text = wordText word := by
  cases written with
  | parts signed whole broken scaled =>
      subst unsigned plain unscaled
      cases signed
      cases broken
      cases scaled
      rw [List.nil_append, List.append_nil, List.append_nil, wordText, ← natural,
        toDigits_naturalOf whole]

/-- A word that is read is a numeral. -/
theorem exists_numeral_of_readWord {word : UInt32} (read : readWord chars = .ok (word, rest)) :
    ∃ char others numeral, skipBlanks chars = char :: others ∧
      (char = '-' ∨ isDigit char = true) ∧ readNumeral (char :: others) = .ok (numeral, rest) ∧
      numeral.value = .ok (.integer word.toNat) := by
  rw [readWord] at read
  split at read
  next => cases read
  next char others front =>
    split at read
    next numeric =>
      obtain ⟨⟨number, behind⟩, numberRead, read⟩ := Fallible.bind_eq_ok_iff.mp read
      obtain ⟨found, wordRead, same⟩ := Fallible.bind_eq_ok_iff.mp read
      cases same
      obtain ⟨⟨numeral, after⟩, numeralRead, valued⟩ := Fallible.bind_eq_ok_iff.mp numberRead
      obtain ⟨_, value, same⟩ := Fallible.bind_eq_ok_iff.mp valued
      cases same
      rw [wordOf_eq_ok_iff.mp wordRead] at value
      exact ⟨char, others, numeral, front, numeric, numeralRead, value⟩
    next => cases read

theorem wordText_of_readWord {word : UInt32} (read : readWord chars = .ok (word, rest)) :
    ∃ text, Blanks text ∧ chars = text ++ (wordText word ++ rest) := by
  obtain ⟨char, others, numeral, front, _, numeralRead, value⟩ := exists_numeral_of_readWord read
  obtain ⟨unsigned, natural, plain, unscaled⟩ := value_eq_word_iff.mp value
  obtain ⟨text, written, whole⟩ := numeralText_of_readNumeral numeralRead
  rw [whole, wordText_of_value written unsigned natural plain unscaled] at front
  exact exists_blanks_of_skipBlanks front

/-! ## Values of a known type are values -/

theorem scalarText_boolText (value : Bool) : ScalarText (boolText value) := by
  cases value with
  | true => exact .yes
  | false => exact .no

theorem scalarText_wordText (word : UInt32) : ScalarText (wordText word) :=
  .number (numeralText_wordText word)

/-- What is read as a boolean is passed over as a value. -/
theorem skipValue_of_readBool {value : Bool} (read : readBool chars = .ok (value, rest)) :
    skipValue chars = .ok rest := by
  have front := skipBlanks_of_readBool read
  cases value with
  | true =>
      have scalar := readIdentifier_append ['r', 'u', 'e'] rest
      refine (skip_of_scalar front (by decide) (by decide) scalar).trans ?_
      rw [skip]
  | false =>
      have scalar := readIdentifier_append ['a', 'l', 's', 'e'] rest
      refine (skip_of_scalar front (by decide) (by decide) scalar).trans ?_
      rw [skip]

/-- What is read as a word is passed over as a value. -/
theorem skipValue_of_readWord {word : UInt32} (read : readWord chars = .ok (word, rest)) :
    skipValue chars = .ok rest := by
  obtain ⟨char, others, numeral, front, numeric, numeralRead, _⟩ := exists_numeral_of_readWord read
  have scalar : skipScalar (char :: others) = .ok rest := by
    rw [skipScalar_of_numeric numeric, skipNumber, numeralRead]
  have other := (numeric_head numeric).2
  simp only [List.mem_cons, not_or] at other
  refine (skip_of_scalar front other.1 other.2.2.1 scalar).trans ?_
  rw [skip]

end Json

end SeriesCodec
