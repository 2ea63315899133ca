import SeriesCodec.Json.Scan

/-!
# Numbers in JSON

A number whose value is needed is an integer if it has neither fraction nor
exponent and lies in the range of the 64-bit integers, signed when it has a
minus sign and unsigned otherwise.  Every other number is a double: a 64-bit
significand is filled with digits from the front, digits that no longer fit
only count towards the exponent, and the significand is scaled by powers of
ten.  A number that is passed over is only checked for its form.
-/

namespace SeriesCodec

namespace Json

inductive Number where
  | integer (value : Int)
  | real (value : Binary64)
  deriving DecidableEq, Repr

namespace Number

def found : Number → Found
  | integer value => .integer value
  | real value => .real value

end Number

def digitValues (digits : List Char) : List Nat :=
  digits.map fun digit => digit.toNat - '0'.toNat

def significandBound : Nat := UInt64.size

/-- The significand after as many digits as fit, and the digits that do not. -/
def absorb : (significand : Nat) → (digits : List Nat) → Nat × List Nat
  | significand, [] => (significand, [])
  | significand, digit :: digits =>
      let next := 10 * significand + digit
      if next < significandBound then absorb next digits
      else (significand, digit :: digits)

/-- A decimal on the way to a double: `significand * 10 ^ exponent`. -/
structure Decimals where
  significand : Nat
  exponent : Int
  deriving DecidableEq, Repr

namespace Decimals

/-- The decimal of an integer; each digit that does not fit raises the exponent. -/
def ofInteger (digits : List Char) : Decimals :=
  let (significand, excess) := absorb 0 (digitValues digits)
  ⟨significand, excess.length⟩

/-- The decimal with a fraction; each digit that fits lowers the exponent. -/
def withFraction (decimals : Decimals) (digits : List Char) : Decimals :=
  let (significand, excess) := absorb decimals.significand (digitValues digits)
  ⟨significand, decimals.exponent - (digits.length - excess.length : Nat)⟩

end Decimals

def greatestPower : Nat := 308

/-- The number divided by ten `places` times, in steps of at most the greatest power. -/
def scaleDown (number : Binary64) (places : Nat) : Option Binary64 :=
  if places ≤ greatestPower then do
    let power ← Binary64.ofNat (Decimal.powerOfTen places)
    number.div power
  else if number.isZero then some number
  else do
    let power ← Binary64.ofNat (Decimal.powerOfTen greatestPower)
    let smaller ← number.div power
    scaleDown smaller (places - greatestPower)
termination_by places
decreasing_by
  simp only [greatestPower] at *
  omega

/-- The double of a decimal, unless it is too large. -/
def Decimals.toReal? (decimals : Decimals) : Option Binary64 := do
  let number ← Binary64.ofNat decimals.significand
  if decimals.exponent < 0 then scaleDown number decimals.exponent.natAbs
  else if number.isZero then some number
  else if decimals.exponent ≤ greatestPower then do
    let power ← Binary64.ofNat (Decimal.powerOfTen decimals.exponent.toNat)
    number.mul power
  else none

def spanDigits (chars : List Char) : List Char × List Char :=
  (chars.takeWhile isDigit, chars.dropWhile isDigit)

def naturalOf (digits : List Char) : Nat :=
  (digitValues digits).foldl (fun value digit => 10 * value + digit) 0

def missingDigit : (behind : List Char) → Fault
  | [] => .ended .value
  | _ :: _ => .invalidNumber

/-- The digits of an integer, which has no leading zero. -/
def readInteger (chars : List Char) : Except Fault (List Char × List Char) :=
  match spanDigits chars with
  | ([], rest) => .error (missingDigit rest)
  | ('0' :: _ :: _, _) => .error .invalidNumber
  | (digits, rest) => .ok (digits, rest)

def readFraction : List Char → Except Fault (Option (List Char) × List Char)
  | '.' :: chars =>
      match spanDigits chars with
      | ([], rest) => .error (missingDigit rest)
      | (digits, rest) => .ok (some digits, rest)
  | chars => .ok (none, chars)

/-- The sign at the front of an exponent: whether it is a minus, and the rest. -/
def readSign : List Char → Bool × List Char
  | '-' :: chars => (true, chars)
  | '+' :: chars => (false, chars)
  | chars => (false, chars)

def readExponent (chars : List Char) : Except Fault (Option Int × List Char) :=
  match chars with
  | [] => .ok (none, [])
  | char :: behind =>
      if char = 'e' ∨ char = 'E' then
        let (negative, unsigned) := readSign behind
        match spanDigits unsigned with
        | ([], rest) => .error (missingDigit rest)
        | (digits, rest) =>
            let magnitude : Int := naturalOf digits
            .ok (some (if negative then -magnitude else magnitude), rest)
      else .ok (none, chars)

/-- An integer with its sign, as far as 64 bits hold it. -/
def integerOf? (negative : Bool) (value : Nat) : Option Int :=
  if negative then
    if 0 < value ∧ value ≤ UInt64.size / 2 then some (-value) else none
  else if value < UInt64.size then some value
  else none

structure Numeral where
  negative : Bool
  integer : List Char
  fraction : Option (List Char)
  exponent : Option Int
  deriving DecidableEq, Repr

namespace Numeral

def decimals (numeral : Numeral) : Decimals :=
  let unscaled :=
    (Decimals.ofInteger numeral.integer).withFraction (numeral.fraction.getD [])
  { unscaled with exponent := unscaled.exponent + numeral.exponent.getD 0 }

/-- The integer that a numeral stands for, if it is written as one and not too large. -/
def integer? (numeral : Numeral) : Option Int :=
  if numeral.fraction.isNone ∧ numeral.exponent.isNone then
    integerOf? numeral.negative (naturalOf numeral.integer)
  else none

def value (numeral : Numeral) : Except Fault Number :=
  match numeral.integer? with
  | some integer => .ok (.integer integer)
  | none =>
      match numeral.decimals.toReal? with
      | some real => .ok (.real { real with negative := numeral.negative })
      | none => .error .numberOutOfRange

end Numeral

def readMinus : List Char → Bool × List Char
  | '-' :: chars => (true, chars)
  | chars => (false, chars)

def readNumeral (chars : List Char) : Except Fault (Numeral × List Char) := do
  let (negative, unsigned) := readMinus chars
  let (integer, rest) ← readInteger unsigned
  let (fraction, rest) ← readFraction rest
  let (exponent, rest) ← readExponent rest
  pure ({ negative, integer, fraction, exponent }, rest)

def readNumber (chars : List Char) : Except Fault (Number × List Char) := do
  let (numeral, rest) ← readNumeral chars
  let value ← numeral.value
  pure (value, rest)

def skipNumber (chars : List Char) : Except Fault (List Char) :=
  match readNumeral chars with
  | .ok (_, rest) => .ok rest
  | .error _ => .error .invalidNumber

theorem spanDigits_length (chars : List Char) :
    (spanDigits chars).1.length + (spanDigits chars).2.length = chars.length := by
  rw [spanDigits, ← List.length_append, List.takeWhile_append_dropWhile]

theorem readInteger_rest_length {chars digits rest : List Char}
    (done : readInteger chars = .ok (digits, rest)) : rest.length < chars.length := by
  have total := spanDigits_length chars
  unfold readInteger at done
  split at done
  · simp at done
  · simp at done
  · rename_i front behind notEmpty _ split
    simp only [Except.ok.injEq, Prod.mk.injEq] at done
    have nonempty : front.length ≠ 0 := fun zero =>
      notEmpty (List.eq_nil_of_length_eq_zero zero)
    rw [split] at total
    rw [← done.2]
    simp only at total
    omega

theorem readFraction_rest_length {chars rest : List Char} {fraction : Option (List Char)}
    (done : readFraction chars = .ok (fraction, rest)) :
    rest.length ≤ chars.length := by
  unfold readFraction at done
  split at done
  · rename_i others
    have total := spanDigits_length others
    split at done
    · simp at done
    · rename_i split
      simp only [Except.ok.injEq, Prod.mk.injEq] at done
      rw [split] at total
      rw [← done.2, List.length_cons]
      simp only at total
      omega
  · simp only [Except.ok.injEq, Prod.mk.injEq] at done
    exact Nat.le_of_eq (congrArg List.length done.2.symm)

theorem readSign_rest_length (chars : List Char) :
    (readSign chars).2.length ≤ chars.length := by
  unfold readSign
  split <;> simp

theorem readMinus_rest_length (chars : List Char) :
    (readMinus chars).2.length ≤ chars.length := by
  unfold readMinus
  split <;> simp

theorem readExponent_rest_length {chars rest : List Char} {exponent : Option Int}
    (done : readExponent chars = .ok (exponent, rest)) :
    rest.length ≤ chars.length := by
  unfold readExponent at done
  split at done
  · simp only [Except.ok.injEq, Prod.mk.injEq] at done
    exact Nat.le_of_eq (congrArg List.length done.2.symm)
  · rename_i char behind
    split at done
    · have unsigned := readSign_rest_length behind
      have total := spanDigits_length (readSign behind).2
      simp only at done
      split at done
      · simp at done
      · rename_i split
        simp only [Except.ok.injEq, Prod.mk.injEq] at done
        rw [split] at total
        rw [← done.2, List.length_cons]
        simp only at total
        omega
    · simp only [Except.ok.injEq, Prod.mk.injEq] at done
      exact Nat.le_of_eq (congrArg List.length done.2.symm)

theorem readNumeral_rest_length {chars rest : List Char} {numeral : Numeral}
    (done : readNumeral chars = .ok (numeral, rest)) : rest.length < chars.length := by
  have unsigned := readMinus_rest_length chars
  simp only [readNumeral, bind, Except.bind, pure, Except.pure] at done
  split at done
  · simp at done
  · rename_i integerRead
    have first := readInteger_rest_length integerRead
    split at done
    · simp at done
    · rename_i fractionRead
      have second := readFraction_rest_length fractionRead
      split at done
      · simp at done
      · rename_i exponentRead
        have third := readExponent_rest_length exponentRead
        simp only [Except.ok.injEq, Prod.mk.injEq] at done
        rw [← done.2]
        omega

theorem readNumber_rest_length {chars rest : List Char} {number : Number}
    (done : readNumber chars = .ok (number, rest)) : rest.length < chars.length := by
  simp only [readNumber, bind, Except.bind, pure, Except.pure] at done
  split at done
  · simp at done
  · rename_i numeralRead
    have shorter := readNumeral_rest_length numeralRead
    split at done
    · simp at done
    · simp only [Except.ok.injEq, Prod.mk.injEq] at done
      rw [← done.2]
      exact shorter

theorem skipNumber_rest_length {chars rest : List Char}
    (done : skipNumber chars = .ok rest) : rest.length < chars.length := by
  unfold skipNumber at done
  split at done
  · rename_i numeralRead
    simp only [Except.ok.injEq] at done
    rw [← done]
    exact readNumeral_rest_length numeralRead
  · simp at done

end Json

end SeriesCodec
