import SeriesCodec.Size

/-!
# Sizes in machine words

A machine counts sizes in words that wrap.  It sees that a sum has wrapped when the sum
is below one of its parts, and that a product would wrap when one factor is more than
the greatest size divided by the other.  It then takes the greatest size instead.  To
round a quotient up it adds one, and for that there is no such way out: the next size has
to be a size.
-/

namespace SeriesCodec

namespace Size

/-- What remains takes up one more. -/
theorem ceilDiv_eq_div (number : Nat) {divisor : Nat} (positive : 0 < divisor) :
    ceilDiv number divisor = number / divisor + if number % divisor = 0 then 0 else 1 := by
  have parts := Nat.div_add_mod number divisor
  have small := Nat.mod_lt number positive
  have behind : number + divisor - 1 =
      divisor * (number / divisor) + (number % divisor + divisor - 1) := by omega
  rw [ceilDiv, behind, Nat.mul_add_div positive]
  congr 1
  split
  next none => exact Nat.div_eq_of_lt (by omega)
  next some =>
    have beyond : number % divisor + divisor - 1 = number % divisor - 1 + divisor := by omega
    rw [beyond, Nat.add_div_right _ positive, Nat.div_eq_of_lt (by omega)]

namespace Counter

def full : UInt64 := UInt64.ofNat greatest

/-- The sum, or the greatest size if the sum has wrapped. -/
def add (left right : UInt64) : UInt64 :=
  let sum := left + right
  if sum < left then full else sum

def mul (left right : UInt64) : UInt64 :=
  if 0 < right ∧ full / right < left then full else left * right

def next? (number : UInt64) : Option UInt64 :=
  if number = full then none else some (number + 1)

def ceilDiv? (number divisor : UInt64) : Option UInt64 :=
  let quotient := number / divisor
  if number % divisor = 0 then some quotient else next? quotient

theorem full_toNat : full.toNat = greatest := rfl

theorem toNat_le_greatest (number : UInt64) : number.toNat ≤ greatest :=
  Nat.le_pred_of_lt number.toNat_lt

theorem ofNat_toNat {size : Nat} (counted : size ≤ greatest) :
    (UInt64.ofNat size).toNat = size :=
  UInt64.toNat_ofNat_of_lt' (Nat.lt_of_le_of_lt counted (by decide))

theorem add_toNat (left right : UInt64) :
    (add left right).toNat = Size.add left.toNat right.toNat := by
  have leftLe := toNat_le_greatest left
  have rightLe := toNat_le_greatest right
  have last : greatest + 1 = 2 ^ 64 := by decide
  rw [add, Size.add]
  by_cases wraps : greatest < left.toNat + right.toNat
  · have sum : (left + right).toNat = left.toNat + right.toNat - 2 ^ 64 := by
      rw [UInt64.toNat_add, Nat.mod_eq_sub_mod (by omega), Nat.mod_eq_of_lt (by omega)]
    have below : left + right < left := by
      rw [UInt64.lt_iff_toNat_lt, sum]
      omega
    rw [if_pos below, full_toNat, Nat.min_eq_right (Nat.le_of_lt wraps)]
  · have sum : (left + right).toNat = left.toNat + right.toNat := by
      rw [UInt64.toNat_add, Nat.mod_eq_of_lt (by omega)]
    have above : ¬ left + right < left := by
      rw [UInt64.lt_iff_toNat_lt, sum]
      omega
    rw [if_neg above, sum, Nat.min_eq_left (Nat.le_of_not_lt wraps)]

theorem mul_toNat (left right : UInt64) :
    (mul left right).toNat = Size.mul left.toNat right.toNat := by
  have wraps_iff : (0 < right ∧ full / right < left) ↔ greatest < left.toNat * right.toNat := by
    rw [UInt64.lt_iff_toNat_lt, UInt64.lt_iff_toNat_lt, UInt64.toNat_div, full_toNat]
    constructor
    · rintro ⟨positive, exceeds⟩
      exact (Nat.div_lt_iff_lt_mul positive).mp exceeds
    · intro exceeds
      have positive : 0 < right.toNat := Nat.pos_of_mul_pos_left (Nat.zero_lt_of_lt exceeds)
      exact ⟨positive, (Nat.div_lt_iff_lt_mul positive).mpr exceeds⟩
  rw [mul, Size.mul]
  by_cases wraps : greatest < left.toNat * right.toNat
  · rw [if_pos (wraps_iff.mpr wraps), full_toNat, Nat.min_eq_right (Nat.le_of_lt wraps)]
  · have whole := Nat.le_of_not_lt wraps
    rw [if_neg fun exceeds => wraps (wraps_iff.mp exceeds), Nat.min_eq_left whole,
      UInt64.toNat_mul, Nat.mod_eq_of_lt (Nat.lt_of_le_of_lt whole (by decide))]

theorem next?_eq_some {number : UInt64} (inside : number.toNat < greatest) :
    ∃ next, next? number = some next ∧ next.toNat = number.toNat + 1 := by
  have different : number ≠ full := by
    rintro rfl
    exact Nat.lt_irrefl _ inside
  have small : number.toNat + 1 < 2 ^ 64 := Nat.lt_of_le_of_lt inside (by decide)
  refine ⟨_, if_neg different, ?_⟩
  rw [UInt64.toNat_add]
  exact Nat.mod_eq_of_lt small

/-- A quotient that is rounded up is no more than the number, so there is a size next to it. -/
theorem ceilDiv?_eq_some (number : UInt64) {divisor : UInt64} (positive : 0 < divisor.toNat) :
    ∃ quotient, ceilDiv? number divisor = some quotient ∧
      quotient.toNat = Size.ceilDiv number.toNat divisor.toNat := by
  have rounded := Size.ceilDiv_eq_div number.toNat positive
  by_cases exact : number % divisor = 0
  · have none : number.toNat % divisor.toNat = 0 := by
      rw [← UInt64.toNat_mod, exact]
      rfl
    rw [if_pos none] at rounded
    exact ⟨_, if_pos exact, by rw [UInt64.toNat_div, rounded, Nat.add_zero]⟩
  · have some : number.toNat % divisor.toNat ≠ 0 := by
      rw [← UInt64.toNat_mod]
      exact fun none => exact (UInt64.toNat_inj.mp none)
    rw [if_neg some] at rounded
    have counted : Size.ceilDiv number.toNat divisor.toNat ≤ greatest :=
      Nat.le_trans ((Size.ceilDiv_le_iff positive).mpr (Nat.le_mul_of_pos_right _ positive))
        (toNat_le_greatest number)
    rw [rounded, ← UInt64.toNat_div] at counted
    obtain ⟨next, follows, value⟩ := next?_eq_some counted
    exact ⟨next, (if_neg exact).trans follows, by rw [value, UInt64.toNat_div, rounded]⟩

end Counter

end Size

end SeriesCodec
