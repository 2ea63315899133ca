/-!
# Byte strings

Everything the codec reads or writes is a finite list of octets.  A caller's
destination is such a list too: an answer goes to its front, and the octets
behind the answer keep their values.
-/

namespace SeriesCodec

abbrev Bytes := List UInt8

namespace Bytes

def splitExact? (count : Nat) (bytes : Bytes) : Option (Bytes × Bytes) :=
  if count ≤ bytes.length then some (bytes.take count, bytes.drop count)
  else none

theorem splitExact?_eq_some_iff
    {count : Nat} {bytes front rest : Bytes} :
    splitExact? count bytes = some (front, rest) ↔
      bytes = front ++ rest ∧ front.length = count := by
  constructor
  · intro split
    unfold splitExact? at split
    by_cases enough : count ≤ bytes.length
    · rw [if_pos enough] at split
      simp only [Option.some.injEq, Prod.mk.injEq] at split
      rw [← split.1, ← split.2]
      exact ⟨(List.take_append_drop count bytes).symm,
        List.length_take_of_le enough⟩
    · simp [if_neg enough] at split
  · rintro ⟨rfl, rfl⟩
    simp [splitExact?]

theorem splitExact?_eq_none_iff {count : Nat} {bytes : Bytes} :
    splitExact? count bytes = none ↔ bytes.length < count := by
  unfold splitExact?
  split <;> simp <;> omega

theorem splitExact?_append (front rest : Bytes) :
    splitExact? front.length (front ++ rest) = some (front, rest) :=
  splitExact?_eq_some_iff.mpr ⟨rfl, rfl⟩

theorem splitExact?_rest_length
    {count : Nat} {bytes front rest : Bytes}
    (split : splitExact? count bytes = some (front, rest)) (positive : 0 < count) :
    rest.length < bytes.length := by
  have parts := splitExact?_eq_some_iff.mp split
  rw [parts.1, List.length_append, parts.2]
  omega

/-- The destination after `output` has been written to its front. -/
def overwrite (destination output : Bytes) : Bytes :=
  output ++ destination.drop output.length

theorem overwrite_length
    {destination output : Bytes}
    (fits : output.length ≤ destination.length) :
    (overwrite destination output).length = destination.length := by
  simp only [overwrite, List.length_append, List.length_drop]
  omega

theorem overwrite_take (destination output : Bytes) :
    (overwrite destination output).take output.length = output := by
  simp [overwrite]

end Bytes

end SeriesCodec
