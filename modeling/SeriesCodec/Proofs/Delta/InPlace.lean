import Mathlib.Data.List.Induction
import SeriesCodec.Delta
import SeriesCodec.Proofs.Access

/-!
# Differences and running sums in place

A series lies in cells, and the cells from the last one down to the second one
are replaced by their difference from the cell before, which still holds an
element when it is read.  The other way the cells from the second one on are
replaced in order by their sum with the cell before, which holds an element by
then.  So at any time the cells on one side of the position hold differences and
the others hold elements of the series.
-/

namespace SeriesCodec

namespace Delta

variable {width : ElementWidth}

/-- The last difference is the one between the last two elements. -/
theorem differences_concat (previous element : Word width) (elements : List (Word width)) :
    differences previous (elements ++ [element]) =
      differences previous elements ++ [element - elements.getLastD previous] := by
  induction elements generalizing previous with
  | nil => rfl
  | cons first rest ih =>
      rw [List.cons_append, differences, differences, ih, List.getLastD_cons, List.cons_append]

namespace InPlace

/-- Subtracts from each of the cells up to index `steps`, last one first, the cell before it. -/
def subtract? : (steps : Nat) → (cells : List (Word width)) → Option (List (Word width))
  | 0, cells => some cells
  | steps + 1, cells => do
      let before ← Access.sub? (steps + 1) 1
      let element ← cells[steps + 1]?
      let previous ← cells[before]?
      let changed ← Access.set? cells (steps + 1) (element - previous)
      subtract? steps changed

def encode? (enabled : Bool) (elements : List (Word width)) : Option (List (Word width)) :=
  if enabled then do
    let cells ← subtract? (elements.length - 1) elements
    pure (cells.map ZigZag.encode)
  else some elements

/-- Adds to each of `steps` cells, from `index` on, the cell before it. -/
def accumulate? : (steps index : Nat) → (cells : List (Word width)) → Option (List (Word width))
  | 0, _, cells => some cells
  | steps + 1, index, cells => do
      let before ← Access.sub? index 1
      let difference ← cells[index]?
      let element ← cells[before]?
      let changed ← Access.set? cells index (difference + element)
      accumulate? steps (index + 1) changed

def decode? (enabled : Bool) (words : List (Word width)) : Option (List (Word width)) :=
  if enabled then
    let cells := words.map ZigZag.decode
    accumulate? (cells.length - 1) 1 cells
  else some words

/-! ## Differences -/

theorem getElem?_last (first : Word width) (elements done : List (Word width)) :
    (first :: elements ++ done)[elements.length]? = some (elements.getLastD first) := by
  induction elements generalizing first with
  | nil => rfl
  | cons element rest ih =>
      rw [List.cons_append, List.length_cons, List.getElem?_cons_succ, ih, List.getLastD_cons]

/-- The cells that are replaced are not read again. -/
theorem subtract?_eq (first : Word width) (elements done : List (Word width)) :
    subtract? elements.length (first :: elements ++ done) =
      some (first :: differences first elements ++ done) := by
  induction elements using List.reverseRecOn generalizing done with
  | nil => rfl
  | append_singleton elements element ih =>
      have before := Access.sub?_of_le (Nat.le_add_left 1 elements.length)
      have cell := Access.getElem?_behind (first :: elements) done element
      have earlier := getElem?_last first elements (element :: done)
      have set := Access.set?_append (first :: elements) done element
        (element - elements.getLastD first)
      have later := ih ((element - elements.getLastD first) :: done)
      rw [List.length_cons] at cell set
      rw [List.length_append, List.length_singleton, subtract?, before, Nat.add_sub_cancel,
        ← List.cons_append, List.append_assoc, List.singleton_append]
      simp only [Option.bind_eq_bind, Option.bind_some, cell, earlier, set, later]
      rw [differences_concat, ← List.cons_append, List.append_assoc, List.singleton_append]

theorem encode?_eq (enabled : Bool) (elements : List (Word width)) :
    encode? enabled elements = some (encode enabled elements) := by
  cases enabled with
  | false => rfl
  | true =>
      rw [encode?, encode, if_pos rfl, if_pos rfl]
      cases elements with
      | nil => rfl
      | cons element elements =>
          have subtracted := subtract?_eq element elements []
          rw [List.append_nil, List.append_nil] at subtracted
          have first : element - 0 = element := BitVec.sub_zero element
          rw [List.length_cons, Nat.add_sub_cancel, subtracted, differences, first]
          rfl

/-! ## Running sums -/

/-- Of the elements that are done only the last one is read again. -/
theorem accumulate?_eq (elements differences : List (Word width)) (last : Word width) :
    accumulate? differences.length (elements.length + 1) (elements ++ last :: differences) =
      some (elements ++ last :: sums last differences) := by
  induction differences generalizing elements last with
  | nil => rfl
  | cons difference differences ih =>
      have before := Access.sub?_of_le (Nat.le_add_left 1 elements.length)
      have earlier := Access.getElem?_behind elements (difference :: differences) last
      have cell := Access.getElem?_behind (elements ++ [last]) differences difference
      have set := Access.set?_append (elements ++ [last]) differences difference (difference + last)
      have later := ih (elements ++ [last]) (difference + last)
      rw [List.length_append, List.length_singleton] at cell set later
      simp only [List.append_assoc, List.singleton_append] at cell set later
      rw [List.length_cons, accumulate?, before, Nat.add_sub_cancel]
      simp only [Option.bind_eq_bind, Option.bind_some, cell, earlier, set, later]
      rw [sums, BitVec.add_comm]

theorem decode?_eq (enabled : Bool) (words : List (Word width)) :
    decode? enabled words = some (decode enabled words) := by
  cases enabled with
  | false => rfl
  | true =>
      rw [decode?, decode, if_pos rfl, if_pos rfl]
      cases words with
      | nil => rfl
      | cons word words =>
          have summed := accumulate?_eq [] (words.map ZigZag.decode) (ZigZag.decode word)
          rw [List.nil_append, List.nil_append] at summed
          have first : 0 + ZigZag.decode word = ZigZag.decode word := BitVec.zero_add _
          rw [List.map_cons, sums, first]
          exact summed

end InPlace

end Delta

end SeriesCodec
