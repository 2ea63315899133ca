import Mathlib.Algebra.Group.Nat.Defs
import SeriesCodec.GroupVarint.Stream
import SeriesCodec.Proofs.Access

/-!
# A reader with a position

The reader walks over the data with a position and looks at keys through masks.
One mask has the bits that only an overlong length can set, another the bits of
the slots in use.  Each group is checked in this order before any of its values
is read, hence every slice is inside the data and fits a word.
-/

namespace SeriesCodec

namespace GroupVarint

namespace Cursor

variable {width : ElementWidth}

/-! ## Keys through masks -/

def slotMask (width : ElementWidth) : UInt8 := UInt8.ofNat (radix width - 1)

/-- The bits that only a length beyond the width can set. -/
def overlongMask (width : ElementWidth) : UInt8 :=
  (List.range width.slots).foldl (fun mask slot =>
    mask ||| (slotMask width &&& ~~~ UInt8.ofNat (width.bytes - 1)) <<<
      UInt8.ofNat (slot * width.fieldBits)) 0

/-- The bits of the first `present` slots, computed in two bytes. -/
def presentMask? (width : ElementWidth) (present : Nat) : Option UInt8 :=
  if present * width.fieldBits < 16 then
    some (UInt8.ofNat (1 <<< (present * width.fieldBits) - 1))
  else none

def trailingZeros (byte : UInt8) : Nat :=
  ((List.range 8).find? fun place => byte.toNat.testBit place).getD 8

def lengthAt? (width : ElementWidth) (key : UInt8) (slot : Nat) : Option Nat := do
  let field ← Access.shiftRight? key (slot * width.fieldBits)
  pure ((field &&& slotMask width).toNat + 1)

def overlong? (width : ElementWidth) (key : UInt8) (present : Nat) : Option (Option Nat) := do
  let mask ← presentMask? width present
  let bad := key &&& overlongMask width &&& mask
  if bad = 0 then pure none
  else do
    let length ← lengthAt? width key (trailingZeros bad / width.fieldBits)
    pure (some length)

def checkKey (width : ElementWidth) (key : UInt8) (present : Nat) : Walk Fault Unit := do
  let found ← (overlong? width key present : Walk Fault (Option Nat))
  match found with
  | none => pure ()
  | some length => throw (.overlong key length width.bytes)

def groupLength? (width : ElementWidth) (key : UInt8) : (slots : List Nat) → Option Nat
  | [] => some 0
  | slot :: slots => do
      let length ← lengthAt? width key slot
      let others ← groupLength? width key slots
      pure (length + others)

/-! ## Data by position -/

/-- The word with the given low bytes, at least one and at most as many as it has. -/
def readWord? (width : ElementWidth) (bytes : Bytes) : Option (Word width) :=
  if 0 < bytes.length then Word.ofBytes? bytes else none

def readSlots? (width : ElementWidth) (key : UInt8) (data : Bytes) :
    (slots : List Nat) → (position : Nat) → Option (List (Word width) × Nat)
  | [], position => some ([], position)
  | slot :: slots, position => do
      let length ← lengthAt? width key slot
      let bytes ← Access.slice? data position (position + length)
      let word ← readWord? width bytes
      let (words, behind) ← readSlots? width key data slots (position + length)
      pure (word :: words, behind)

def readGroups (width : ElementWidth) (keyLength : Nat) (data : Bytes) :
    (keys : Bytes) → (remaining position : Nat) → Walk Fault (List (Word width))
  | [], _, position =>
      if position = data.length then pure []
      else do
        let left ← (Access.sub? data.length position : Walk Fault Nat)
        throw (.trailing left)
  | key :: keys, remaining, position => do
      let present := min remaining width.slots
      checkKey width key present
      let needed ← (groupLength? width key (List.range present) : Walk Fault Nat)
      if data.length < position + needed then do
        let available ← (Access.sub? data.length position : Walk Fault Nat)
        throw (.truncated (keyLength + position) needed available)
      else do
        let (words, behind) ←
          (readSlots? width key data (List.range present) position :
            Walk Fault (List (Word width) × Nat))
        let left ← (Access.sub? remaining present : Walk Fault Nat)
        let others ← readGroups width keyLength data keys left behind
        pure (words ++ others)

def read (width : ElementWidth) (stream : Bytes) (count : Nat) :
    Walk Fault (List (Word width)) := do
  let keyLength := keyCount width count
  if stream.length < keyLength then throw (.truncated 0 keyLength stream.length)
  else do
    let keys ← (Access.slice? stream 0 keyLength : Walk Fault Bytes)
    let data ← (Access.slice? stream keyLength stream.length : Walk Fault Bytes)
    readGroups width keyLength data keys count 0

/-! ## The masks agree with the recorded lengths -/

theorem slotMask_toNat (width : ElementWidth) :
    (slotMask width).toNat = 2 ^ width.fieldBits - 1 := by
  cases width <;> rfl

theorem lengthAt?_eq {slot : Nat} (inside : slot < width.slots) (key : UInt8) :
    lengthAt? width key slot = some (lengthAt width key slot) := by
  have places := ElementWidth.slot_mul_fieldBits_lt inside
  have small : key.toNat >>> (slot * width.fieldBits) < 256 :=
    Nat.lt_of_le_of_lt (Nat.shiftRight_le _ _) key.toNat_lt
  have field : (UInt8.ofNat (key.toNat >>> (slot * width.fieldBits)) &&& slotMask width).toNat =
      key.toNat >>> (width.fieldBits * slot) % radix width := by
    rw [UInt8.toNat_and, slotMask_toNat, UInt8.toNat_ofNat', Nat.mod_eq_of_lt small,
      Nat.and_two_pow_sub_one_eq_mod, Nat.mul_comm, radix, Nat.one_shiftLeft]
  rw [lengthAt?, Access.shiftRight?, if_pos places, lengthAt, ← field]
  rfl

theorem overlong?_eq {present : Nat} (few : present ≤ width.slots) (key : UInt8) :
    overlong? width key present =
      some ((lengthsOf width key present).find? fun length => width.bytes < length) := by
  have all : ∀ number, number < 256 → ∀ present, present < width.slots + 1 →
      overlong? width (UInt8.ofNat number) present =
        some ((lengthsOf width (UInt8.ofNat number) present).find?
          fun length => width.bytes < length) := by
    -- A key is a byte and has at most four slots, so every mask is computed.
    cases width <;> decide +kernel
  have found := all key.toNat key.toNat_lt present (Nat.lt_succ_of_le few)
  rwa [UInt8.ofNat_toNat] at found

theorem checkKey_follows {present : Nat} (few : present ≤ width.slots) (key : UInt8) :
    Walk.Follows (checkKey width key present)
      (match (lengthsOf width key present).find? fun length => width.bytes < length with
        | none => .ok ()
        | some length => .error (.overlong key length width.bytes)) := by
  apply Walk.follows_access (overlong?_eq few key)
  split
  · exact Walk.follows_pure ()
  · exact Walk.follows_throw _

theorem groupLength?_eq {slots : List Nat} (inside : ∀ slot ∈ slots, slot < width.slots)
    (key : UInt8) :
    groupLength? width key slots = some (totalLength (slots.map (lengthAt width key))) := by
  induction slots with
  | nil => rfl
  | cons slot slots ih =>
      have others := ih fun other member => inside other (List.mem_cons_of_mem _ member)
      rw [groupLength?, lengthAt?_eq (inside slot List.mem_cons_self), others]
      rfl

/-! ## Every slice is inside the data -/

theorem readWord?_eq {bytes : Bytes} (positive : 0 < bytes.length)
    (fits : bytes.length ≤ width.bytes) :
    readWord? width bytes = some (Word.ofBytes bytes) := by
  rw [readWord?, if_pos positive, Word.ofBytes?_of_le fits]

/-- A checked group is read without leaving the data. -/
theorem readSlots?_eq {key : UInt8} {data : Bytes} {slots : List Nat} {position : Nat}
    (inside : ∀ slot ∈ slots, slot < width.slots)
    (legal : ∀ slot ∈ slots, lengthAt width key slot ≤ width.bytes)
    (enough : position + totalLength (slots.map (lengthAt width key)) ≤ data.length) :
    readSlots? width key data slots position =
      some (readWords width (slots.map (lengthAt width key)) (data.drop position),
        position + totalLength (slots.map (lengthAt width key))) := by
  induction slots generalizing position with
  | nil => rfl
  | cons slot slots ih =>
      rw [List.map_cons, totalLength] at enough ⊢
      have here : position + lengthAt width key slot ≤ data.length := by omega
      have size : ((data.drop position).take (lengthAt width key slot)).length =
          lengthAt width key slot := by
        rw [List.length_take, List.length_drop]
        omega
      have word : readWord? width ((data.drop position).take (lengthAt width key slot)) =
          some (Word.ofBytes ((data.drop position).take (lengthAt width key slot))) :=
        readWord?_eq (by rw [size]; exact lengthAt_pos width key slot)
          (by rw [size]; exact legal slot List.mem_cons_self)
      have others := ih (fun other member => inside other (List.mem_cons_of_mem _ member))
        (fun other member => legal other (List.mem_cons_of_mem _ member))
        (show position + lengthAt width key slot + _ ≤ _ by omega)
      rw [readSlots?, lengthAt?_eq (inside slot List.mem_cons_self)]
      simp only [Option.bind_eq_bind, Option.bind_some, Access.slice?_of_le here, word, others]
      rw [readWords, List.drop_drop, Nat.add_assoc]
      rfl

/-- The position stays inside the data, and what is behind it is left to read. -/
theorem readGroups_follows (keyLength : Nat) {data : Bytes} (keys : Bytes) (remaining : Nat)
    {position : Nat} (inside : position ≤ data.length) :
    Walk.Follows (readGroups width keyLength data keys remaining position)
      (decodeGroups width keys remaining (keyLength + position) (data.drop position)) := by
  induction keys generalizing remaining position with
  | nil =>
      have size : (data.drop position).length = data.length - position := List.length_drop
      rw [readGroups, decodeGroups, size]
      by_cases finished : position = data.length
      · rw [if_pos finished, if_pos (by omega)]
        exact Walk.follows_pure []
      · rw [if_neg finished, if_neg (by omega)]
        exact Walk.follows_access (Access.sub?_of_le inside) (Walk.follows_throw _)
  | cons key keys ih =>
      have few : min remaining width.slots ≤ width.slots := Nat.min_le_right _ _
      have slots : ∀ slot ∈ List.range (min remaining width.slots), slot < width.slots := by
        intro slot member
        exact Nat.lt_of_lt_of_le (List.mem_range.mp member) few
      have checked := checkKey_follows few key
      have needed := groupLength?_eq slots key
      have size : (data.drop position).length = data.length - position := List.length_drop
      rw [readGroups]
      -- The reader looks for an overlong length, then for the bytes, and only then reads.
      cases found : (lengthsOf width key (min remaining width.slots)).find?
          fun length => width.bytes < length with
      | some length =>
          rw [found] at checked
          rw [decodeGroups_overlong keys _ found]
          exact checked.bind_error _
      | none =>
          rw [found] at checked
          apply checked.bind_ok
          apply Walk.follows_access needed
          rw [← lengthsOf]
          by_cases short : data.length < position +
              totalLength (lengthsOf width key (min remaining width.slots))
          · rw [if_pos short, decodeGroups_truncated keys _ found (by omega), size]
            exact Walk.follows_access (Access.sub?_of_le inside) (Walk.follows_throw _)
          · have legal : ∀ slot ∈ List.range (min remaining width.slots),
                lengthAt width key slot ≤ width.bytes := by
              intro slot member
              have fits := List.find?_eq_none.mp found _ (List.mem_map.mpr ⟨slot, member, rfl⟩)
              simpa using fits
            have enough := Nat.le_of_not_lt short
            have others := ih (remaining - min remaining width.slots) enough
            rw [if_neg short, decodeGroups_group keys _ found (by omega), Nat.add_assoc,
              List.drop_drop]
            apply Walk.follows_access (readSlots?_eq slots legal enough)
            apply Walk.follows_access (Access.sub?_of_le (Nat.min_le_left _ _))
            apply others.bind
            intro words _
            exact Walk.follows_pure _

/-- Reading by position never leaves a buffer, whatever the stream and the count are. -/
theorem read_follows (width : ElementWidth) (stream : Bytes) (count : Nat) :
    Walk.Follows (read width stream count) (decode width stream count) := by
  rw [read, decode]
  by_cases short : stream.length < keyCount width count
  · rw [if_pos short, Bytes.splitExact?_eq_none_iff.mpr short]
    exact Walk.follows_throw _
  · have enough := Nat.le_of_not_lt short
    rw [if_neg short, Bytes.splitExact?, if_pos enough]
    apply Walk.follows_access (Access.slice?_front enough)
    apply Walk.follows_access (Access.slice?_rest enough)
    have walked : Walk.Follows _ (decodeGroups width _ _ _ _) :=
      readGroups_follows (keyCount width count) (stream.take (keyCount width count)) count
        (Nat.zero_le (stream.drop (keyCount width count)).length)
    rw [List.drop_zero, Nat.add_zero] at walked
    dsimp only
    rw [List.length_take_of_le enough]
    exact walked

end Cursor

end GroupVarint

end SeriesCodec
