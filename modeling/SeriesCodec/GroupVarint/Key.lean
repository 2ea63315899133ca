import SeriesCodec.Size
import SeriesCodec.Word

/-!
# Keys of a packed stream

A key is one byte that describes a group of consecutive elements.  It is a
number in base `radix` whose digit `j` is the stored length of element
`j` of the group minus one.  Slots of a group that holds fewer elements have
the digit zero.
-/

namespace SeriesCodec

namespace GroupVarint

/-- The base of the number system in which a key is written. -/
def radix (width : ElementWidth) : Nat := 1 <<< width.fieldBits

def keyCount (width : ElementWidth) (count : Nat) : Nat :=
  Size.ceilDiv count width.slots

/--
The greatest size of a packed stream of `count` elements: every element at
full width, and one key for each group.
-/
def maxPackedSize (width : ElementWidth) (count : Nat) : Nat :=
  Size.add (Size.mul count width.bytes) (keyCount width count)

/-- The number whose digits are the given lengths, each minus one. -/
def keyValue (width : ElementWidth) : (lengths : List Nat) → Nat
  | [] => 0
  | length :: rest => length - 1 + radix width * keyValue width rest

def keyOf (width : ElementWidth) (lengths : List Nat) : UInt8 :=
  UInt8.ofNat (keyValue width lengths)

def lengthAt (width : ElementWidth) (key : UInt8) (slot : Nat) : Nat :=
  key.toNat >>> (width.fieldBits * slot) % radix width + 1

def lengthsOf (width : ElementWidth) (key : UInt8) (present : Nat) : List Nat :=
  (List.range present).map (lengthAt width key)

def totalLength : (lengths : List Nat) → Nat
  | [] => 0
  | length :: rest => length + totalLength rest

/-- The keys of consecutive groups, of all but perhaps the last one full. -/
def keysOf (width : ElementWidth) : (groups : Nat) → (lengths : List Nat) → Bytes
  | 0, _ => []
  | groups + 1, lengths =>
      keyOf width (lengths.take width.slots) ::
        keysOf width groups (lengths.drop width.slots)

theorem radix_pos (width : ElementWidth) : 0 < radix width := by
  cases width <;> decide

/-- A digit can name every length up to the width. -/
theorem bytes_le_radix (width : ElementWidth) : width.bytes ≤ radix width := by
  cases width <;> decide

@[simp] theorem lengthsOf_length (width : ElementWidth) (key : UInt8) (present : Nat) :
    (lengthsOf width key present).length = present := by
  simp [lengthsOf]

@[simp] theorem keysOf_length (width : ElementWidth) (groups : Nat) (lengths : List Nat) :
    (keysOf width groups lengths).length = groups := by
  induction groups generalizing lengths with
  | zero => rfl
  | succ groups ih => simp [keysOf, ih]

theorem totalLength_append (first second : List Nat) :
    totalLength (first ++ second) = totalLength first + totalLength second := by
  induction first with
  | nil => simp [totalLength]
  | cons length rest ih => simp [totalLength, ih, Nat.add_assoc]

theorem lengthAt_pos (width : ElementWidth) (key : UInt8) (slot : Nat) :
    0 < lengthAt width key slot :=
  Nat.succ_pos _

theorem lengthAt_le_radix (width : ElementWidth) (key : UInt8) (slot : Nat) :
    lengthAt width key slot ≤ radix width :=
  Nat.succ_le_of_lt (Nat.mod_lt _ (radix_pos width))

end GroupVarint

end SeriesCodec
