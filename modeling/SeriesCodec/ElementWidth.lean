/-!
# Element widths

A series holds integers of one width: one, two, four or eight bytes.  The
width also fixes how many elements share one key of a packed stream.
-/

namespace SeriesCodec

inductive ElementWidth where
  | one
  | two
  | four
  | eight
  deriving DecidableEq, Repr

namespace ElementWidth

def bytes : ElementWidth → Nat
  | one => 1
  | two => 2
  | four => 4
  | eight => 8

def bits (width : ElementWidth) : Nat := 8 * width.bytes

/-- The bits that one element occupies in a key. -/
def fieldBits : ElementWidth → Nat
  | eight => 4
  | _ => 2

/-- The number of elements that one key describes. -/
def slots (width : ElementWidth) : Nat := 8 / width.fieldBits

def ofUInt32? (count : UInt32) : Option ElementWidth :=
  if count = 1 then some one
  else if count = 2 then some two
  else if count = 4 then some four
  else if count = 8 then some eight
  else none

def toUInt32 (width : ElementWidth) : UInt32 := UInt32.ofNat width.bytes

def describe (width : ElementWidth) : String :=
  toString width.bytes ++ "-byte"

def unsupportedMessage (count : UInt32) : String :=
  "Unsupported element width: " ++ toString count.toNat ++
    " (expected 1, 2, 4 or 8)"

theorem bytes_pos (width : ElementWidth) : 0 < width.bytes := by
  cases width <;> decide

theorem bits_pos (width : ElementWidth) : 0 < width.bits := by
  cases width <;> decide

theorem slots_pos (width : ElementWidth) : 0 < width.slots := by
  cases width <;> decide

/-- The fields of one key fill it exactly. -/
theorem slots_mul_fieldBits (width : ElementWidth) :
    width.slots * width.fieldBits = 8 := by
  cases width <;> rfl

/-- The field of every slot begins inside the key. -/
theorem slot_mul_fieldBits_lt {width : ElementWidth} {slot : Nat} (inside : slot < width.slots) :
    slot * width.fieldBits < 8 := by
  rw [← width.slots_mul_fieldBits]
  exact Nat.mul_lt_mul_of_pos_right inside (by cases width <;> decide)

theorem ofUInt32?_toUInt32 (width : ElementWidth) :
    ofUInt32? width.toUInt32 = some width := by
  cases width <;> decide

theorem ofUInt32?_eq_some_iff {count : UInt32} {width : ElementWidth} :
    ofUInt32? count = some width ↔ count = width.toUInt32 := by
  constructor
  · unfold ofUInt32?
    repeat' split
    all_goals simp_all
    all_goals rintro rfl
    all_goals rfl
  · rintro rfl
    exact ofUInt32?_toUInt32 width

end ElementWidth

end SeriesCodec
