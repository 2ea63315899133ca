import SeriesCodec.ElementWidth
import SeriesCodec.LittleEndian

/-!
# Words

An element of a series is a bit pattern of the series' width.  Signed and
unsigned readings of an element share the pattern, so one type serves both.
A word is stored with all its bytes in a series and with its low bytes only in
a packed stream.
-/

namespace SeriesCodec

/-- One element: a bit pattern as wide as the series demands. -/
abbrev Word (width : ElementWidth) := BitVec width.bits

namespace Word

variable {width : ElementWidth}

def toBytes (word : Word width) : Bytes :=
  LittleEndian.encode width.bytes word.toNat

/-- The word whose low bytes are `bytes` and whose other bytes are zero. -/
def ofBytes (bytes : Bytes) : Word width :=
  BitVec.ofNat width.bits (LittleEndian.value bytes)

/-- The least number of low bytes that determines the word, at least one. -/
def significantBytes (word : Word width) : Nat :=
  LittleEndian.minimalLength word.toNat

def lowBytes (word : Word width) (length : Nat) : Bytes :=
  LittleEndian.encode length word.toNat

def lowBytes? (word : Word width) (length : Nat) : Option Bytes :=
  if length ≤ width.bytes then some (lowBytes word length) else none

def append? (buffer : Bytes) (word : Word width) (length : Nat) : Option Bytes :=
  (lowBytes? word length).map (buffer ++ ·)

def ofBytes? (bytes : Bytes) : Option (Word width) :=
  if bytes.length ≤ width.bytes then some (ofBytes bytes) else none

@[simp] theorem toBytes_length (word : Word width) :
    (toBytes word).length = width.bytes := by
  simp [toBytes]

@[simp] theorem lowBytes_length (word : Word width) (length : Nat) :
    (lowBytes word length).length = length := by
  simp [lowBytes]

theorem append?_of_le (buffer : Bytes) (word : Word width) {length : Nat}
    (fits : length ≤ width.bytes) :
    append? buffer word length = some (buffer ++ lowBytes word length) := by
  rw [append?, lowBytes?, if_pos fits]
  rfl

theorem ofBytes?_of_le {bytes : Bytes} (fits : bytes.length ≤ width.bytes) :
    ofBytes? bytes = some (ofBytes bytes : Word width) :=
  if_pos fits

/-- The words of a width are the numbers that its bytes can hold. -/
theorem two_pow_bits (width : ElementWidth) :
    Nat.pow 2 width.bits = LittleEndian.bound width.bytes := by
  cases width <;> rfl

theorem toNat_lt (word : Word width) :
    word.toNat < LittleEndian.bound width.bytes := by
  rw [← two_pow_bits]
  exact word.isLt

theorem ofBytes_toNat {bytes : Bytes} (fits : bytes.length ≤ width.bytes) :
    (ofBytes bytes : Word width).toNat = LittleEndian.value bytes := by
  have small := LittleEndian.value_lt bytes
  have room := LittleEndian.bound_mono fits
  have whole := Nat.lt_of_lt_of_le small room
  rw [← two_pow_bits] at whole
  rw [ofBytes, BitVec.toNat_ofNat]
  exact Nat.mod_eq_of_lt whole

theorem ofBytes_toBytes (word : Word width) : ofBytes (toBytes word) = word := by
  apply BitVec.eq_of_toNat_eq
  rw [ofBytes_toNat (by simp), toBytes,
    LittleEndian.value_encode_of_lt (toNat_lt word)]

theorem toBytes_ofBytes {bytes : Bytes} (full : bytes.length = width.bytes) :
    toBytes (ofBytes bytes : Word width) = bytes := by
  rw [toBytes, ofBytes_toNat (Nat.le_of_eq full), ← full,
    LittleEndian.encode_value]

theorem significantBytes_pos (word : Word width) : 0 < significantBytes word :=
  LittleEndian.minimalLength_pos _

theorem significantBytes_le (word : Word width) :
    significantBytes word ≤ width.bytes :=
  (LittleEndian.minimalLength_le_iff width.bytes_pos).mpr (toNat_lt word)

theorem ofBytes_lowBytes {word : Word width} {length : Nat}
    (enough : significantBytes word ≤ length) (fits : length ≤ width.bytes) :
    ofBytes (lowBytes word length) = word := by
  have positive : 0 < length :=
    Nat.lt_of_lt_of_le (significantBytes_pos word) enough
  apply BitVec.eq_of_toNat_eq
  rw [ofBytes_toNat (by simpa using fits), lowBytes,
    LittleEndian.value_encode_of_lt
      ((LittleEndian.minimalLength_le_iff positive).mp enough)]

end Word

end SeriesCodec
