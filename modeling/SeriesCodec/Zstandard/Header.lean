import SeriesCodec.LittleEndian

/-!
# Frame headers

A Zstandard frame starts with a magic number and a descriptor byte.  The
descriptor says which fields follow: a window descriptor, a dictionary
identifier and the size of the content.
-/

namespace SeriesCodec

namespace Zstandard

inductive Fault where
  | sourceSize
  | unknownFrame
  | unsupportedParameter
  | windowTooLarge
  | corrupted
  | destinationTooSmall
  deriving DecidableEq, Repr

namespace Fault

def message : Fault → String
  | sourceSize => "Src size is incorrect"
  | unknownFrame => "Unknown frame descriptor"
  | unsupportedParameter => "Unsupported frame parameter"
  | windowTooLarge => "Frame requires too much memory for decoding"
  | corrupted => "Data corruption detected"
  | destinationTooSmall => "Destination buffer is too small"

end Fault

def magic : Bytes := [0x28, 0xb5, 0x2f, 0xfd]

/-- The size up to which a writer fills a block. -/
def greatestBlock : Nat := 131072

def blockHeaderSize : Nat := 3

/-- The size below which nothing is taken for the start of a frame. -/
def leastFrame : Nat := 5

def greatestWindowLog : Nat := 31

structure Descriptor where
  /-- The frame is one segment, and no window descriptor follows. -/
  singleSegment : Bool
  reserved : Bool
  /-- The size of the dictionary identifier. -/
  dictionaryField : Nat
  /-- The size of the content size field. -/
  contentField : Nat
  deriving DecidableEq, Repr

namespace Descriptor

def ofByte (byte : UInt8) : Descriptor :=
  let singleSegment := byte.toNat.testBit 5
  { singleSegment
    reserved := byte.toNat.testBit 3
    dictionaryField := match byte.toNat % 4 with
      | 0 => 0
      | 1 => 1
      | 2 => 2
      | _ => 4
    contentField := match byte.toNat / 64 with
      | 0 => if singleSegment then 1 else 0
      | 1 => 2
      | 2 => 4
      | _ => 8 }

def dictionaryOffset (descriptor : Descriptor) : Nat :=
  magic.length + 1 + if descriptor.singleSegment then 0 else 1

def contentOffset (descriptor : Descriptor) : Nat :=
  descriptor.dictionaryOffset + descriptor.dictionaryField

def headerSize (descriptor : Descriptor) : Nat :=
  descriptor.contentOffset + descriptor.contentField

end Descriptor

namespace Header

/--
The content size in a content size field, if the field is there.  The field of
two bytes does not count the first 256 sizes, and eight bytes that are all ones
stand for a size that is not known.
-/
def contentSizeOf (field : Bytes) : Option Nat :=
  if field.length = 0 then none
  else if field.length = 2 then some (LittleEndian.value field + 256)
  else if LittleEndian.value field = UInt64.size - 1 then none
  else some (LittleEndian.value field)

/-- The logarithm of the window size in a window descriptor, rounded down. -/
def windowLog (descriptor : UInt8) : Nat := 10 + descriptor.toNat / 8

def contentSize (descriptor : Descriptor) (input : Bytes) : Option Nat :=
  contentSizeOf ((input.drop descriptor.contentOffset).take descriptor.contentField)

/--
The content size recorded in the header at the front of `input`, if there is
one, and the bytes behind the header.  The size of the header is settled before
the magic number is looked at.
-/
def read (input : Bytes) : Except Fault (Option Nat × Bytes) :=
  let descriptor := Descriptor.ofByte (input.getD magic.length 0)
  if input.length < leastFrame + 4 then .error .sourceSize
  else if input.length < descriptor.headerSize + blockHeaderSize then
    .error .sourceSize
  else if input.take magic.length ≠ magic then .error .unknownFrame
  else if descriptor.reserved then .error .unsupportedParameter
  else if !descriptor.singleSegment &&
      greatestWindowLog < windowLog (input.getD (magic.length + 1) 0) then
    .error .windowTooLarge
  else .ok (contentSize descriptor input, input.drop descriptor.headerSize)

/-- The header of a single segment of the given size, in its shortest form. -/
def write (size : Nat) : Bytes :=
  magic ++
    if size < 256 then 0x20 :: LittleEndian.encode 1 size
    else if size < 65536 + 256 then 0x60 :: LittleEndian.encode 2 (size - 256)
    else if size < UInt32.size then 0xa0 :: LittleEndian.encode 4 size
    else 0xe0 :: LittleEndian.encode 8 size

theorem read_rest_length {input rest : Bytes} {size : Option Nat}
    (done : read input = .ok (size, rest)) : rest.length < input.length := by
  simp only [read] at done
  split at done
  · simp at done
  · repeat' split at done
    all_goals simp only [reduceCtorEq, Except.ok.injEq, Prod.mk.injEq] at done
    rw [← done.2, List.length_drop]
    simp only [Descriptor.headerSize, Descriptor.contentOffset,
      Descriptor.dictionaryOffset, magic, leastFrame, List.length_cons] at *
    omega

end Header

end Zstandard

end SeriesCodec
