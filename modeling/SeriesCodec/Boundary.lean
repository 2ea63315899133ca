import SeriesCodec.Codec

/-!
# The foreign boundary

Callers outside the language give options and buffers that may be missing, and
they get back a 32-bit size.  The greatest size is reserved for failure: every
error is logged and becomes that size, and so does a size that cannot be told
from it.
-/

namespace SeriesCodec

namespace Boundary

def errorSize : UInt32 := 4294967295

def isError (size : UInt32) : Bool := size = errorSize

/-- Memory that a caller hands over, with a 32-bit length. -/
inductive Buffer where
  /-- A length without memory. -/
  | missing (length : UInt32)
  | holding (bytes : Bytes) (short : bytes.length < UInt32.size)

namespace Buffer

/-- The bytes of a buffer; missing memory is a fault unless it is empty. -/
def contents (fault : ConfigFault) : Buffer → Except CodecError Bytes
  | missing length =>
      if length = 0 then .ok [] else .error (.invalidConfig fault)
  | holding bytes _ => .ok bytes

end Buffer

structure Reply where
  size : UInt32
  destination : Option Bytes
  deriving DecidableEq, Repr

/-- The size to be returned for an outcome; failures are logged. -/
def sizeOf (outcome : Except CodecError Nat) : Traced UInt32 :=
  match outcome with
  | .error error => do
      Traced.log (.failed error)
      pure errorSize
  | .ok size =>
      if size < errorSize.toNat then pure (UInt32.ofNat size)
      else do
        Traced.log (.sizeNotExpressible size)
        pure errorSize

def codecOf (compressor : Compressor) (options : Option RawOptions) :
    Except CodecError Codec :=
  match options with
  | none => .error (.invalidConfig .optionsMissing)
  | some raw => do
      let checked ← Options.ofRaw raw
      Codec.ofOptions compressor checked

def maxCompressedSize (compressor : Compressor) (options : Option RawOptions)
    (sourceSize : UInt32) : Traced UInt32 := do
  let operation : Op Nat := do
    let codec ← Op.ofExcept (codecOf compressor options)
    codec.maxCompressedSize sourceSize.toNat
  sizeOf (← operation.run)

def decompressedSize (compressor : Compressor) (options : Option RawOptions)
    (source : Buffer) : Traced UInt32 :=
  sizeOf do
    let codec ← codecOf compressor options
    let input ← source.contents .sourceMissing
    codec.decompressedSize input

/--
A call that moves bytes from a source to a destination.  The options are looked
at first, then the source, then the destination.
-/
def transfer (operation : Codec → (destination input : Bytes) → Op Written)
    (compressor : Compressor) (options : Option RawOptions)
    (source destination : Buffer) : Traced Reply := do
  let run : Op Written := do
    let codec ← Op.ofExcept (codecOf compressor options)
    let input ← Op.ofExcept (source.contents .sourceMissing)
    let output ← Op.ofExcept (destination.contents .destinationMissing)
    operation codec output input
  let outcome ← run.run
  let size ← sizeOf (outcome.map Written.size)
  let written := if isError size then none else outcome.toOption
  pure { size, destination := written.map Written.destination }

def compress (framing : Framing) : (compressor : Compressor) →
    (options : Option RawOptions) → (source destination : Buffer) → Traced Reply :=
  transfer fun codec => codec.compressInto framing

def decompress (framing : Framing) : (compressor : Compressor) →
    (options : Option RawOptions) → (source destination : Buffer) → Traced Reply :=
  transfer fun codec => codec.decompressInto framing

end Boundary

end SeriesCodec
