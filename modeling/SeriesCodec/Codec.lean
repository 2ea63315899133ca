import SeriesCodec.Framed

/-!
# Codecs

A codec holds options of a supported version and a compressor, so both
directions use the same ones.  Its operations choose the framing and decide
where the answer goes: into a byte string of its own, or to the front of a
caller's destination.
-/

namespace SeriesCodec

structure Codec where
  options : Options
  compressor : Compressor
  supported : options.Supported

namespace Codec

def ofOptions (compressor : Compressor) (options : Options) : Except CodecError Codec :=
  if supported : options.Supported then
    .ok { options, compressor, supported }
  else .error (.unsupportedVersion options.version)

def maxCompressedSize (codec : Codec) (inputLength : Nat) : Traced Nat :=
  Framed.maxCompressedSize codec.compressor codec.options inputLength

def decompressedSize (codec : Codec) (compressed : Bytes) : Except CodecError Nat :=
  Framed.decompressedSize codec.options compressed

def compress (codec : Codec) (framing : Framing) (input : Bytes) : Op Bytes :=
  Framed.compress codec.compressor framing codec.options input

def compressWithin (codec : Codec) (framing : Framing) (capacity : Nat)
    (input : Bytes) : Op Bytes := do
  let compressed ← codec.compress framing input
  if capacity < compressed.length then
    throw (.destinationTooSmall compressed.length capacity)
  pure compressed

def compressInto (codec : Codec) (framing : Framing) (destination input : Bytes) :
    Op Written := do
  let compressed ← codec.compressWithin framing destination.length input
  pure (Written.front destination compressed)

def decompressInto (codec : Codec) (framing : Framing) (destination compressed : Bytes) :
    Op Written :=
  Framed.decompressInto codec.compressor framing codec.options destination compressed

/-- The series behind a sized payload, in as many bytes as the payload records. -/
def decompressSized (codec : Codec) (compressed : Bytes) : Op Bytes := do
  let length ← Op.ofExcept (codec.decompressedSize compressed)
  Framed.decompress codec.compressor .sized codec.options compressed length

theorem ofOptions_self (codec : Codec) : ofOptions codec.compressor codec.options = .ok codec :=
  dif_pos codec.supported

end Codec

end SeriesCodec
