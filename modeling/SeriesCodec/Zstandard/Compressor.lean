import SeriesCodec.Compressor
import SeriesCodec.Zstandard.Frame

/-!
# The Zstandard compressor

This compressor writes Zstandard frames that store their content.  A frame of
another writer is read as long as its blocks are stored or repeat one byte.
-/

namespace SeriesCodec

namespace Zstandard

/-- The length from which on a bound is refused. -/
def refusedLength : Nat := 0xFF00FF00FF00FF00

/-- The answer for a refused bound, an error code read as a size. -/
def refusedBound : Nat := UInt64.size - 72

def maxCompressedSize (length : Nat) : Nat :=
  if refusedLength ≤ length then refusedBound
  else
    length + length / 256 +
      if length < greatestBlock then (greatestBlock - length) / 2048 else 0

def decompress (input : Bytes) (limit : Nat) : Except CodecError Bytes :=
  (Frame.readAll false limit input).mapError fun fault =>
    .secondaryCompressor ("zstd decompress: " ++ fault.message)

/-- The compressor; its frames do not depend on the level of effort. -/
def compressor : Compressor where
  compress input _ := .ok (Frame.write input)
  decompress := decompress
  maxCompressedSize := maxCompressedSize

end Zstandard

end SeriesCodec
