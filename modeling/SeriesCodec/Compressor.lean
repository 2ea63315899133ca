import SeriesCodec.Trace

/-!
# Secondary compressors

A packed stream may go through a general compressor of byte strings.  The
codec takes any compressor with a declared bound on the size of its output, and
every call to it can be observed.
-/

namespace SeriesCodec

structure Compressor where
  compress : (input : Bytes) → (level : UInt32) → Except CodecError Bytes
  /-- The byte string behind a compressed form, of at most `limit` bytes. -/
  decompress : (input : Bytes) → (limit : Nat) → Except CodecError Bytes
  /-- The declared bound on the compressed size of `length` bytes. -/
  maxCompressedSize : (length : Nat) → Nat

namespace Compressor

def runCompress (compressor : Compressor) (input : Bytes) (level : UInt32) : Op Bytes :=
  Op.call (.compress input level) (compressor.compress input level)

def runDecompress (compressor : Compressor) (input : Bytes) (limit : Nat) : Op Bytes :=
  Op.call (.decompress input limit) (compressor.decompress input limit)

def runBound (compressor : Compressor) (length : Nat) : Traced Nat := do
  Traced.emit (.call (.bound length))
  pure (compressor.maxCompressedSize length)

/-- The compressor that stores bytes as they are. -/
def passthrough : Compressor where
  compress input _ := .ok input
  decompress input limit :=
    if input.length ≤ limit then .ok input
    else .error (.secondaryCompressor
      ("stored block of " ++ toString input.length ++ " bytes exceeds limit of " ++
        toString limit))
  maxCompressedSize length := length

end Compressor

end SeriesCodec
