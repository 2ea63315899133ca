import SeriesCodec.Compressor
import SeriesCodec.Packed
import SeriesCodec.Written

/-!
# Framed payloads

A payload is a packed stream, or its compressed form when the options ask for
the secondary compressor, and a framing may put the length of the series in
front of it.  Each direction checks its inputs in a fixed order and reports the
first failure.
-/

namespace SeriesCodec

namespace Framed

/--
The greatest framed size of `inputLength` bytes: every element at full width,
whatever the compressor declares for that, and the length field.
-/
def maxCompressedSize (compressor : Compressor) (options : Options)
    (inputLength : Nat) : Traced Nat := do
  let count := Size.ceilDiv inputLength options.width.bytes
  let packedSize := GroupVarint.maxPackedSize options.width count
  let payloadSize ←
    if options.usesCompressor then compressor.runBound packedSize
    else pure packedSize
  pure (Size.add payloadSize Framing.lengthFieldSize)

def payloadOf (compressor : Compressor) (options : Options)
    (inputLength : Nat) (packed : Bytes) : Op Bytes :=
  if options.usesCompressor then do
    let compressed ← compressor.runCompress packed options.level
    Op.log (.compressSizes inputLength packed.length (some compressed.length))
    pure compressed
  else do
    Op.log (.compressSizes inputLength packed.length none)
    pure packed

def compress (compressor : Compressor) (framing : Framing) (options : Options)
    (input : Bytes) : Op Bytes := do
  Op.ofExcept options.validate
  Op.ofExcept (Elements.checkWhole options.width input.length)
  let packed ← Op.ofExcept (Packed.ofBytes options input)
  let header ← Op.ofExcept (framing.header input.length)
  let payload ← payloadOf compressor options input.length packed
  let framed := header ++ payload
  Op.log (.compressed input.length options.width framed.length framing)
  pure framed

def packedOf (compressor : Compressor) (options : Options)
    (count : Nat) (payload : Bytes) : Op Bytes :=
  if options.usesCompressor then
    compressor.runDecompress payload
      (GroupVarint.maxPackedSize options.width count)
  else pure payload

/--
The bytes behind a framed payload, for a destination of `capacity` bytes.
Without a length field the destination fixes the length of the answer.
-/
def decompress (compressor : Compressor) (framing : Framing) (options : Options)
    (framed : Bytes) (capacity : Nat) : Op Bytes := do
  Op.ofExcept options.validate
  let (recorded, payload) ← Op.ofExcept (framing.split framed)
  let length := recorded.getD capacity
  Op.ofExcept (Elements.checkWhole options.width length)
  if capacity < length then
    throw (.destinationTooSmall length capacity)
  let count := length / options.width.bytes
  let packed ← packedOf compressor options count payload
  let output ← Op.ofExcept (Packed.toBytesWithin capacity options packed count)
  Op.log (.decompressSizes framed.length packed.length output.length)
  pure output

def decompressInto (compressor : Compressor) (framing : Framing) (options : Options)
    (destination framed : Bytes) : Op Written := do
  let output ← decompress compressor framing options framed destination.length
  pure (Written.front destination output)

def decompressedSize (options : Options) (framed : Bytes) : Except CodecError Nat := do
  options.validate
  Framing.recordedLength framed

end Framed

end SeriesCodec
