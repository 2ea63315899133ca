import SeriesCodec.Codec

/-!
# One-shot calls

Each call names its options, makes a codec for them and forgets it.  Typed
calls take elements instead of bytes and insist that the options speak of
elements of the same width.
-/

namespace SeriesCodec

namespace OneShot

variable {width : ElementWidth}

def maxCompressedSize (compressor : Compressor) (options : Options)
    (inputLength : Nat) : Op Nat := do
  let codec ← Op.ofExcept (Codec.ofOptions compressor options)
  codec.maxCompressedSize inputLength

def compressInto (compressor : Compressor) (options : Options) (framing : Framing)
    (destination input : Bytes) : Op Written := do
  let codec ← Op.ofExcept (Codec.ofOptions compressor options)
  codec.compressInto framing destination input

def decompressInto (compressor : Compressor) (options : Options) (framing : Framing)
    (destination compressed : Bytes) : Op Written := do
  let codec ← Op.ofExcept (Codec.ofOptions compressor options)
  codec.decompressInto framing destination compressed

def decompressedSize (compressor : Compressor) (options : Options)
    (compressed : Bytes) : Op Nat := do
  let codec ← Op.ofExcept (Codec.ofOptions compressor options)
  Op.ofExcept (codec.decompressedSize compressed)

def checkWidth (width : ElementWidth) (options : Options) : Except CodecError Unit :=
  if width = options.width then .ok ()
  else .error (.invalidConfig (.widthMismatch options.width width))

def compressElements (compressor : Compressor) (options : Options)
    (elements : List (Word width)) : Op Bytes := do
  Op.ofExcept (checkWidth width options)
  let input := Elements.toBytes elements
  let codec ← Op.ofExcept (Codec.ofOptions compressor options)
  let capacity ← codec.maxCompressedSize input.length
  codec.compressWithin .sized capacity input

def decompressElements (width : ElementWidth) (compressor : Compressor)
    (options : Options) (compressed : Bytes) : Op (List (Word width)) := do
  Op.ofExcept (checkWidth width options)
  let codec ← Op.ofExcept (Codec.ofOptions compressor options)
  let bytes ← codec.decompressSized compressed
  Op.ofExcept (Elements.ofBytes width bytes)

/-- The sizes of a sized payload, which is not decoded for it. -/
def analyze (compressor : Compressor) (options : Options)
    (compressed : Bytes) : Op Stats := do
  let originalSize ← decompressedSize compressor options compressed
  let stats : Stats := { originalSize, compressedSize := compressed.length }
  Op.log (.analyzed stats)
  pure stats

end OneShot

end SeriesCodec
