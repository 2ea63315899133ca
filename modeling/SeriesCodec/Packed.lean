import SeriesCodec.Delta
import SeriesCodec.Elements
import SeriesCodec.GroupVarint.Stream
import SeriesCodec.Options

/-!
# Series as packed streams

The bytes of a series become a packed stream by way of its elements and their
differences, and back.
-/

namespace SeriesCodec

namespace Packed

def ofBytes (options : Options) (input : Bytes) : Except CodecError Bytes := do
  let elements ← Elements.ofBytes options.width input
  pure (GroupVarint.encode (Delta.encode options.delta elements))

def toBytesWithin (capacity : Nat) (options : Options) (packed : Bytes) (count : Nat) :
    Except CodecError Bytes := do
  let words ← (GroupVarint.decode options.width packed count).mapError .packedStream
  Elements.toBytesWithin capacity (Delta.decode options.delta words)

end Packed

end SeriesCodec
