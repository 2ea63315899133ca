import SeriesCodec.Json.Real

/-!
# Size summaries

A summary compares the length of a payload with the length of the bytes that
it stands for.
-/

namespace SeriesCodec

structure Stats where
  originalSize : Nat
  compressedSize : Nat
  deriving DecidableEq, Repr

namespace Stats

/--
The original size over the compressed size, zero for an empty payload.  The
original size has at most 32 bits, so both sizes are doubles and the quotient
is rounded once.
-/
def ratio (stats : Stats) : Binary64 :=
  if stats.compressedSize = 0 then Binary64.zero false
  else (Binary64.ofRatio false stats.originalSize stats.compressedSize).getD
    (Binary64.zero false)

def toJsonText (stats : Stats) : String :=
  "\x7b\"original_size\":" ++ toString stats.originalSize ++
    ",\"compressed_size\":" ++ toString stats.compressedSize ++
    ",\"ratio\":" ++ Json.realText stats.ratio ++ "\x7d"

end Stats

end SeriesCodec
