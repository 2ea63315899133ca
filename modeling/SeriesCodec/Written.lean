import SeriesCodec.Bytes

/-!
# Answers in a destination

An operation that fills a caller's destination tells how many bytes it wrote to
the front of it; the bytes behind them are as they were.
-/

namespace SeriesCodec

/-- A destination after an answer of `size` bytes has been written to its front. -/
structure Written where
  size : Nat
  destination : Bytes
  deriving DecidableEq, Repr

namespace Written

def front (destination output : Bytes) : Written :=
  ⟨output.length, Bytes.overwrite destination output⟩

theorem front_take (destination output : Bytes) :
    (front destination output).destination.take (front destination output).size =
      output :=
  Bytes.overwrite_take destination output

end Written

end SeriesCodec
