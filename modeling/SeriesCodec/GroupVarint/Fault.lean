import SeriesCodec.Text.Hex

/-!
# Faults of a packed stream
-/

namespace SeriesCodec

namespace GroupVarint

inductive Fault where
  /-- A block of `needed` bytes starts at `offset`, where too few remain. -/
  | truncated (offset needed available : Nat)
  | overlong (key : UInt8) (length width : Nat)
  | trailing (count : Nat)
  deriving DecidableEq, Repr

namespace Fault

def message : Fault → String
  | truncated offset needed available =>
      "Group varint stream truncated: needed " ++ toString needed ++
        " bytes at offset " ++ toString offset ++ ", " ++
        toString available ++ " available"
  | overlong key length width =>
      "Control byte " ++ Text.byteLiteral key ++ " encodes a " ++
        toString length ++ "-byte value, element width is " ++ toString width
  | trailing count =>
      "Group varint stream has " ++ toString count ++
        " unconsumed trailing bytes"

end Fault

end GroupVarint

end SeriesCodec
