import SeriesCodec.Decimal.Fixed
import SeriesCodec.Framing
import SeriesCodec.Log.Record
import SeriesCodec.Stats

/-!
# Notices

What the codec has to tell about its work: the sizes of a stage, a summary, or
the reason why a call across the boundary failed.  Each notice becomes one log
record.
-/

namespace SeriesCodec

inductive Notice where
  | compressSizes (input packed : Nat) (secondary : Option Nat)
  | decompressSizes (framed packed output : Nat)
  | compressed (input : Nat) (width : ElementWidth) (framed : Nat) (framing : Framing)
  | analyzed (stats : Stats)
  | failed (error : CodecError)
  /-- The size to be returned across the boundary cannot be expressed there. -/
  | sizeNotExpressible (size : Nat)
  deriving DecidableEq, Repr

namespace Notice

def level : Notice → Log.Level
  | compressSizes .. => .trace
  | decompressSizes .. => .trace
  | compressed .. => .debug
  | analyzed .. => .debug
  | failed .. => .error
  | sizeNotExpressible .. => .error

def target : Notice → String
  | compressSizes .. => "vbz::metrics"
  | decompressSizes .. => "vbz::metrics"
  | compressed .. => "vbz::pipeline::core"
  | analyzed .. => "vbz::bridge::stateless_api"
  | failed .. => "vbz::ffi"
  | sizeNotExpressible .. => "vbz::ffi"

/-- Named sizes of one event, as they appear in a metric. -/
def metric (event : String) (sizes : List (String × Nat)) : String :=
  let parts := ("event", event) :: sizes.map fun (name, size) => (name, toString size)
  let shown := parts.map fun (name, text) =>
    "\"" ++ name ++ "\": \"" ++ text ++ "\""
  "VBZ_METRIC: \x7b " ++ ", ".intercalate shown ++ " \x7d"

def message : Notice → String
  | compressSizes input packed secondary =>
      metric "compress"
        (("input_len", input) :: ("packed_len", packed) ::
          secondary.toList.map fun size => ("secondary_len", size))
  | decompressSizes framed packed output =>
      metric "decompress"
        [("framed_len", framed), ("packed_len", packed), ("output_len", output)]
  | compressed input width framed framing =>
      "vbz compress: " ++ toString input ++ " bytes of " ++ width.describe ++
        " elements -> " ++ toString framed ++ " bytes (" ++ framing.describe ++
        " framing)"
  | analyzed stats =>
      "vbz analyze: " ++ toString stats.originalSize ++ " -> " ++
        toString stats.compressedSize ++ " bytes (ratio " ++
        Decimal.fixed 3 stats.ratio ++ ")"
  | failed error => "vbz: " ++ error.message
  | sizeNotExpressible size =>
      "vbz: result size " ++ toString size ++ " does not fit vbz_size_t"

def record (notice : Notice) : Log.Record :=
  ⟨notice.level, notice.target, notice.message⟩

end Notice

end SeriesCodec
