import SeriesCodec.Error

/-!
# Options

The options of a stream are chosen once and given unchanged to both sides.
Nothing of them is recorded in the compressed bytes.
-/

namespace SeriesCodec

/-- The options shared by the compressing and the decompressing side. -/
structure Options where
  /-- Replace the elements by zigzag differences before packing. -/
  delta : Bool
  width : ElementWidth
  /-- The effort of the secondary compressor; zero leaves it out. -/
  level : UInt32
  version : UInt32
  deriving DecidableEq, Repr

/-- Options as they cross the boundary, with a size that may be no width. -/
structure RawOptions where
  delta : Bool
  size : UInt32
  level : UInt32
  version : UInt32
  deriving DecidableEq, Repr

namespace Options

def defaultVersion : UInt32 := 0

def supportedVersions : List UInt32 := [defaultVersion]

def standard : Options where
  delta := true
  width := .two
  level := 1
  version := defaultVersion

def Supported (options : Options) : Prop :=
  options.version ∈ supportedVersions

instance (options : Options) : Decidable options.Supported :=
  inferInstanceAs (Decidable (_ ∈ _))

def validate (options : Options) : Except CodecError Unit :=
  if options.Supported then .ok ()
  else .error (.unsupportedVersion options.version)

def usesCompressor (options : Options) : Bool := 0 < options.level

def widthOf (size : UInt32) : Except CodecError ElementWidth :=
  match ElementWidth.ofUInt32? size with
  | some width => .ok width
  | none => .error (.unsupportedWidth size)

/-- Options whose version has not been looked at yet. -/
def unvalidated (raw : RawOptions) : Except CodecError Options := do
  let width ← widthOf raw.size
  pure { delta := raw.delta, width, level := raw.level, version := raw.version }

/-- Checked options: the width is looked at first, then the version. -/
def ofRaw (raw : RawOptions) : Except CodecError Options := do
  let options ← unvalidated raw
  options.validate
  pure options

theorem supported_iff (options : Options) :
    options.Supported ↔ options.version = 0 := by
  simp [Supported, supportedVersions, defaultVersion]

theorem validate_eq_ok_iff (options : Options) :
    options.validate = .ok () ↔ options.version = 0 := by
  rw [← supported_iff, validate]
  split <;> simp [*]

theorem usesCompressor_eq_false {options : Options} (plain : options.level = 0) :
    options.usesCompressor = false := by
  simp [usesCompressor, plain]

/-- What is asked of a compressor unless it is left out holds where it is used. -/
theorem of_usesCompressor {options : Options} {asked : Prop}
    (demand : options.level = 0 ∨ asked) (used : options.usesCompressor) : asked := by
  rcases demand with plain | asked
  · rw [usesCompressor_eq_false plain] at used
    cases used
  · exact asked

end Options

end SeriesCodec
