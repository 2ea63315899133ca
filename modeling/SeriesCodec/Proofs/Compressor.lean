import SeriesCodec.Compressor

/-!
# What is asked of a compressor

The codec works with any compressor.  That a series comes back is owed to a
compressor that gives back what it took; that a mistake is noticed is owed to
one that at least never gives back anything else.
-/

namespace SeriesCodec

namespace Compressor

/-- What was compressed is given back under every limit that it meets. -/
def Lossless (compressor : Compressor) : Prop :=
  ∀ plain level compressed limit,
    compressor.compress plain level = .ok compressed → plain.length ≤ limit →
      compressor.decompress compressed limit = .ok plain

def LosslessUpTo (compressor : Compressor) (greatest : Nat) : Prop :=
  ∀ plain level compressed limit, plain.length ≤ greatest →
    compressor.compress plain level = .ok compressed → plain.length ≤ limit →
      compressor.decompress compressed limit = .ok plain

/-- What was compressed is given back, or nothing is. -/
def Faithful (compressor : Compressor) : Prop :=
  ∀ plain level compressed limit found,
    compressor.compress plain level = .ok compressed →
      compressor.decompress compressed limit = .ok found → found = plain

/-- The limit decides whether something is given back, but not what. -/
def Steady (compressor : Compressor) : Prop :=
  ∀ compressed limit another found other,
    compressor.decompress compressed limit = .ok found →
      compressor.decompress compressed another = .ok other → found = other

/-- The declared bound holds, and does not decrease, as long as nothing longer is compressed. -/
structure BoundedUpTo (compressor : Compressor) (greatest : Nat) : Prop where
  fits : ∀ plain level compressed, plain.length ≤ greatest →
    compressor.compress plain level = .ok compressed →
      compressed.length ≤ compressor.maxCompressedSize plain.length
  mono : ∀ shorter longer, shorter ≤ longer → longer ≤ greatest →
    compressor.maxCompressedSize shorter ≤ compressor.maxCompressedSize longer

/-- When compressing fails, the failure is the compressor's own. -/
def FailsOnItsOwn (compressor : Compressor) : Prop :=
  ∀ plain level error, compressor.compress plain level = .error error →
    ∃ reason, error = .secondaryCompressor reason

/-- When nothing is given back, the failure is the compressor's own. -/
def RefusesOnItsOwn (compressor : Compressor) : Prop :=
  ∀ compressed limit error, compressor.decompress compressed limit = .error error →
    ∃ reason, error = .secondaryCompressor reason

def TakesAll (compressor : Compressor) : Prop :=
  ∀ plain level, ∃ compressed, compressor.compress plain level = .ok compressed

theorem Lossless.upTo {compressor : Compressor} (lossless : compressor.Lossless) (greatest : Nat) :
    compressor.LosslessUpTo greatest :=
  fun plain level compressed limit _ => lossless plain level compressed limit

theorem LosslessUpTo.mono {compressor : Compressor} {least greatest : Nat}
    (lossless : compressor.LosslessUpTo greatest) (le : least ≤ greatest) :
    compressor.LosslessUpTo least :=
  fun plain level compressed limit short =>
    lossless plain level compressed limit (Nat.le_trans short le)

/-- Under the limit of its own length a byte string comes back, hence under no limit another. -/
theorem Steady.faithful {compressor : Compressor} (steady : compressor.Steady)
    (lossless : compressor.Lossless) : compressor.Faithful := by
  intro plain level compressed limit found stored given
  exact steady _ _ _ _ _ given (lossless plain level compressed plain.length stored (Nat.le_refl _))

theorem TakesAll.failsOnItsOwn {compressor : Compressor} (takes : compressor.TakesAll) :
    compressor.FailsOnItsOwn := by
  intro plain level error failed
  obtain ⟨compressed, taken⟩ := takes plain level
  rw [taken] at failed
  cases failed

theorem passthrough_lossless : passthrough.Lossless := by
  intro plain level compressed limit stored fits
  cases stored
  exact if_pos fits

/-- The compressor that stores bytes gives back what it is given, or nothing. -/
theorem passthrough_decompress {compressed found : Bytes} {limit : Nat}
    (given : passthrough.decompress compressed limit = .ok found) : found = compressed := by
  simp only [passthrough] at given
  split at given
  · cases given
    rfl
  · cases given

theorem passthrough_refusesOnItsOwn : passthrough.RefusesOnItsOwn := by
  intro compressed limit error refused
  simp only [passthrough] at refused
  split at refused
  · cases refused
  · cases refused
    exact ⟨_, rfl⟩

theorem passthrough_steady : passthrough.Steady := by
  intro compressed limit another found other given again
  rw [passthrough_decompress given, passthrough_decompress again]

theorem passthrough_faithful : passthrough.Faithful :=
  passthrough_steady.faithful passthrough_lossless

end Compressor

end SeriesCodec
