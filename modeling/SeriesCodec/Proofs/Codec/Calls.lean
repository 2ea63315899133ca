import Mathlib.Data.List.Basic
import SeriesCodec.Proofs.Framed.Allocation
import SeriesCodec.Proofs.Framed.Precedence
import SeriesCodec.Proofs.Framed.RoundTrip
import SeriesCodec.Proofs.Observed

/-!
# When the compressor is called

Nothing is asked of a compressor before everything else about a call is in order.  Then
it is asked once: to compress the packed stream of the series, or to give back the packed
stream behind a payload, within the size that such a stream can have.
-/

namespace SeriesCodec

namespace Framed

variable {compressor : Compressor} {framing : Framing} {options : Options}

theorem writingRefusal_eq_none_iff {inputLength : Nat} :
    writingRefusal framing options inputLength = none ↔
      options.version = 0 ∧ inputLength % options.width.bytes = 0 ∧
        (framing = .sized → inputLength ≤ Framing.greatestLength) := by
  rw [writingRefusal]
  by_cases supported : options.version = 0
  case neg => simp [supported]
  by_cases whole : inputLength % options.width.bytes = 0
  case neg => simp [supported, whole]
  simp [supported, whole]

/-- Of making a payload, the call that it takes is observed. -/
theorem payloadOf_calls (inputLength : Nat) (packed : Bytes) :
    Op.seen Event.call? (payloadOf compressor options inputLength packed) =
      if options.level = 0 then [] else [.compress packed options.level] := by
  rw [payloadOf, Options.ite_usesCompressor]
  split
  · rfl
  · exact Op.seen_bind_of_silent _ fun _ => rfl

theorem packedOf_calls (count : Nat) (payload : Bytes) :
    Op.seen Event.call? (packedOf compressor options count payload) =
      if options.level = 0 then []
      else [.decompress payload (GroupVarint.maxPackedSize options.width count)] := by
  rw [packedOf, Options.ite_usesCompressor]
  split <;> rfl

/-- The compressor is asked once nothing speaks against writing. -/
theorem compress_calls (input : Bytes) :
    Op.seen Event.call? (compress compressor framing options input) =
      if writingRefusal framing options input.length = none ∧ options.level ≠ 0 then
        [.compress (GroupVarint.encode (Packed.words options input)) options.level]
      else [] := by
  rw [compress_eq]
  cases writingRefusal framing options input.length with
  | some reason => rfl
  | none =>
      rw [Op.seen_bind_of_silent _ (fun _ => rfl), payloadOf_calls]
      by_cases plain : options.level = 0 <;> simp [plain]

/-- The compressor is asked once nothing but the payload could speak against reading. -/
theorem decompress_calls (framed : Bytes) (capacity : Nat) :
    Op.seen Event.call? (decompress compressor framing options framed capacity) =
      if readingRefusal framing options capacity framed = none ∧ options.level ≠ 0 then
        [.decompress (framed.drop framing.headerSize)
          (GroupVarint.maxPackedSize options.width
            (framing.lengthFor framed capacity / options.width.bytes))]
      else [] := by
  rw [decompress_eq]
  cases readingRefusal framing options capacity framed with
  | some reason => rfl
  | none =>
      refine (Op.seen_bind_of_silent _ fun packed => ?_).trans ?_
      · exact Op.seen_bind_of_silent _ fun _ => rfl
      · rw [packedOf_calls]
        by_cases plain : options.level = 0 <;> simp [plain]

/-- What was written is read as a header for its length with the payload behind it. -/
theorem parts_of_written {input framed : Bytes}
    (written : (compress compressor framing options input).outcome = .ok framed) :
    (payloadOf compressor options input.length
        (GroupVarint.encode (Packed.words options input))).outcome =
      .ok (framed.drop framing.headerSize) ∧
    framing.headerSize ≤ framed.length ∧
    ∀ capacity, framing.Admits capacity input.length →
      framing.lengthFor framed capacity = input.length := by
  obtain ⟨_, _, header, payload, heads, pays, rfl⟩ := compress_outcome_eq_ok_iff.mp written
  have front := Framing.header_length heads
  have headed : framing.headerSize ≤ (header ++ payload).length := by
    rw [← front, List.length_append]
    exact Nat.le_add_right _ _
  have behind : (header ++ payload).drop framing.headerSize = payload := by
    rw [← front, List.drop_left]
  refine ⟨behind.symm ▸ pays, headed, ?_⟩
  · intro capacity room
    obtain ⟨recorded, parts, length⟩ := Framing.split_header heads room payload
    obtain ⟨again, split, known⟩ := Framing.split_of_headed headed capacity
    rw [parts, behind] at split
    cases split
    rw [← known, length]

end Framed

namespace Codec

inductive Request where
  | compress (framing : Framing) (input : Bytes)
  | compressInto (framing : Framing) (destination input : Bytes)
  | decompressInto (framing : Framing) (destination framed : Bytes)
  /-- A payload is to be decompressed into as many bytes as it records. -/
  | decompressSized (framed : Bytes)
  deriving DecidableEq, Repr

inductive Answer where
  | bytes (output : Bytes)
  | written (answer : Written)
  deriving DecidableEq, Repr

def serve (codec : Codec) : Request → Op Answer
  | .compress framing input => do
      let output ← codec.compress framing input
      pure (.bytes output)
  | .compressInto framing destination input => do
      let answer ← codec.compressInto framing destination input
      pure (.written answer)
  | .decompressInto framing destination framed => do
      let answer ← codec.decompressInto framing destination framed
      pure (.written answer)
  | .decompressSized framed => do
      let output ← codec.decompressSized framed
      pure (.bytes output)

structure Step where
  codec : Codec
  request : Request

def session (steps : List Step) : Traced (List (Except CodecError Answer)) :=
  steps.mapM fun step => (step.codec.serve step.request).run

/-- The call that is due before a series can be written. -/
def writingCall? (options : Options) (framing : Framing) (input : Bytes) : Option CompressorCall :=
  if 0 < options.level ∧ input.length % options.width.bytes = 0 ∧
      (framing = .sized → input.length ≤ Framing.greatestLength) then
    some (.compress (GroupVarint.encode (Packed.words options input)) options.level)
  else none

/-- The call that is due before a payload can be read into a destination. -/
def readingCall? (options : Options) (framing : Framing) (capacity : Nat) (framed : Bytes) :
    Option CompressorCall :=
  let length := framing.lengthFor framed capacity
  if 0 < options.level ∧ framing.headerSize ≤ framed.length ∧
      length % options.width.bytes = 0 ∧ length ≤ capacity then
    some (.decompress (framed.drop framing.headerSize)
      (GroupVarint.maxPackedSize options.width (length / options.width.bytes)))
  else none

/-- The call to the compressor that is due for a request, if one is. -/
def Request.call? (options : Options) : Request → Option CompressorCall
  | .compress framing input => writingCall? options framing input
  | .compressInto framing _ input => writingCall? options framing input
  | .decompressInto framing destination framed =>
      readingCall? options framing destination.length framed
  | .decompressSized framed =>
      readingCall? options .sized (LittleEndian.value (framed.take Framing.lengthFieldSize)) framed

variable {codec : Codec} {framing : Framing} {input framed destination : Bytes}

theorem compress_calls (codec : Codec) (framing : Framing) (input : Bytes) :
    Op.seen Event.call? (codec.compress framing input) =
      (writingCall? codec.options framing input).toList := by
  have supported := codec.options.supported_iff.mp codec.supported
  rw [compress, Framed.compress_calls, writingCall?]
  simp only [Framed.writingRefusal_eq_none_iff, supported, true_and, ← UInt32.pos_iff_ne_zero]
  split <;> rename_i due
  · rw [if_pos ⟨due.2, due.1⟩]
    rfl
  · rw [if_neg fun other => due ⟨other.2, other.1⟩]
    rfl

/-- A destination that is too small is only noticed after the call. -/
theorem compressInto_calls (codec : Codec) (framing : Framing) (destination input : Bytes) :
    Op.seen Event.call? (codec.compressInto framing destination input) =
      (writingCall? codec.options framing input).toList := by
  rw [compressInto, Op.seen_bind_of_silent _ fun _ => rfl, compressWithin,
    Op.seen_bind_of_silent, compress_calls]
  intro compressed
  dsimp only
  split <;> rfl

theorem decompress_calls (codec : Codec) (framing : Framing) (capacity : Nat) (framed : Bytes) :
    Op.seen Event.call?
        (Framed.decompress codec.compressor framing codec.options framed capacity) =
      (readingCall? codec.options framing capacity framed).toList := by
  have supported := codec.options.supported_iff.mp codec.supported
  rw [Framed.decompress_calls, readingCall?]
  simp only [Framed.readingRefusal_eq_none_iff, supported, true_and, ← UInt32.pos_iff_ne_zero]
  split <;> rename_i due
  · rw [if_pos ⟨due.2, due.1⟩]
    rfl
  · rw [if_neg fun other => due ⟨other.2, other.1⟩]
    rfl

theorem decompressInto_calls (codec : Codec) (framing : Framing) (destination framed : Bytes) :
    Op.seen Event.call? (codec.decompressInto framing destination framed) =
      (readingCall? codec.options framing destination.length framed).toList := by
  rw [decompressInto, Framed.decompressInto, Op.seen_bind_of_silent _ fun _ => rfl,
    decompress_calls]

/-- A recorded length is looked at before the payload, without a call. -/
theorem decompressSized_calls (codec : Codec) (framed : Bytes) :
    Op.seen Event.call? (codec.decompressSized framed) =
      (readingCall? codec.options .sized
        (LittleEndian.value (framed.take Framing.lengthFieldSize)) framed).toList := by
  have supported := codec.options.supported_iff.mp codec.supported
  rw [decompressSized]
  by_cases headed : Framing.sized.headerSize ≤ framed.length
  · have parts := Framing.split_append (List.length_take_of_le headed)
      (framed.drop Framing.sized.headerSize)
    rw [List.take_append_drop] at parts
    have told : codec.decompressedSize framed =
        .ok (LittleEndian.value (framed.take Framing.lengthFieldSize)) :=
      Framed.decompressedSize_eq_ok_iff.mpr ⟨supported, _, parts⟩
    rw [Op.check_of_ok told, decompress_calls]
  · have untold : codec.decompressedSize framed = .error (.lengthFieldMissing framed.length) :=
      Framed.decompressedSize_of_headless supported (Nat.lt_of_not_le headed)
    rw [Op.check_of_error untold, readingCall?, if_neg fun due => headed due.2.1]
    rfl

/-- Serving a request takes the call that is due for it. -/
theorem serve_calls (codec : Codec) (request : Request) :
    Op.seen Event.call? (codec.serve request) = (request.call? codec.options).toList := by
  cases request with
  | compress framing input =>
      exact (Op.seen_bind_of_silent _ fun _ => rfl).trans (compress_calls codec framing input)
  | compressInto framing destination input =>
      exact (Op.seen_bind_of_silent _ fun _ => rfl).trans
        (compressInto_calls codec framing destination input)
  | decompressInto framing destination framed =>
      exact (Op.seen_bind_of_silent _ fun _ => rfl).trans
        (decompressInto_calls codec framing destination framed)
  | decompressSized framed =>
      exact (Op.seen_bind_of_silent _ fun _ => rfl).trans (decompressSized_calls codec framed)

/-- The calls of a session are those that are due, request by request. -/
theorem session_calls (steps : List Step) :
    (session steps).calls =
      steps.filterMap fun step => step.request.call? step.codec.options := by
  rw [List.filterMap_eq_flatMap_toList]
  refine (Traced.seen_mapM _ steps).trans ?_
  exact congrArg (steps.flatMap ·) (funext fun step => serve_calls step.codec step.request)

theorem level_pos_of_call {options : Options} {request : Request} {input : Bytes}
    {level : UInt32} (due : request.call? options = some (.compress input level)) : 0 < level := by
  have ofWriting {framing : Framing} {series : Bytes}
      (writing : writingCall? options framing series = some (.compress input level)) :
      0 < level := by
    rw [writingCall?] at writing
    split at writing
    next ready =>
      cases writing
      exact ready.1
    next => cases writing
  have ofReading {framing : Framing} {capacity : Nat} {framed : Bytes}
      (reading : readingCall? options framing capacity framed = some (.compress input level)) :
      0 < level := by
    rw [readingCall?] at reading
    split at reading <;> cases reading
  cases request with
  | compress framing series => exact ofWriting due
  | compressInto framing destination series => exact ofWriting due
  | decompressInto framing destination framed => exact ofReading due
  | decompressSized framed => exact ofReading due

theorem call_ne_bound {options : Options} {request : Request} {length : Nat} :
    request.call? options ≠ some (.bound length) := by
  have ofWriting {framing : Framing} {series : Bytes} :
      writingCall? options framing series ≠ some (.bound length) := by
    rw [writingCall?]
    split <;> simp
  have ofReading {framing : Framing} {capacity : Nat} {framed : Bytes} :
      readingCall? options framing capacity framed ≠ some (.bound length) := by
    rw [readingCall?]
    split <;> simp
  cases request with
  | compress framing series => exact ofWriting
  | compressInto framing destination series => exact ofWriting
  | decompressInto framing destination framed => exact ofReading
  | decompressSized framed => exact ofReading

/-- The call that is due for a request is answered with the given packed stream. -/
def GivesBack (codec : Codec) (packed : Bytes) (request : Request) : Prop :=
  ∃ payload limit, request.call? codec.options = some (.decompress payload limit) ∧
    codec.compressor.decompress payload limit = .ok packed

/-- What was compressed is asked for under a limit that its packed stream is within. -/
theorem readingCall?_of_written {capacity : Nat} (lossless : codec.compressor.Lossless)
    (staged : 0 < codec.options.level) (buffered : input.length ≤ Size.greatestBuffer)
    (written : (codec.compress framing input).outcome = .ok framed)
    (room : framing.Admits capacity input.length) :
    ∃ payload limit,
      readingCall? codec.options framing capacity framed = some (.decompress payload limit) ∧
      codec.compressor.decompress payload limit =
        .ok (GroupVarint.encode (Packed.words codec.options input)) := by
  obtain ⟨_, whole, _⟩ := Framed.compress_outcome_eq_ok_iff.mp written
  obtain ⟨pays, headed, length⟩ := Framed.parts_of_written written
  have unpacks := Framed.packedOf_payloadOf codec.options lossless whole buffered rfl rfl pays
  rw [Framed.packedOf_outcome_eq, Framed.streamIn,
    if_neg (UInt32.pos_iff_ne_zero.mp staged)] at unpacks
  refine ⟨_, _, ?_, unpacks⟩
  rw [readingCall?, length capacity room]
  exact if_pos ⟨staged, headed, whole, room.le⟩

/--
In every session the compressor is called once for each request for which a call is
due, and not otherwise: it compresses packed streams at positive levels, decompresses what
stands behind a header, and is not asked for bounds.  The limit that it is given is no
less than any packed stream of as many bytes, so a compressor that refuses what exceeds
its limit still gives back whatever was compressed.
-/
theorem compressor_called_when_due :
    (∀ steps : List Step,
      (session steps).calls =
        steps.filterMap (fun step => step.request.call? step.codec.options) ∧
      (∀ input level, .compress input level ∈ (session steps).calls → 0 < level) ∧
      ∀ length, .bound length ∉ (session steps).calls) ∧
    (∀ (options : Options) (input : Bytes), input.length % options.width.bytes = 0 →
      input.length ≤ Size.greatestBuffer →
      (GroupVarint.encode (Packed.words options input)).length ≤
        GroupVarint.maxPackedSize options.width (input.length / options.width.bytes)) ∧
    ∀ (codec : Codec) (framing : Framing) (input framed : Bytes),
      codec.compressor.Lossless → 0 < codec.options.level →
      input.length ≤ Size.greatestBuffer →
      (codec.compress framing input).outcome = .ok framed →
      (∀ destination : Bytes, framing.Admits destination.length input.length →
        codec.GivesBack (GroupVarint.encode (Packed.words codec.options input))
          (.decompressInto framing destination framed)) ∧
      (framing = .sized →
        codec.GivesBack (GroupVarint.encode (Packed.words codec.options input))
          (.decompressSized framed)) := by
  refine ⟨?_, ?_, ?_⟩
  · intro steps
    rw [session_calls]
    refine ⟨rfl, ?_, ?_⟩
    · intro input level made
      obtain ⟨step, _, due⟩ := List.mem_filterMap.mp made
      exact level_pos_of_call due
    · intro length made
      obtain ⟨step, _, due⟩ := List.mem_filterMap.mp made
      exact call_ne_bound due
  · intro options input whole buffered
    have size := Packed.words_bytes whole
    have limit := GroupVarint.encode_length_le_maxPackedSize (size ▸ buffered)
    rwa [Packed.words_length] at limit
  · intro codec framing input framed lossless staged buffered written
    refine ⟨fun destination room =>
      readingCall?_of_written lossless staged buffered written room, ?_⟩
    rintro rfl
    have recorded := (Framed.parts_of_written written).2.2 input.length (Nat.le_refl _)
    exact readingCall?_of_written lossless staged buffered written (Nat.le_of_eq recorded.symm)

/-- A codec of two-byte elements that stores what it packs. -/
def storing : Codec := ⟨⟨true, .two, 3, 0⟩, .passthrough, by decide⟩

/--
Two elements are compressed into too small a destination and decompressed again; a
series that is not whole and a payload whose length field is cut take no call.
-/
theorem compressor_called_when_due_five_requests :
    (session [⟨storing, .compressInto .sized [7] [5, 0, 3, 1]⟩,
      ⟨storing, .compress .raw [5, 0, 3]⟩,
      ⟨storing, .decompressInto .sized [7, 7, 7, 7, 9] [4, 0, 0, 0, 4, 10, 252, 1]⟩,
      ⟨storing, .decompressSized [4, 0, 0]⟩,
      ⟨storing, .decompressSized [4, 0, 0, 0, 4, 10, 252, 1]⟩]).calls =
      [.compress [4, 10, 252, 1] 3, .decompress [4, 10, 252, 1] 5,
        .decompress [4, 10, 252, 1] 5] ∧
    (GroupVarint.encode (Packed.words storing.options [5, 0, 3, 1])).length ≤
      GroupVarint.maxPackedSize .two 2 ∧
    storing.GivesBack [4, 10, 252, 1] (.decompressSized [4, 0, 0, 0, 4, 10, 252, 1]) := by
  obtain ⟨calls, within, back⟩ := compressor_called_when_due
  refine ⟨?_, within storing.options [5, 0, 3, 1] rfl (by decide), ?_⟩
  · rw [(calls _).1]
    rfl
  · exact (back storing .sized [5, 0, 3, 1] [4, 0, 0, 0, 4, 10, 252, 1]
      Compressor.passthrough_lossless (by decide) (by decide) rfl).2 rfl

end Codec

end SeriesCodec
