import SeriesCodec.Error
import SeriesCodec.LittleEndian

/-!
# Framings

A payload travels alone, or behind the length of the bytes that it stands for.
The length field is a 32-bit number, least significant byte first.
-/

namespace SeriesCodec

/-- What stands in front of a payload. -/
inductive Framing where
  /-- Nothing: a reader has to know the length of the answer. -/
  | raw
  | sized
  deriving DecidableEq, Repr

namespace Framing

def lengthFieldSize : Nat := 4

def greatestLength : Nat := UInt32.size - 1

def headerSize : Framing → Nat
  | raw => 0
  | sized => lengthFieldSize

def header (framing : Framing) (length : Nat) : Except CodecError Bytes :=
  match framing with
  | raw => .ok []
  | sized =>
      if length ≤ greatestLength then
        .ok (LittleEndian.encode lengthFieldSize length)
      else .error (.lengthFieldOverflow length)

def appendHeader (framing : Framing) (buffer : Bytes) (length : Nat) :
    Except CodecError Bytes :=
  (framing.header length).map (buffer ++ ·)

def splitSized (framed : Bytes) : Except CodecError (Nat × Bytes) :=
  match Bytes.splitExact? lengthFieldSize framed with
  | none => .error (.lengthFieldMissing framed.length)
  | some (field, payload) => .ok (LittleEndian.value field, payload)

def recordedLength (framed : Bytes) : Except CodecError Nat :=
  (splitSized framed).map Prod.fst

def split (framing : Framing) (framed : Bytes) :
    Except CodecError (Option Nat × Bytes) :=
  match framing with
  | raw => .ok (none, framed)
  | sized => (splitSized framed).map fun (length, payload) => (some length, payload)

def describe : Framing → String
  | raw => "Raw"
  | sized => "Sized"

theorem header_length {framing : Framing} {length : Nat} {bytes : Bytes}
    (written : framing.header length = .ok bytes) :
    bytes.length = framing.headerSize := by
  cases framing with
  | raw =>
      simp only [header, Except.ok.injEq] at written
      rw [← written]
      rfl
  | sized =>
      simp only [header] at written
      split at written
      · simp only [Except.ok.injEq] at written
        rw [← written]
        simp [headerSize]
      · simp at written

/-- A header is read back in front of every payload. -/
theorem splitSized_header {length : Nat} {bytes : Bytes}
    (written : sized.header length = .ok bytes) (payload : Bytes) :
    splitSized (bytes ++ payload) = .ok (length, payload) := by
  have size := header_length written
  simp only [header] at written
  split at written
  · rename_i fits
    simp only [Except.ok.injEq] at written
    have front := Bytes.splitExact?_append bytes payload
    rw [size] at front
    simp only [headerSize] at front
    rw [splitSized, front]
    simp only [← written]
    rw [LittleEndian.value_encode_of_lt]
    exact Nat.lt_of_le_of_lt fits (by decide)
  · simp at written

end Framing

end SeriesCodec
