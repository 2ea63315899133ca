import SeriesCodec.Error
import SeriesCodec.Word
import SeriesCodec.Written

/-!
# Series as bytes

A series is stored as the bytes of its elements, one after the other.  A byte
string is a series of a given width exactly when its length is a multiple of
that width.
-/

namespace SeriesCodec

namespace Elements

variable {width : ElementWidth}

def toBytes (elements : List (Word width)) : Bytes :=
  elements.flatMap Word.toBytes

def take (width : ElementWidth) : (count : Nat) → (bytes : Bytes) → List (Word width)
  | 0, _ => []
  | count + 1, bytes =>
      Word.ofBytes (bytes.take width.bytes) ::
        take width count (bytes.drop width.bytes)

/-- Refuses a length that is not a whole number of elements. -/
def checkWhole (width : ElementWidth) (length : Nat) : Except CodecError Unit :=
  if length % width.bytes = 0 then .ok ()
  else .error (.partialElement width.bytes length)

def ofBytes (width : ElementWidth) (bytes : Bytes) :
    Except CodecError (List (Word width)) := do
  checkWhole width bytes.length
  pure (take width (bytes.length / width.bytes) bytes)

def toBytesWithin (capacity : Nat) (elements : List (Word width)) :
    Except CodecError Bytes :=
  let required := elements.length * width.bytes
  if capacity < required then .error (.destinationTooSmall required capacity)
  else .ok (toBytes elements)

def writeInto (destination : Bytes) (elements : List (Word width)) :
    Except CodecError Written :=
  (toBytesWithin destination.length elements).map (Written.front destination)

theorem checkWhole_eq_ok_iff (length : Nat) :
    checkWhole width length = .ok () ↔ length % width.bytes = 0 := by
  unfold checkWhole
  split <;> simp [*]

@[simp] theorem toBytes_length (elements : List (Word width)) :
    (toBytes elements).length = elements.length * width.bytes := by
  induction elements with
  | nil => simp [toBytes]
  | cons element rest ih =>
      simp only [toBytes, List.flatMap_cons, List.length_append,
        Word.toBytes_length, List.length_cons, Nat.succ_mul] at ih ⊢
      omega

@[simp] theorem take_length (count : Nat) (bytes : Bytes) :
    (take width count bytes).length = count := by
  induction count generalizing bytes with
  | zero => rfl
  | succ count ih => simp [take, ih]

theorem take_toBytes (elements : List (Word width)) (rest : Bytes) :
    take width elements.length (toBytes elements ++ rest) = elements := by
  induction elements with
  | nil => rfl
  | cons element others ih =>
      have front : (toBytes (element :: others) ++ rest).take width.bytes =
          Word.toBytes element := by
        simp [toBytes]
      have back : (toBytes (element :: others) ++ rest).drop width.bytes =
          toBytes others ++ rest := by
        simp [toBytes]
      rw [List.length_cons, take, front, back, ih, Word.ofBytes_toBytes]

theorem toBytes_take (count : Nat) (bytes : Bytes)
    (full : bytes.length = count * width.bytes) :
    toBytes (take width count bytes) = bytes := by
  induction count generalizing bytes with
  | zero =>
      have none : bytes = [] := List.eq_nil_of_length_eq_zero (by omega)
      subst none
      rfl
  | succ count ih =>
      rw [Nat.succ_mul] at full
      have front : (bytes.take width.bytes).length = width.bytes :=
        List.length_take_of_le (by omega)
      have others := ih (bytes.drop width.bytes) (by simp; omega)
      simp only [toBytes] at others
      rw [take, toBytes, List.flatMap_cons, others,
        Word.toBytes_ofBytes front, List.take_append_drop]

end Elements

end SeriesCodec
