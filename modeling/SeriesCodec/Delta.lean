import SeriesCodec.ZigZag

/-!
# Differences of a series

Neighbours in a series tend to be close, so the series is replaced by the
differences of neighbours, starting from zero, and each difference goes through
zigzag.  Differences wrap at the element width, hence nothing is lost.  With the
transform disabled the elements are kept as they are.
-/

namespace SeriesCodec

namespace Delta

variable {width : ElementWidth}

/-- The differences of a series whose predecessor is `previous`. -/
def differences : (previous : Word width) → List (Word width) → List (Word width)
  | _, [] => []
  | previous, element :: rest => (element - previous) :: differences element rest

def sums : (previous : Word width) → List (Word width) → List (Word width)
  | _, [] => []
  | previous, difference :: rest =>
      (previous + difference) :: sums (previous + difference) rest

def encode (enabled : Bool) (elements : List (Word width)) : List (Word width) :=
  if enabled then (differences 0 elements).map ZigZag.encode else elements

def decode (enabled : Bool) (words : List (Word width)) : List (Word width) :=
  if enabled then sums 0 (words.map ZigZag.decode) else words

@[simp] theorem differences_length (previous : Word width) (elements : List (Word width)) :
    (differences previous elements).length = elements.length := by
  induction elements generalizing previous with
  | nil => rfl
  | cons element rest ih => simp [differences, ih]

@[simp] theorem sums_length (previous : Word width) (elements : List (Word width)) :
    (sums previous elements).length = elements.length := by
  induction elements generalizing previous with
  | nil => rfl
  | cons element rest ih => simp [sums, ih]

@[simp] theorem encode_length (enabled : Bool) (elements : List (Word width)) :
    (encode enabled elements).length = elements.length := by
  cases enabled <;> simp [encode]

@[simp] theorem decode_length (enabled : Bool) (words : List (Word width)) :
    (decode enabled words).length = words.length := by
  cases enabled <;> simp [decode]

theorem sums_differences (previous : Word width) (elements : List (Word width)) :
    sums previous (differences previous elements) = elements := by
  induction elements generalizing previous with
  | nil => rfl
  | cons element rest ih =>
      have step : previous + (element - previous) = element := by
        rw [BitVec.add_comm, BitVec.sub_add_cancel]
      rw [differences, sums, step, ih]

theorem differences_sums (previous : Word width) (elements : List (Word width)) :
    differences previous (sums previous elements) = elements := by
  induction elements generalizing previous with
  | nil => rfl
  | cons difference rest ih =>
      have step : previous + difference - previous = difference := by
        rw [BitVec.add_comm, BitVec.add_sub_cancel]
      rw [sums, differences, step, ih]

end Delta

end SeriesCodec
