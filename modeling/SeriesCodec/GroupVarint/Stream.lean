import SeriesCodec.GroupVarint.Fault
import SeriesCodec.GroupVarint.Key

/-!
# Packed streams

A packed stream is a block of keys followed by a block of data.  The data are
the low bytes of the elements in order, each element with the length that its
key records and nothing between them.  The stream does not record the number
of its elements, so a reader has to know it.

Writing gives every element its least length.  Reading accepts longer ones up
to the element width, looks only at the slots that are in use, and refuses a
stream that ends early or goes on behind the last element.
-/

namespace SeriesCodec

namespace GroupVarint

variable {width : ElementWidth}

def minimalLengths (elements : List (Word width)) : List Nat :=
  elements.map Word.significantBytes

/-- The data block: the significant bytes of every element. -/
def dataOf (elements : List (Word width)) : Bytes :=
  elements.flatMap fun element =>
    Word.lowBytes element (Word.significantBytes element)

def encode (elements : List (Word width)) : Bytes :=
  keysOf width (keyCount width elements.length) (minimalLengths elements) ++
    dataOf elements

/-- A buffer with the packed stream of a series behind its contents. -/
def append (buffer : Bytes) (elements : List (Word width)) : Bytes :=
  buffer ++ encode elements

def readWords (width : ElementWidth) :
    (lengths : List Nat) → (data : Bytes) → List (Word width)
  | [], _ => []
  | length :: rest, data =>
      Word.ofBytes (data.take length) ::
        readWords width rest (data.drop length)

/--
The elements of the groups described by `keys`.  `count` elements are still to
be read, and the first of their bytes stands at `offset` in the stream.
-/
def decodeGroups (width : ElementWidth) :
    (keys : Bytes) → (count offset : Nat) → (data : Bytes) →
      Except Fault (List (Word width))
  | [], _, _, data =>
      if data.length = 0 then .ok [] else .error (.trailing data.length)
  | key :: keys, count, offset, data =>
      let lengths := lengthsOf width key (min count width.slots)
      let needed := totalLength lengths
      match lengths.find? fun length => width.bytes < length with
      | some length => .error (.overlong key length width.bytes)
      | none =>
          if data.length < needed then
            .error (.truncated offset needed data.length)
          else do
            let others ← decodeGroups width keys (count - lengths.length)
              (offset + needed) (data.drop needed)
            pure (readWords width lengths data ++ others)

def decode (width : ElementWidth) (stream : Bytes) (count : Nat) :
    Except Fault (List (Word width)) :=
  match Bytes.splitExact? (keyCount width count) stream with
  | none => .error (.truncated 0 (keyCount width count) stream.length)
  | some (keys, data) => decodeGroups width keys count keys.length data

section Groups

variable {key : UInt8} {count : Nat} (keys : Bytes) (offset : Nat) {data : Bytes}

/-- A group is refused for its first overlong length. -/
theorem decodeGroups_overlong {length : Nat}
    (found : ((lengthsOf width key (min count width.slots)).find? fun length =>
      width.bytes < length) = some length) :
    decodeGroups width (key :: keys) count offset data =
      .error (.overlong key length width.bytes) := by
  simp only [decodeGroups, found]

theorem decodeGroups_truncated
    (legal : ((lengthsOf width key (min count width.slots)).find? fun length =>
      width.bytes < length) = none)
    (short : data.length < totalLength (lengthsOf width key (min count width.slots))) :
    decodeGroups width (key :: keys) count offset data =
      .error (.truncated offset (totalLength (lengthsOf width key (min count width.slots)))
        data.length) := by
  simp only [decodeGroups, legal, if_pos short]

/-- A group that is neither overlong nor short is read, and the others behind it. -/
theorem decodeGroups_group
    (legal : ((lengthsOf width key (min count width.slots)).find? fun length =>
      width.bytes < length) = none)
    (enough : totalLength (lengthsOf width key (min count width.slots)) ≤ data.length) :
    decodeGroups width (key :: keys) count offset data =
      (decodeGroups width keys (count - min count width.slots)
        (offset + totalLength (lengthsOf width key (min count width.slots)))
        (data.drop (totalLength (lengthsOf width key (min count width.slots)))) >>= fun others =>
          pure (readWords width (lengthsOf width key (min count width.slots)) data ++ others)) := by
  simp only [decodeGroups, legal, if_neg (Nat.not_lt_of_le enough), lengthsOf_length]

end Groups

@[simp] theorem minimalLengths_length (elements : List (Word width)) :
    (minimalLengths elements).length = elements.length := by
  simp [minimalLengths]

theorem dataOf_length (elements : List (Word width)) :
    (dataOf elements).length = totalLength (minimalLengths elements) := by
  induction elements with
  | nil => rfl
  | cons element rest ih =>
      simp only [dataOf, minimalLengths] at ih ⊢
      simp [totalLength, ih]

theorem encode_length (elements : List (Word width)) :
    (encode elements).length =
      keyCount width elements.length + totalLength (minimalLengths elements) := by
  simp [encode, dataOf_length]

@[simp] theorem readWords_length (lengths : List Nat) (data : Bytes) :
    (readWords width lengths data).length = lengths.length := by
  induction lengths generalizing data with
  | nil => rfl
  | cons length rest ih => simp [readWords, ih]

/-- Words written with their least lengths are read back. -/
theorem readWords_dataOf (elements : List (Word width)) (rest : Bytes) :
    readWords width (minimalLengths elements) (dataOf elements ++ rest) =
      elements := by
  induction elements with
  | nil => rfl
  | cons element others ih =>
      have front : (dataOf (element :: others) ++ rest).take
          (Word.significantBytes element) =
            Word.lowBytes element (Word.significantBytes element) := by
        simp [dataOf]
      have back : (dataOf (element :: others) ++ rest).drop
          (Word.significantBytes element) = dataOf others ++ rest := by
        simp [dataOf]
      simp only [minimalLengths, List.map_cons] at ih ⊢
      rw [readWords, front, back, ih,
        Word.ofBytes_lowBytes (Nat.le_refl _) (Word.significantBytes_le element)]

end GroupVarint

end SeriesCodec
