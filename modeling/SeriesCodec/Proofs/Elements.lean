import Mathlib.Algebra.Group.Int.Defs
import SeriesCodec.Proofs.Fallible
import SeriesCodec.Proofs.Framed.Cursor
import SeriesCodec.Proofs.LittleEndian

/-!
# Series and their bytes

The bytes of a series say which series it is, and whole lengths are the ones that have
one.  Where a byte stands says which byte of which element it is, least significant first
and negative elements in two's complement.  A series is written to the front of every
destination with room for it, and what lies behind is left alone.
-/

namespace SeriesCodec

namespace Word

variable {width : ElementWidth}

theorem ofInt_natCast (number : Nat) : UInt8.ofInt number = UInt8.ofNat number := by
  have low : ((number : Int) % 2 ^ 8).toNat = number % UInt8.size := rfl
  rw [UInt8.ofInt, low, UInt8.ofNat_mod_size]

/-- From every place on there is a byte left, and what is above it. -/
theorem two_pow_bits_split {place : Nat} (inside : place < width.bytes) :
    2 ^ width.bits = 256 ^ place * (256 * 256 ^ (width.bytes - place - 1)) := by
  have places : width.bytes = place + (width.bytes - place - 1 + 1) := by omega
  rw [ElementWidth.bits, Nat.pow_mul, ← Nat.pow_succ', ← Nat.pow_add, ← places]

/-- Read with a sign or without, a word has the same bytes: the sign is above them all. -/
theorem ofInt_toInt_ediv (word : Word width) {place : Nat} (inside : place < width.bytes) :
    UInt8.ofInt (word.toInt / 256 ^ place) = UInt8.ofNat (word.toNat / 256 ^ place) := by
  have unsigned : UInt8.ofInt ((word.toNat : Int) / 256 ^ place) =
      UInt8.ofNat (word.toNat / 256 ^ place) := ofInt_natCast (word.toNat / 256 ^ place)
  rw [BitVec.toInt_eq_msb_cond]
  -- What the sign takes off is a multiple of 256 once the bytes below the place are gone.
  split
  · have positive : (256 : Int) ^ place ≠ 0 := Int.ne_of_gt (Int.pow_pos (by decide))
    have base : ((256 : Nat) : Int) = 256 := rfl
    have lost : UInt8.ofInt 256 = 0 := rfl
    rw [two_pow_bits_split inside, Int.natCast_mul, Int.natCast_pow, Int.natCast_mul, base,
      Int.sub_eq_add_neg, ← Int.mul_neg, Int.add_mul_ediv_left _ _ positive, ← Int.mul_neg,
      UInt8.ofInt_add, UInt8.ofInt_mul, lost, UInt8.zero_mul, UInt8.add_zero]
    exact unsigned
  · exact unsigned

theorem getElem?_toBytes (word : Word width) {place : Nat} (inside : place < width.bytes) :
    (toBytes word)[place]? = some (UInt8.ofInt (word.toInt / 256 ^ place)) := by
  rw [toBytes, LittleEndian.encode_eq_map, ofInt_toInt_ediv word inside, List.getElem?_map,
    List.getElem?_range inside]
  rfl

end Word

namespace Elements

variable {width : ElementWidth}

/-- Bytes are read as the series that they are the bytes of. -/
theorem ofBytes_eq_ok_iff {bytes : Bytes} {elements : List (Word width)} :
    ofBytes width bytes = .ok elements ↔ bytes = toBytes elements := by
  rw [ofBytes, Fallible.bind_eq_ok_iff]
  constructor
  · rintro ⟨⟨⟩, checked, taken⟩
    cases taken
    have whole := (checkWhole_eq_ok_iff _).mp checked
    exact (toBytes_take _ _ (Nat.div_mul_cancel (Nat.dvd_of_mod_eq_zero whole)).symm).symm
  · rintro rfl
    have size := toBytes_length elements
    have back := take_toBytes elements []
    rw [List.append_nil] at back
    refine ⟨(), (checkWhole_eq_ok_iff _).mpr ?_, ?_⟩
    · rw [size, Nat.mul_mod_left]
    · rw [size, Nat.mul_div_cancel _ width.bytes_pos, back]
      rfl

theorem toBytes_injective {elements others : List (Word width)}
    (same : toBytes elements = toBytes others) : elements = others := by
  have back := ofBytes_eq_ok_iff.mpr same
  exact Except.ok.inj ((ofBytes_eq_ok_iff.mpr rfl).symm.trans back)

/-- Bytes are the bytes of a series exactly if there is a whole number of them. -/
theorem ofBytes_isOk_iff {bytes : Bytes} :
    (∃ elements : List (Word width), ofBytes width bytes = .ok elements) ↔
      width.bytes ∣ bytes.length := by
  constructor
  · rintro ⟨elements, read⟩
    rw [ofBytes_eq_ok_iff.mp read, toBytes_length]
    exact Nat.dvd_mul_left _ _
  · intro whole
    exact ⟨_, ofBytes_eq_ok_iff.mpr (toBytes_take _ _ (Nat.div_mul_cancel whole).symm).symm⟩

/-- Every byte of a series is known from its place. -/
theorem getElem?_toBytes (elements : List (Word width)) (index : Nat) :
    (toBytes elements)[index]? = elements[index / width.bytes]?.map fun element =>
      UInt8.ofInt (element.toInt / 256 ^ (index % width.bytes)) := by
  induction elements generalizing index with
  | nil => rfl
  | cons element rest ih =>
      have parts : toBytes (element :: rest) = Word.toBytes element ++ toBytes rest := rfl
      rw [parts]
      rcases Nat.lt_or_ge index width.bytes with first | later
      · rw [List.getElem?_append_left (by rwa [Word.toBytes_length]),
          Word.getElem?_toBytes element first, Nat.div_eq_of_lt first, Nat.mod_eq_of_lt first]
        rfl
      · obtain ⟨behind, rfl⟩ : ∃ behind, index = behind + width.bytes :=
          ⟨_, (Nat.sub_add_cancel later).symm⟩
        rw [List.getElem?_append_right (by rwa [Word.toBytes_length]), Word.toBytes_length,
          Nat.add_sub_cancel, ih, Nat.add_div_right _ width.bytes_pos, Nat.add_mod_right,
          List.getElem?_cons_succ]

theorem toBytesWithin_eq_ok_iff {capacity : Nat} {elements : List (Word width)}
    {output : Bytes} :
    toBytesWithin capacity elements = .ok output ↔
      elements.length * width.bytes ≤ capacity ∧ output = toBytes elements := by
  rw [toBytesWithin]
  by_cases short : capacity < elements.length * width.bytes
  · rw [if_pos short]
    constructor
    · intro impossible
      cases impossible
    · rintro ⟨room, _⟩
      exact absurd room (Nat.not_le_of_lt short)
  · rw [if_neg short]
    constructor
    · intro written
      cases written
      exact ⟨Nat.le_of_not_lt short, rfl⟩
    · rintro ⟨_, rfl⟩
      rfl

theorem front_toBytes (destination : Bytes) (elements : List (Word width)) :
    Written.front destination (toBytes elements) =
      ⟨elements.length * width.bytes,
        toBytes elements ++ destination.drop (elements.length * width.bytes)⟩ := by
  rw [Written.front, Bytes.overwrite, toBytes_length]

theorem writeInto_eq_ok_iff {destination : Bytes} {elements : List (Word width)}
    {answer : Written} :
    writeInto destination elements = .ok answer ↔
      elements.length * width.bytes ≤ destination.length ∧
        answer = ⟨elements.length * width.bytes,
          toBytes elements ++ destination.drop (elements.length * width.bytes)⟩ := by
  rw [writeInto, Fallible.map_eq_ok_iff, ← front_toBytes]
  constructor
  · rintro ⟨output, written, rfl⟩
    obtain ⟨room, rfl⟩ := toBytesWithin_eq_ok_iff.mp written
    exact ⟨room, rfl⟩
  · rintro ⟨room, rfl⟩
    exact ⟨_, toBytesWithin_eq_ok_iff.mpr ⟨room, rfl⟩, rfl⟩

/--
A series and its bytes stand for each other: what is stored is read back, and what is
read is what is stored, wherever the length is a whole number of elements.  The bytes lie
in the order of the elements, each of them a digit of its element's signed reading to the
base of 256.  With room for all of them a series is written to the front of a
destination, chunk by chunk, and without room it is not written.
-/
theorem bytes_and_elements_correspond (width : ElementWidth) :
    (∀ elements : List (Word width), ofBytes width (toBytes elements) = .ok elements) ∧
    (∀ bytes : Bytes,
      ((∃ elements, ofBytes width bytes = .ok elements) ↔ width.bytes ∣ bytes.length) ∧
      ∀ elements, ofBytes width bytes = .ok elements ↔ bytes = toBytes elements) ∧
    ∀ elements : List (Word width),
      (∀ index, (toBytes elements)[index]? = elements[index / width.bytes]?.map fun element =>
        UInt8.ofInt (element.toInt / 256 ^ (index % width.bytes))) ∧
      ∀ destination : Bytes,
        Walk.Follows (Framed.Cursor.writeInto destination elements)
          (writeInto destination elements) ∧
        ∀ answer, writeInto destination elements = .ok answer ↔
          elements.length * width.bytes ≤ destination.length ∧
            answer = ⟨elements.length * width.bytes,
              toBytes elements ++ destination.drop (elements.length * width.bytes)⟩ := by
  refine ⟨fun _ => ofBytes_eq_ok_iff.mpr rfl, ?_, ?_⟩
  · intro bytes
    exact ⟨ofBytes_isOk_iff, fun _ => ofBytes_eq_ok_iff⟩
  · intro elements
    refine ⟨getElem?_toBytes elements, ?_⟩
    intro destination
    exact ⟨Framed.Cursor.writeInto_follows destination elements, fun _ => writeInto_eq_ok_iff⟩

/-- Two elements of two bytes, of which the first one is negative, in front of one byte more. -/
example : writeInto [1, 2, 3, 4, 5] ([0xFFFE, 0x0102] : List (Word .two)) =
    .ok ⟨4, [0xFE, 0xFF, 2, 1, 5]⟩ := by decide

end Elements

end SeriesCodec
