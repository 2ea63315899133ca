import SeriesCodec.Proofs.Compressor
import SeriesCodec.Proofs.Fallible
import SeriesCodec.Zstandard.Compressor

/-!
# Frames that store their content

A written frame is read back, whatever its content and however many blocks it
takes, and it is within the declared bound: a header is added in the bytes of
a whole block, and the bound allows for far more than that.
-/

namespace SeriesCodec

namespace Zstandard

/-! ## Headers -/

namespace Header

/-- The header of a single segment without a dictionary ends behind the content size. -/
theorem read_magic {byte : UInt8} {length : Nat} {field body : Bytes}
    (descriptor : Descriptor.ofByte byte = ⟨true, false, 0, length⟩)
    (recorded : field.length = length) (some : 0 < length)
    (enough : blockHeaderSize ≤ body.length) :
    read (magic ++ byte :: field ++ body) = .ok (contentSizeOf field, body) := by
  have whole : (magic ++ byte :: field ++ body).length = 5 + length + body.length := by
    simp only [magic, List.length_append, List.length_cons, List.length_nil]
    omega
  have size : Descriptor.headerSize ⟨true, false, 0, length⟩ = 5 + length := rfl
  have behind : (magic ++ byte :: field ++ body).drop (5 + length) = body := by
    have front : (magic ++ byte :: field).length = 5 + length := by
      simp only [magic, List.length_append, List.length_cons, List.length_nil]
      omega
    rw [← front, List.drop_left]
  have content : contentSize ⟨true, false, 0, length⟩ (magic ++ byte :: field ++ body) =
      contentSizeOf field := by
    rw [← recorded]
    exact congrArg contentSizeOf List.take_left
  have found : (magic ++ byte :: field ++ body).getD magic.length 0 = byte := rfl
  have start : (magic ++ byte :: field ++ body).take magic.length = magic := rfl
  have least : leastFrame + 4 = 9 := rfl
  have room : blockHeaderSize = 3 := rfl
  simp only [read, found, descriptor, size, content, behind, start]
  rw [if_neg (by omega), if_neg (by omega), if_neg (fun other => other rfl)]
  rfl

theorem contentSizeOf_encode (length : Nat) {size : Nat} (positive : length ≠ 0) (other : length ≠ 2)
    (small : size < LittleEndian.bound length) (known : size < UInt64.size - 1) :
    contentSizeOf (LittleEndian.encode length size) = some size := by
  have value := LittleEndian.value_encode_of_lt small
  rw [contentSizeOf, LittleEndian.encode_length, if_neg positive, if_neg other, value,
    if_neg (Nat.ne_of_lt known)]

/-- The field of two bytes does not count the first 256 sizes. -/
theorem contentSizeOf_encode_two {size : Nat} (least : 256 ≤ size) (small : size < 65536 + 256) :
    contentSizeOf (LittleEndian.encode 2 (size - 256)) = some size := by
  have value : LittleEndian.value (LittleEndian.encode 2 (size - 256)) = size - 256 :=
    LittleEndian.value_encode_of_lt (Nat.sub_lt_right_of_lt_add least small)
  rw [contentSizeOf, LittleEndian.encode_length, if_neg (by decide), if_pos rfl, value,
    Nat.sub_add_cancel least]

theorem read_write {size : Nat} {body : Bytes} (known : size < UInt64.size - 1)
    (enough : blockHeaderSize ≤ body.length) :
    read (write size ++ body) = .ok (some size, body) := by
  rw [write]
  split
  next small =>
    rw [read_magic rfl (LittleEndian.encode_length 1 size) (by decide) enough,
      contentSizeOf_encode 1 (by decide) (by decide) small known]
  split
  next least small =>
    rw [read_magic rfl (LittleEndian.encode_length 2 _) (by decide) enough,
      contentSizeOf_encode_two (Nat.le_of_not_lt least) small]
  split
  next small =>
    rw [read_magic rfl (LittleEndian.encode_length 4 size) (by decide) enough,
      contentSizeOf_encode 4 (by decide) (by decide) small known]
  next =>
    have small : size < LittleEndian.bound 8 := Nat.lt_of_lt_of_le known (by decide)
    rw [read_magic rfl (LittleEndian.encode_length 8 size) (by decide) enough,
      contentSizeOf_encode 8 (by decide) (by decide) small known]

theorem write_length_le (size : Nat) : (write size).length ≤ 13 := by
  rw [write, List.length_append]
  repeat' split
  all_goals simp [magic]

theorem least_le_write_length (size : Nat) : 6 ≤ (write size).length := by
  rw [write, List.length_append]
  repeat' split
  all_goals simp [magic]

end Header

/-! ## Blocks -/

namespace BlockHeader

@[simp] theorem stored_length (last : Bool) (size : Nat) :
    (stored last size).length = blockHeaderSize :=
  LittleEndian.encode_length _ _

theorem read?_stored (last : Bool) {size : Nat} (small : size ≤ greatestBlock) (body : Bytes) :
    read? (stored last size ++ body) = some (⟨last, .stored, size⟩, body) := by
  have value : LittleEndian.value (stored last size) = 8 * size + if last then 1 else 0 := by
    apply LittleEndian.value_encode_of_lt
    calc
      8 * size + (if last then 1 else 0) ≤ 8 * greatestBlock + 1 := by split <;> omega
      _ < LittleEndian.bound blockHeaderSize := by decide
  have split : Bytes.splitExact? blockHeaderSize (stored last size ++ body) =
      some (stored last size, body) :=
    Bytes.splitExact?_eq_some_iff.mpr ⟨rfl, stored_length last size⟩
  have kind : (8 * size + if last then 1 else 0) / 2 % 4 = 0 := by split <;> omega
  have length : (8 * size + if last then 1 else 0) / 8 = size := by split <;> omega
  have final : decide ((8 * size + if last then 1 else 0) % 2 = 1) = last := by
    cases last <;> simp <;> omega
  simp only [read?, split, ofNat, value, kind, length, final]

end BlockHeader

namespace Block

theorem read_stored {room : Nat} {content : Bytes} (fits : content.length ≤ room) (rest : Bytes) :
    read room .stored content.length (content ++ rest) = .ok (content, rest) := by
  rw [read, if_neg (by rw [List.length_append]; omega), if_neg (Nat.not_lt_of_le fits),
    List.take_left, List.drop_left]

/-- The blocks behind a block that is read matter unless it is the last one. -/
theorem readAll_step {room : Nat} {input body content rest : Bytes} {header : BlockHeader}
    (opened : BlockHeader.read? input = some (header, body))
    (done : read room header.kind header.size body = .ok (content, rest)) :
    readAll room input =
      if header.last then .ok (content, rest)
      else (readAll (room - content.length) rest).map fun (others, behind) =>
        (content ++ others, behind) := by
  rw [readAll]
  split
  next closed =>
    rw [opened] at closed
    cases closed
  next again =>
    rw [opened] at again
    cases again
    split
    next failed =>
      rw [done] at failed
      cases failed
    next found =>
      rw [done] at found
      cases found
      cases readAll (room - content.length) rest <;> rfl

theorem readAll_stored (last : Bool) {room : Nat} {content : Bytes}
    (small : content.length ≤ greatestBlock) (fits : content.length ≤ room) (rest : Bytes) :
    readAll room (BlockHeader.stored last content.length ++ content ++ rest) =
      if last then .ok (content, rest)
      else (readAll (room - content.length) rest).map fun (others, behind) =>
        (content ++ others, behind) := by
  rw [List.append_assoc]
  exact readAll_step (BlockHeader.read?_stored last small _) (read_stored fits rest)

theorem blockHeaderSize_le_write_length (content : Bytes) :
    blockHeaderSize ≤ (write content).length := by
  rw [write]
  split <;> simp only [List.length_append, BlockHeader.stored_length] <;> omega

/-- Written blocks are read up to the last one, wherever the content has been cut. -/
theorem readAll_write {content : Bytes} {room : Nat} (fits : content.length ≤ room) (rest : Bytes) :
    readAll room (write content ++ rest) = .ok (content, rest) := by
  fun_induction write content generalizing room with
  | case1 content small => exact readAll_stored true small fits rest
  | case2 content large ih =>
      -- The room decreases by a whole block, and so does what is left to be read.
      have first : (content.take greatestBlock).length = greatestBlock :=
        List.length_take_of_le (Nat.le_of_not_le large)
      have others : (content.drop greatestBlock).length ≤ room - greatestBlock := by
        rw [List.length_drop]
        omega
      have here : (content.take greatestBlock).length ≤ room := by omega
      have step := readAll_stored false (Nat.le_of_eq first) here
        (write (content.drop greatestBlock) ++ rest)
      rw [first, ih others, if_neg nofun] at step
      rw [List.append_assoc, step]
      simp only [Except.map, List.take_append_drop]

/-- Every block but the last is full, so a further header comes with that many bytes. -/
theorem write_length_le (content : Bytes) :
    (write content).length ≤
      content.length + blockHeaderSize * (content.length / greatestBlock + 1) := by
  show (write content).length ≤ content.length + 3 * (content.length / 131072 + 1)
  have block : greatestBlock = 131072 := rfl
  have header : blockHeaderSize = 3 := rfl
  fun_induction write content with
  | case1 content small =>
      rw [List.length_append, BlockHeader.stored_length]
      omega
  | case2 content large ih =>
      rw [List.length_drop] at ih
      rw [List.length_append, List.length_append, BlockHeader.stored_length, List.length_take]
      omega

end Block

/-! ## Frames -/

namespace Frame

theorem write_length_le (content : Bytes) :
    (write content).length ≤
      content.length + blockHeaderSize * (content.length / greatestBlock + 1) + 13 := by
  have front := Header.write_length_le content.length
  have blocks := Block.write_length_le content
  rw [write, List.length_append]
  omega

theorem read_write {content : Bytes} {room : Nat} (known : content.length < UInt64.size - 1)
    (fits : content.length ≤ room) : read room (write content) = .ok (content, []) := by
  have blocks := Block.readAll_write fits []
  rw [List.append_nil] at blocks
  rw [read, write, Header.read_write known (Block.blockHeaderSize_le_write_length content)]
  simp only [blocks, Option.getD_some, if_true]

/-- A written frame is the only one in its byte string. -/
theorem readAll_write {content : Bytes} {room : Nat} (known : content.length < UInt64.size - 1)
    (fits : content.length ≤ room) (seen : Bool) :
    readAll seen room (write content) = .ok content := by
  have least : leastFrame ≤ (write content).length := by
    rw [write, List.length_append]
    exact Nat.le_add_right_of_le (Nat.le_of_succ_le (Header.least_le_write_length _))
  have none : ∀ room, readAll true room [] = .ok [] := by
    intro room
    rw [readAll]
    rfl
  have done := read_write known fits
  rw [readAll, if_neg (Nat.not_lt_of_le least)]
  split
  next failed =>
    rw [done] at failed
    cases failed
  next found =>
    rw [done] at found
    cases found
    rw [none, Fallible.ok_bind, List.append_nil]
    rfl

end Frame

/-! ## The compressor -/

theorem compressor_takesAll : compressor.TakesAll :=
  fun plain _ => ⟨Frame.write plain, rfl⟩

/-- A byte string is given back as long as its size can be recorded. -/
theorem compressor_losslessUpTo : compressor.LosslessUpTo (UInt64.size - 2) := by
  intro plain level compressed limit recordable stored fits
  cases stored
  exact Fallible.mapError_eq_ok_iff.mpr
    (Frame.readAll_write (Nat.lt_of_le_of_lt recordable (by decide)) fits false)

theorem maxCompressedSize_of_small {length : Nat} (small : length < greatestBlock) :
    maxCompressedSize length = length + length / 256 + (greatestBlock - length) / 2048 := by
  have accepted : ¬refusedLength ≤ length := Nat.not_le_of_lt (Nat.lt_trans small (by decide))
  rw [maxCompressedSize, if_neg accepted, if_pos small]

theorem maxCompressedSize_of_large {length : Nat} (large : greatestBlock ≤ length)
    (accepted : length < refusedLength) : maxCompressedSize length = length + length / 256 := by
  rw [maxCompressedSize, if_neg (Nat.not_le_of_lt accepted), if_neg (Nat.not_lt_of_le large)]
  rfl

theorem write_length_le_maxCompressedSize {plain : Bytes} (accepted : plain.length < refusedLength) :
    (Frame.write plain).length ≤ maxCompressedSize plain.length := by
  have size : (Frame.write plain).length ≤ plain.length + 3 * (plain.length / 131072 + 1) + 13 :=
    Frame.write_length_le plain
  have block : greatestBlock = 131072 := rfl
  rcases Nat.lt_or_ge plain.length greatestBlock with small | large
  · rw [maxCompressedSize_of_small small]
    omega
  · rw [maxCompressedSize_of_large large accepted]
    omega

/-- The allowance for short contents decreases more slowly than the lengths increase. -/
theorem maxCompressedSize_mono {shorter longer : Nat} (le : shorter ≤ longer)
    (accepted : longer < refusedLength) : maxCompressedSize shorter ≤ maxCompressedSize longer := by
  have block : greatestBlock = 131072 := rfl
  rcases Nat.lt_or_ge longer greatestBlock with small | large
  · rw [maxCompressedSize_of_small small, maxCompressedSize_of_small (Nat.lt_of_le_of_lt le small)]
    omega
  · rw [maxCompressedSize_of_large large accepted]
    rcases Nat.lt_or_ge shorter greatestBlock with smallShorter | largeShorter
    · rw [maxCompressedSize_of_small smallShorter]
      omega
    · rw [maxCompressedSize_of_large largeShorter (Nat.lt_of_le_of_lt le accepted)]
      omega

/-- The declared bound holds below the lengths for which it is refused. -/
theorem compressor_boundedUpTo {greatest : Nat} (accepted : greatest < refusedLength) :
    compressor.BoundedUpTo greatest where
  fits plain level compressed short stored := by
    cases stored
    exact write_length_le_maxCompressedSize (Nat.lt_of_le_of_lt short accepted)
  mono _ _ le short := maxCompressedSize_mono le (Nat.lt_of_le_of_lt short accepted)

end Zstandard

end SeriesCodec
