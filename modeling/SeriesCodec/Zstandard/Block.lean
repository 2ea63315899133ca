import SeriesCodec.Zstandard.Header

/-!
# Blocks

The content of a frame is cut into blocks.  A block header of three bytes says
whether the block is the last one, how it is represented and how large it is.
Only blocks that are stored, or that repeat one byte, are understood here.
-/

namespace SeriesCodec

namespace Zstandard

inductive BlockKind where
  | stored
  /-- One byte, to be repeated. -/
  | repeated
  /-- Entropy codes, not understood here. -/
  | compressed
  | reserved
  deriving DecidableEq, Repr

structure BlockHeader where
  last : Bool
  kind : BlockKind
  size : Nat
  deriving DecidableEq, Repr

namespace BlockHeader

def ofNat (number : Nat) : BlockHeader where
  last := number % 2 = 1
  kind := match number / 2 % 4 with
    | 0 => .stored
    | 1 => .repeated
    | 2 => .compressed
    | _ => .reserved
  size := number / 8

def read? (input : Bytes) : Option (BlockHeader × Bytes) :=
  match Bytes.splitExact? blockHeaderSize input with
  | none => none
  | some (field, body) => some (ofNat (LittleEndian.value field), body)

def stored (last : Bool) (size : Nat) : Bytes :=
  LittleEndian.encode blockHeaderSize (8 * size + if last then 1 else 0)

theorem read?_rest_length {input body : Bytes} {header : BlockHeader}
    (opened : read? input = some (header, body)) : body.length < input.length := by
  unfold read? at opened
  split at opened
  · simp at opened
  · rename_i field rest split
    simp only [Option.some.injEq, Prod.mk.injEq] at opened
    rw [← opened.2]
    exact Bytes.splitExact?_rest_length split (by decide)

end BlockHeader

namespace Block

/--
The content of one block at the front of `input`, and the bytes behind it.
The content must not exceed `room`.
-/
def read (room : Nat) (kind : BlockKind) (size : Nat) (input : Bytes) :
    Except Fault (Bytes × Bytes) :=
  match kind with
  | .stored =>
      if input.length < size then .error .sourceSize
      else if room < size then .error .destinationTooSmall
      else .ok (input.take size, input.drop size)
  | .repeated =>
      match input with
      | [] => .error .sourceSize
      | byte :: rest =>
          if room < size then .error .destinationTooSmall
          else .ok (List.replicate size byte, rest)
  | .compressed =>
      if input.length < size then .error .sourceSize else .error .corrupted
  | .reserved => .error .corrupted

theorem read_rest_length {room size : Nat} {kind : BlockKind}
    {input content rest : Bytes}
    (done : read room kind size input = .ok (content, rest)) :
    rest.length ≤ input.length := by
  unfold read at done
  split at done
  · repeat' split at done
    all_goals simp only [reduceCtorEq, Except.ok.injEq, Prod.mk.injEq] at done
    rw [← done.2, List.length_drop]
    omega
  · repeat' split at done
    all_goals simp only [reduceCtorEq, Except.ok.injEq, Prod.mk.injEq] at done
    rw [← done.2, List.length_cons]
    omega
  · split at done <;> simp at done
  · simp at done

def readAll (room : Nat) (input : Bytes) : Except Fault (Bytes × Bytes) :=
  match opened : BlockHeader.read? input with
  | none => .error .sourceSize
  | some (header, body) =>
      match done : read room header.kind header.size body with
      | .error fault => .error fault
      | .ok (content, rest) =>
          have : rest.length < input.length :=
            Nat.lt_of_le_of_lt (read_rest_length done)
              (BlockHeader.read?_rest_length opened)
          if header.last then .ok (content, rest)
          else do
            let (others, behind) ← readAll (room - content.length) rest
            pure (content ++ others, behind)
termination_by input.length

theorem readAll_rest_length {room : Nat} {input content rest : Bytes}
    (done : readAll room input = .ok (content, rest)) :
    rest.length ≤ input.length := by
  fun_induction readAll room input generalizing content rest with
  | case1 => simp at done
  | case2 => simp at done
  | case3 room input header body opened content' rest' read shorter last =>
      simp only [Except.ok.injEq, Prod.mk.injEq] at done
      rw [← done.2]
      omega
  | case4 room input header body opened content' rest' read shorter last ih =>
      simp only [bind, Except.bind, pure, Except.pure] at done
      split at done
      · simp at done
      · rename_i answer more
        have inner := ih more
        simp only [Except.ok.injEq, Prod.mk.injEq] at done
        rw [← done.2]
        omega

/-- Stored blocks for `content`, cut into blocks of the greatest size. -/
def write (content : Bytes) : Bytes :=
  if content.length ≤ greatestBlock then
    BlockHeader.stored true content.length ++ content
  else
    BlockHeader.stored false greatestBlock ++ content.take greatestBlock ++
      write (content.drop greatestBlock)
termination_by content.length
decreasing_by
  have positive : 0 < greatestBlock := by decide
  rw [List.length_drop]
  omega

end Block

end Zstandard

end SeriesCodec
