import SeriesCodec.Zstandard.Block

/-!
# Frames

A compressed byte string is a sequence of frames, and its content is the
content of the frames one after the other.
-/

namespace SeriesCodec

namespace Zstandard

namespace Frame

def read (room : Nat) (input : Bytes) : Except Fault (Bytes × Bytes) :=
  match Header.read input with
  | .error fault => .error fault
  | .ok (size, body) =>
      match Block.readAll room body with
      | .error fault => .error fault
      | .ok (content, rest) =>
          if size.getD content.length = content.length then
            .ok (content, rest)
          else .error .corrupted

theorem read_rest_length {room : Nat} {input content rest : Bytes}
    (done : read room input = .ok (content, rest)) : rest.length < input.length := by
  unfold read at done
  split at done
  · simp at done
  · rename_i size body opened
    split at done
    · simp at done
    · rename_i content' rest' blocks
      split at done
      · simp only [Except.ok.injEq, Prod.mk.injEq] at done
        have headerShorter := Header.read_rest_length opened
        have blocksShorter := Block.readAll_rest_length blocks
        rw [← done.2]
        omega
      · simp at done

/-- Behind a frame, bytes that start no other frame are bytes too many. -/
def laterFault : Fault → Fault
  | .unknownFrame => .sourceSize
  | fault => fault

/-- The content of all frames, where `seen` tells whether one has been read. -/
def readAll (seen : Bool) (room : Nat) (input : Bytes) : Except Fault Bytes :=
  if input.length < leastFrame then
    if input.length = 0 then .ok [] else .error .sourceSize
  else
    match done : read room input with
    | .error fault => .error (if seen then laterFault fault else fault)
    | .ok (content, rest) => do
        have : rest.length < input.length := read_rest_length done
        let others ← readAll true (room - content.length) rest
        pure (content ++ others)
termination_by input.length

def write (content : Bytes) : Bytes :=
  Header.write content.length ++ Block.write content

end Frame

end Zstandard

end SeriesCodec
