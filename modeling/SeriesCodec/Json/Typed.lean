import SeriesCodec.Json.Number
import SeriesCodec.Json.Text

/-!
# Values of a known type

Where a document has to hold a value of one type, a value of another type is
read far enough to be shown in the fault.  Texts and numbers are read to their
end for that, while an array or object is shown by its kind alone.
-/

namespace SeriesCodec

namespace Json

def identifierFault (expected : Expected) (found : Found)
    (identifier chars : List Char) : Fault :=
  match readIdentifier identifier chars with
  | .ok _ => .wrongType found expected
  | .error fault => fault

def wrongType (expected : Expected) : List Char → Fault
  | [] => .ended .value
  | 'n' :: rest => identifierFault expected .null ['u', 'l', 'l'] rest
  | 't' :: rest => identifierFault expected (.boolean true) ['r', 'u', 'e'] rest
  | 'f' :: rest =>
      identifierFault expected (.boolean false) ['a', 'l', 's', 'e'] rest
  | '[' :: _ => .wrongType .array expected
  | '\x7b' :: _ => .wrongType .object expected
  | '"' :: rest =>
      match readText rest with
      | .ok (content, _) => .wrongType (.text (String.ofList content)) expected
      | .error fault => fault
  | char :: rest =>
      if char = '-' ∨ isDigit char then
        match readNumber (char :: rest) with
        | .ok (number, _) => .wrongType number.found expected
        | .error fault => fault
      else .expectedValue

def readBool (chars : List Char) : Except Fault (Bool × List Char) :=
  match skipBlanks chars with
  | 't' :: rest => (readIdentifier ['r', 'u', 'e'] rest).map fun behind => (true, behind)
  | 'f' :: rest =>
      (readIdentifier ['a', 'l', 's', 'e'] rest).map fun behind => (false, behind)
  | others => .error (wrongType .boolean others)

def wordOf : Number → Except Fault UInt32
  | .integer value =>
      if 0 ≤ value ∧ value < UInt32.size then .ok (UInt32.ofNat value.toNat)
      else .error (.wrongValue (.integer value) .word)
  | .real value => .error (.wrongType (.real value) .word)

def readWord (chars : List Char) : Except Fault (UInt32 × List Char) :=
  match skipBlanks chars with
  | [] => .error (.ended .value)
  | char :: rest =>
      if char = '-' ∨ isDigit char then do
        let (number, behind) ← readNumber (char :: rest)
        let word ← wordOf number
        pure (word, behind)
      else .error (wrongType .word (char :: rest))

theorem readBool_rest_length {chars rest : List Char} {value : Bool}
    (done : readBool chars = .ok (value, rest)) : rest.length < chars.length := by
  have blanks := skipBlanks_length_le chars
  unfold readBool at done
  split at done
  · rename_i others front
    cases read : readIdentifier ['r', 'u', 'e'] others with
    | error fault => simp [read, Except.map] at done
    | ok behind =>
        have shorter := readIdentifier_rest_length read
        simp only [read, Except.map, Except.ok.injEq, Prod.mk.injEq] at done
        rw [front, List.length_cons] at blanks
        rw [← done.2]
        omega
  · rename_i others front
    cases read : readIdentifier ['a', 'l', 's', 'e'] others with
    | error fault => simp [read, Except.map] at done
    | ok behind =>
        have shorter := readIdentifier_rest_length read
        simp only [read, Except.map, Except.ok.injEq, Prod.mk.injEq] at done
        rw [front, List.length_cons] at blanks
        rw [← done.2]
        omega
  · simp at done

theorem readWord_rest_length {chars rest : List Char} {value : UInt32}
    (done : readWord chars = .ok (value, rest)) : rest.length < chars.length := by
  have blanks := skipBlanks_length_le chars
  unfold readWord at done
  split at done
  · simp at done
  · rename_i char others front
    rw [front] at blanks
    split at done
    · simp only [bind, Except.bind, pure, Except.pure] at done
      split at done
      · simp at done
      · rename_i numberRead
        have shorter := readNumber_rest_length numberRead
        split at done
        · simp at done
        · simp only [Except.ok.injEq, Prod.mk.injEq] at done
          rw [← done.2]
          omega
    · simp at done

end Json

end SeriesCodec
