import SeriesCodec.Json.Number
import SeriesCodec.Json.Text

/-!
# Passing over values

A value that is not needed is only checked for its form.  The arrays and
objects that are still open form a stack, so values nest to any depth and each
step looks at the front of the document only.
-/

namespace SeriesCodec

namespace Json

inductive Bracket where
  | array
  | object
  deriving DecidableEq, Repr

namespace Bracket

def close : Bracket → Char
  | array => ']'
  | object => '\x7d'

def unfinished : Bracket → Fault
  | array => .ended .array
  | object => .ended .object

/-- The fault of a value that is neither followed by another nor the last one. -/
def unseparated : Bracket → Fault
  | array => .expectedCommaOrBracket
  | object => .expectedCommaOrBrace

end Bracket

def skipScalar : List Char → Except Fault (List Char)
  | [] => .error (.ended .value)
  | 'n' :: rest => readIdentifier ['u', 'l', 'l'] rest
  | 't' :: rest => readIdentifier ['r', 'u', 'e'] rest
  | 'f' :: rest => readIdentifier ['a', 'l', 's', 'e'] rest
  | '"' :: rest => skipText rest
  | char :: rest =>
      if char = '-' ∨ isDigit char then skipNumber (char :: rest)
      else .error .expectedValue

def skipKey (chars : List Char) : Except Fault (List Char) :=
  match skipBlanks chars with
  | [] => .error (.ended .object)
  | '"' :: rest =>
      match skipText rest with
      | .error fault => .error fault
      | .ok behind => readColon behind
  | _ :: _ => .error .keyNotText

/-- What comes next while values are passed over. -/
inductive Place where
  | value
  /-- The first member of a bracket, or its end. -/
  | opened (bracket : Bracket)
  | member (bracket : Bracket)
  | behind
  deriving DecidableEq, Repr

namespace Place

/-- The number of places that may follow without a character in between. -/
def rank : Place → Nat
  | value => 0
  | opened _ => 2
  | member _ => 1
  | behind => 0

end Place

theorem skipScalar_rest_length {chars rest : List Char}
    (done : skipScalar chars = .ok rest) : rest.length < chars.length := by
  unfold skipScalar at done
  split at done
  · simp at done
  · exact Nat.lt_succ_of_le (readIdentifier_rest_length done)
  · exact Nat.lt_succ_of_le (readIdentifier_rest_length done)
  · exact Nat.lt_succ_of_le (readIdentifier_rest_length done)
  · exact Nat.lt_succ_of_lt (skipText_rest_length done)
  · split at done
    · exact skipNumber_rest_length done
    · simp at done

theorem skipKey_rest_length {chars rest : List Char}
    (done : skipKey chars = .ok rest) : rest.length < chars.length := by
  have blanks := skipBlanks_length_le chars
  unfold skipKey at done
  split at done
  · simp at done
  · rename_i others front
    rw [front, List.length_cons] at blanks
    split at done
    · simp at done
    · rename_i text
      have first := skipText_rest_length text
      have second := readColon_rest_length done
      omega
  · simp at done

theorem length_lt_of_skipBlanks {chars rest : List Char} {char : Char}
    (front : skipBlanks chars = char :: rest) : rest.length < chars.length := by
  have blanks := skipBlanks_length_le chars
  rw [front, List.length_cons] at blanks
  omega

/--
The characters behind the outermost value, where `stack` holds the brackets
around the current place from the inside out.
-/
def skip (place : Place) (stack : List Bracket) (chars : List Char) :
    Except Fault (List Char) :=
  match place with
  | .value =>
      match front : skipBlanks chars with
      | [] => .error (.ended .value)
      | '[' :: rest =>
          have := length_lt_of_skipBlanks front
          skip (.opened .array) stack rest
      | '\x7b' :: rest =>
          have := length_lt_of_skipBlanks front
          skip (.opened .object) stack rest
      | char :: others =>
          match scalar : skipScalar (char :: others) with
          | .error fault => .error fault
          | .ok rest =>
              have : rest.length < chars.length :=
                Nat.lt_of_lt_of_le (skipScalar_rest_length scalar)
                  (length_lt_of_skipBlanks front)
              skip .behind stack rest
  | .opened bracket =>
      match front : skipBlanks chars with
      | [] => .error bracket.unfinished
      | char :: rest =>
          if char = bracket.close then
            have := length_lt_of_skipBlanks front
            skip .behind stack rest
          else skip (.member bracket) stack chars
  | .member bracket =>
      match bracket with
      | .array => skip .value (.array :: stack) chars
      | .object =>
          match key : skipKey chars with
          | .error fault => .error fault
          | .ok rest =>
              have := skipKey_rest_length key
              skip .value (.object :: stack) rest
  | .behind =>
      match stack with
      | [] => .ok chars
      | bracket :: outer =>
          match front : skipBlanks chars with
          | [] => .error bracket.unfinished
          | char :: rest =>
              have := length_lt_of_skipBlanks front
              if char = ',' then skip (.member bracket) outer rest
              else if char = bracket.close then skip .behind outer rest
              else .error bracket.unseparated
termination_by (chars.length, place.rank)
decreasing_by
  all_goals
    simp only [Prod.lex_def, Place.rank, true_and]
    omega

def skipValue (chars : List Char) : Except Fault (List Char) := skip .value [] chars

/-- The least number of characters that are used up from a place on. -/
def Place.least : Place → Nat
  | .behind => 0
  | _ => 1

theorem skip_rest_length {place : Place} {stack : List Bracket} {chars rest : List Char}
    (done : skip place stack chars = .ok rest) :
    rest.length + place.least ≤ chars.length := by
  fun_induction skip place stack chars <;>
    simp only [Place.least, reduceCtorEq, Except.ok.injEq] at * <;>
    grind

theorem skipValue_rest_length {chars rest : List Char}
    (done : skipValue chars = .ok rest) : rest.length < chars.length :=
  skip_rest_length done

end Json

end SeriesCodec
