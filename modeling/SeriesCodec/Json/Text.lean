import SeriesCodec.Json.Scan

/-!
# Texts in JSON

The pieces of a text are characters, short escapes and escapes of 16-bit code
units.  Where the content of a text is needed, code units outside the basic
plane must come as surrogate pairs; where a text is only passed over, every
code unit is accepted.
-/

namespace SeriesCodec

namespace Json

inductive Piece where
  /-- The quote that ends the text. -/
  | close
  /-- A character, written as it is or by a short escape. -/
  | plain (char : Char)
  | unit (code : Nat)
  deriving DecidableEq, Repr

def utf8Length : (chars : List Char) → Nat
  | [] => 0
  | char :: rest => char.utf8Size + utf8Length rest

def shortEscape? : Char → Option Char
  | '"' => some '"'
  | '\\' => some '\\'
  | '/' => some '/'
  | 'b' => some '\x08'
  | 'f' => some '\x0c'
  | 'n' => some '\n'
  | 'r' => some '\r'
  | 't' => some '\t'
  | _ => none

/--
The number that four hexadecimal digits stand for.  When fewer than four bytes
are left the document has ended; otherwise anything else is a bad escape.
-/
def readUnit (chars : List Char) : Except Fault (Nat × List Char) :=
  if utf8Length (chars.take 4) < 4 then .error (.ended .text)
  else
    match (chars.take 4).mapM Text.hexDigit? with
    | some [a, b, c, d] => .ok (4096 * a + 256 * b + 16 * c + d, chars.drop 4)
    | _ => .error .invalidEscape

def readEscape : List Char → Except Fault (Piece × List Char)
  | [] => .error (.ended .text)
  | 'u' :: rest => (readUnit rest).map fun (code, behind) => (.unit code, behind)
  | char :: rest =>
      match shortEscape? char with
      | some meant => .ok (.plain meant, rest)
      | none => .error .invalidEscape

def readPiece : List Char → Except Fault (Piece × List Char)
  | [] => .error (.ended .text)
  | '"' :: rest => .ok (.close, rest)
  | '\\' :: rest => readEscape rest
  | char :: rest =>
      if char.toNat < 32 then .error .controlCharacter
      else .ok (.plain char, rest)

theorem readUnit_rest_length {chars rest : List Char} {code : Nat}
    (done : readUnit chars = .ok (code, rest)) : rest.length ≤ chars.length := by
  unfold readUnit at done
  split at done
  · simp at done
  · split at done
    · simp only [Except.ok.injEq, Prod.mk.injEq] at done
      rw [← done.2, List.length_drop]
      omega
    · simp at done

theorem readEscape_rest_length {chars rest : List Char} {piece : Piece}
    (done : readEscape chars = .ok (piece, rest)) : rest.length < chars.length := by
  unfold readEscape at done
  split at done
  · simp at done
  · rename_i others
    cases unitRead : readUnit others with
    | error fault => simp [unitRead, Except.map] at done
    | ok answer =>
        have shorter := readUnit_rest_length unitRead
        simp only [unitRead, Except.map, Except.ok.injEq, Prod.mk.injEq] at done
        rw [← done.2, List.length_cons]
        omega
  · split at done
    · simp only [Except.ok.injEq, Prod.mk.injEq] at done
      rw [← done.2, List.length_cons]
      omega
    · simp at done

theorem readPiece_rest_length {chars rest : List Char} {piece : Piece}
    (done : readPiece chars = .ok (piece, rest)) : rest.length < chars.length := by
  unfold readPiece at done
  split at done
  · simp at done
  · simp only [Except.ok.injEq, Prod.mk.injEq] at done
    rw [← done.2, List.length_cons]
    omega
  · have shorter := readEscape_rest_length done
    rw [List.length_cons]
    omega
  · split at done
    · simp at done
    · simp only [Except.ok.injEq, Prod.mk.injEq] at done
      rw [← done.2, List.length_cons]
      omega

def skipText (chars : List Char) : Except Fault (List Char) :=
  match done : readPiece chars with
  | .error fault => .error fault
  | .ok (.close, rest) => .ok rest
  | .ok (.plain _, rest) =>
      have := readPiece_rest_length done
      skipText rest
  | .ok (.unit _, rest) =>
      have := readPiece_rest_length done
      skipText rest
termination_by chars.length

/-- Whether a code unit is the first half of a surrogate pair. -/
def isLeading (code : Nat) : Bool := 0xD800 ≤ code && code ≤ 0xDBFF

def isTrailing (code : Nat) : Bool := 0xDC00 ≤ code && code ≤ 0xDFFF

def pairChar (leading trailing : Nat) : Char :=
  Char.ofNat (0x10000 + (leading - 0xD800) * 0x400 + (trailing - 0xDC00))

/-- The second half that has to follow a first half. -/
def readTrailing : List Char → Except Fault (Nat × List Char)
  | [] => .error (.ended .text)
  | ['\\'] => .error (.ended .text)
  | '\\' :: 'u' :: rest =>
      match readUnit rest with
      | .error fault => .error fault
      | .ok (code, behind) =>
          if isTrailing code then .ok (code, behind) else .error .loneSurrogate
  | _ => .error .brokenSurrogatePair

/-- The character for which the code unit `code` and perhaps the next one stand. -/
def readChar (code : Nat) (chars : List Char) : Except Fault (Char × List Char) :=
  if isTrailing code then .error .loneSurrogate
  else if isLeading code then
    (readTrailing chars).map fun (trailing, rest) => (pairChar code trailing, rest)
  else .ok (Char.ofNat code, chars)

theorem readTrailing_rest_length {chars rest : List Char} {code : Nat}
    (done : readTrailing chars = .ok (code, rest)) : rest.length ≤ chars.length := by
  unfold readTrailing at done
  split at done
  · simp at done
  · simp at done
  · split at done
    · simp at done
    · rename_i unitRead
      have shorter := readUnit_rest_length unitRead
      split at done
      · simp only [Except.ok.injEq, Prod.mk.injEq] at done
        rw [← done.2, List.length_cons, List.length_cons]
        omega
      · simp at done
  · simp at done

theorem readChar_rest_length {chars rest : List Char} {code : Nat} {char : Char}
    (done : readChar code chars = .ok (char, rest)) : rest.length ≤ chars.length := by
  unfold readChar at done
  split at done
  · simp at done
  · split at done
    · cases trailing : readTrailing chars with
      | error fault => simp [trailing, Except.map] at done
      | ok answer =>
          have shorter := readTrailing_rest_length trailing
          simp only [trailing, Except.map, Except.ok.injEq, Prod.mk.injEq] at done
          rw [← done.2]
          exact shorter
    · simp only [Except.ok.injEq, Prod.mk.injEq] at done
      exact Nat.le_of_eq (congrArg List.length done.2.symm)

def readText (chars : List Char) : Except Fault (List Char × List Char) :=
  match done : readPiece chars with
  | .error fault => .error fault
  | .ok (.close, rest) => .ok ([], rest)
  | .ok (.plain char, rest) =>
      have := readPiece_rest_length done
      (readText rest).map fun (content, behind) => (char :: content, behind)
  | .ok (.unit code, rest) =>
      match read : readChar code rest with
      | .error fault => .error fault
      | .ok (char, others) =>
          have := readPiece_rest_length done
          have := readChar_rest_length read
          (readText others).map fun (content, behind) => (char :: content, behind)
termination_by chars.length

theorem skipText_rest_length {chars rest : List Char}
    (done : skipText chars = .ok rest) : rest.length < chars.length := by
  fun_induction skipText chars with
  | case1 => simp at done
  | case2 chars others read =>
      simp only [Except.ok.injEq] at done
      rw [← done]
      exact readPiece_rest_length read
  | case3 chars char others read shorter ih => exact Nat.lt_trans (ih done) shorter
  | case4 chars code others read shorter ih => exact Nat.lt_trans (ih done) shorter

theorem readText_rest_length {chars content rest : List Char}
    (done : readText chars = .ok (content, rest)) : rest.length < chars.length := by
  fun_induction readText chars generalizing content rest with
  | case1 => simp at done
  | case2 chars others read =>
      simp only [Except.ok.injEq, Prod.mk.injEq] at done
      rw [← done.2]
      exact readPiece_rest_length read
  | case3 chars char others read shorter ih =>
      cases inner : readText others with
      | error fault => simp [inner, Except.map] at done
      | ok answer =>
          simp only [inner, Except.map, Except.ok.injEq, Prod.mk.injEq] at done
          rw [← done.2]
          exact Nat.lt_trans (ih inner) shorter
  | case4 => simp at done
  | case5 chars code first read char others readAgain shorter notLonger ih =>
      cases inner : readText others with
      | error fault => simp [inner, Except.map] at done
      | ok answer =>
          have behind := ih inner
          simp only [inner, Except.map, Except.ok.injEq, Prod.mk.injEq] at done
          rw [← done.2]
          omega

end Json

end SeriesCodec
