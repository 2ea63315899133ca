import SeriesCodec.Json.Fault

/-!
# Scanning a document

A document is read as a list of characters.  A reader takes what it wants from
the front and hands back the characters behind it.
-/

namespace SeriesCodec

namespace Json

def isBlank (char : Char) : Bool :=
  char == ' ' || char == '\n' || char == '\t' || char == '\r'

def isDigit (char : Char) : Bool := '0' ≤ char && char ≤ '9'

def skipBlanks (chars : List Char) : List Char := chars.dropWhile isBlank

def readIdentifier : (identifier chars : List Char) → Except Fault (List Char)
  | [], chars => .ok chars
  | _ :: _, [] => .error (.ended .value)
  | wanted :: identifier, char :: rest =>
      if char = wanted then readIdentifier identifier rest
      else .error .expectedIdentifier

def readColon (chars : List Char) : Except Fault (List Char) :=
  match skipBlanks chars with
  | [] => .error (.ended .object)
  | ':' :: rest => .ok rest
  | _ :: _ => .error .expectedColon

theorem skipBlanks_length_le (chars : List Char) :
    (skipBlanks chars).length ≤ chars.length := by
  simpa [skipBlanks] using (List.dropWhile_sublist isBlank).length_le

theorem readIdentifier_append (identifier rest : List Char) :
    readIdentifier identifier (identifier ++ rest) = .ok rest := by
  induction identifier with
  | nil => simp [readIdentifier]
  | cons char identifier ih => simp [readIdentifier, ih]

theorem readIdentifier_rest_length {identifier chars rest : List Char}
    (done : readIdentifier identifier chars = .ok rest) :
    rest.length ≤ chars.length := by
  induction identifier generalizing chars with
  | nil =>
      simp only [readIdentifier, Except.ok.injEq] at done
      exact Nat.le_of_eq (congrArg List.length done.symm)
  | cons wanted identifier ih =>
      cases chars with
      | nil => simp [readIdentifier] at done
      | cons char others =>
          simp only [readIdentifier] at done
          split at done
          · have shorter := ih done
            rw [List.length_cons]
            omega
          · simp at done

theorem readColon_rest_length {chars rest : List Char}
    (done : readColon chars = .ok rest) : rest.length < chars.length := by
  have blanks := skipBlanks_length_le chars
  unfold readColon at done
  split at done
  · simp at done
  · rename_i others front
    simp only [Except.ok.injEq] at done
    rw [front, List.length_cons, done] at blanks
    omega
  · simp at done

end Json

end SeriesCodec
