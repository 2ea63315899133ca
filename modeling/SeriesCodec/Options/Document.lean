import SeriesCodec.Json.Skip
import SeriesCodec.Json.Typed
import SeriesCodec.Options

/-!
# Options as documents

Options are kept as a JSON object with one member for each field.  A reader
accepts members in any order and passes over members that it does not know; it
also accepts an array that lists the fields in order.  Fields that are not
given keep their standard values, no field may be given twice, and the format
version is looked at only after the whole document has been read.
-/

namespace SeriesCodec

namespace Options

inductive Field where
  | delta
  | width
  | level
  | version
  deriving DecidableEq, Repr

namespace Field

/-- The fields in the order in which they are written. -/
def all : List Field := [delta, width, level, version]

def name : Field → String
  | delta => "perform_delta_zig_zag"
  | width => "element_width"
  | level => "compression_level"
  | version => "format_version"

def ofName? (key : List Char) : Option Field :=
  all.find? fun field => field.name.toList = key

end Field

/-- The fields that a document has given so far. -/
structure Draft where
  delta : Option Bool
  width : Option ElementWidth
  level : Option UInt32
  version : Option UInt32
  deriving DecidableEq, Repr

namespace Draft

def empty : Draft := ⟨none, none, none, none⟩

def has (draft : Draft) : Field → Bool
  | .delta => draft.delta.isSome
  | .width => draft.width.isSome
  | .level => draft.level.isSome
  | .version => draft.version.isSome

def options (draft : Draft) : Options where
  delta := draft.delta.getD standard.delta
  width := draft.width.getD standard.width
  level := draft.level.getD standard.level
  version := draft.version.getD standard.version

end Draft

namespace Document

open Json (Fault skipBlanks)

def readWidth (chars : List Char) : Except Fault (ElementWidth × List Char) := do
  let (size, rest) ← Json.readWord chars
  match ElementWidth.ofUInt32? size with
  | some width => pure (width, rest)
  | none => throw (.unsupportedWidth size)

def readField (draft : Draft) (field : Field) (chars : List Char) :
    Except Fault (Draft × List Char) :=
  match field with
  | .delta => (Json.readBool chars).map fun (value, rest) =>
      ({ draft with delta := some value }, rest)
  | .width => (readWidth chars).map fun (value, rest) =>
      ({ draft with width := some value }, rest)
  | .level => (Json.readWord chars).map fun (value, rest) =>
      ({ draft with level := some value }, rest)
  | .version => (Json.readWord chars).map fun (value, rest) =>
      ({ draft with version := some value }, rest)

/-- The key that starts a member, unless its place is taken by something else. -/
def readKey (chars : List Char) : Except Fault (List Char × List Char) :=
  match chars with
  | [] => .error (.ended .value)
  | '"' :: rest => Json.readText rest
  | '\x7d' :: _ => .error .trailingComma
  | _ :: _ => .error .keyNotText

/--
The key of the next member and the characters behind it, or the characters
behind the brace that ends the object.
-/
def nextMember (first : Bool) (chars : List Char) :
    Except Fault (Option (List Char) × List Char) :=
  match skipBlanks chars with
  | [] => .error (.ended .object)
  | '\x7d' :: rest => .ok (none, rest)
  | char :: rest =>
      if first then
        (readKey (char :: rest)).map fun (key, behind) => (some key, behind)
      else if char = ',' then
        (readKey (skipBlanks rest)).map fun (key, behind) => (some key, behind)
      else .error .expectedCommaOrBrace

def readMember (draft : Draft) (key chars : List Char) :
    Except Fault (Draft × List Char) :=
  match Field.ofName? key with
  | none => do
      let value ← Json.readColon chars
      let rest ← Json.skipValue value
      pure (draft, rest)
  | some field =>
      if draft.has field then .error (.duplicateField field.name)
      else do
        let value ← Json.readColon chars
        readField draft field value

def nextElement (first : Bool) (chars : List Char) :
    Except Fault (Option (List Char)) :=
  match skipBlanks chars with
  | [] => .error (.ended .array)
  | ']' :: _ => .ok none
  | char :: rest =>
      if first then .ok (some (char :: rest))
      else if char = ',' then
        match skipBlanks rest with
        | [] => .error (.ended .value)
        | ']' :: _ => .error .trailingComma
        | others => .ok (some others)
      else .error .expectedCommaOrBracket

def endElements (chars : List Char) : Except Fault (List Char) :=
  match skipBlanks chars with
  | [] => .error (.ended .array)
  | ']' :: rest => .ok rest
  | ',' :: rest =>
      match skipBlanks rest with
      | ']' :: _ => .error .trailingComma
      | _ => .error .trailingCharacters
  | _ :: _ => .error .trailingCharacters

/-- The draft with the elements of an array, one for each of the given fields. -/
def readElements (draft : Draft) (first : Bool) (chars : List Char) :
    (fields : List Field) → Except Fault (Draft × List Char)
  | [] => do
      let rest ← endElements chars
      pure (draft, rest)
  | field :: fields => do
      match ← nextElement first chars with
      | none =>
          let rest ← endElements chars
          pure (draft, rest)
      | some element =>
          let (draft, rest) ← readField draft field element
          readElements draft false rest fields

theorem readWidth_rest_length {chars rest : List Char} {width : ElementWidth}
    (done : readWidth chars = .ok (width, rest)) : rest.length < chars.length := by
  simp only [readWidth, bind, Except.bind, pure, Except.pure, throw, throwThe,
    MonadExceptOf.throw] at done
  split at done
  · simp at done
  · rename_i wordRead
    have shorter := Json.readWord_rest_length wordRead
    split at done
    · simp only [Except.ok.injEq, Prod.mk.injEq] at done
      rw [← done.2]
      exact shorter
    · simp at done

theorem readField_rest_length {draft after : Draft} {field : Field}
    {chars rest : List Char}
    (done : readField draft field chars = .ok (after, rest)) :
    rest.length < chars.length := by
  unfold readField at done
  split at done
  · cases read : Json.readBool chars with
    | error fault => simp [read, Except.map] at done
    | ok answer =>
        have shorter := Json.readBool_rest_length read
        simp only [read, Except.map, Except.ok.injEq, Prod.mk.injEq] at done
        rw [← done.2]
        exact shorter
  · cases read : readWidth chars with
    | error fault => simp [read, Except.map] at done
    | ok answer =>
        have shorter := readWidth_rest_length read
        simp only [read, Except.map, Except.ok.injEq, Prod.mk.injEq] at done
        rw [← done.2]
        exact shorter
  all_goals
    cases read : Json.readWord chars with
    | error fault => simp [read, Except.map] at done
    | ok answer =>
        have shorter := Json.readWord_rest_length read
        simp only [read, Except.map, Except.ok.injEq, Prod.mk.injEq] at done
        rw [← done.2]
        exact shorter

theorem readKey_rest_length {chars key rest : List Char}
    (done : readKey chars = .ok (key, rest)) : rest.length < chars.length := by
  unfold readKey at done
  split at done
  · simp at done
  · exact Nat.lt_succ_of_lt (Json.readText_rest_length done)
  · simp at done
  · simp at done

theorem nextMember_rest_length {first : Bool} {chars rest : List Char}
    {key : Option (List Char)}
    (done : nextMember first chars = .ok (key, rest)) :
    rest.length < chars.length := by
  have blanks := Json.skipBlanks_length_le chars
  unfold nextMember at done
  split at done
  · simp at done
  · rename_i others front
    simp only [Except.ok.injEq, Prod.mk.injEq] at done
    rw [front, List.length_cons, done.2] at blanks
    exact blanks
  · rename_i char others _ front
    rw [front] at blanks
    split at done
    · cases read : readKey (char :: others) with
      | error fault => simp [read, Except.map] at done
      | ok answer =>
          have shorter := readKey_rest_length read
          simp only [read, Except.map, Except.ok.injEq, Prod.mk.injEq] at done
          rw [← done.2]
          omega
    · split at done
      · have more := Json.skipBlanks_length_le others
        cases read : readKey (skipBlanks others) with
        | error fault => simp [read, Except.map] at done
        | ok answer =>
            have shorter := readKey_rest_length read
            simp only [read, Except.map, Except.ok.injEq, Prod.mk.injEq] at done
            rw [List.length_cons] at blanks
            rw [← done.2]
            omega
      · simp at done

theorem readMember_rest_length {draft after : Draft} {key chars rest : List Char}
    (done : readMember draft key chars = .ok (after, rest)) :
    rest.length < chars.length := by
  unfold readMember at done
  simp only [bind, Except.bind, pure, Except.pure] at done
  split at done
  · split at done
    · simp at done
    · rename_i colon
      have first := Json.readColon_rest_length colon
      split at done
      · simp at done
      · rename_i skipped
        have second := Json.skipValue_rest_length skipped
        simp only [Except.ok.injEq, Prod.mk.injEq] at done
        rw [← done.2]
        omega
  · split at done
    · simp at done
    · split at done
      · simp at done
      · rename_i colon
        have first := Json.readColon_rest_length colon
        have second := readField_rest_length done
        omega

def readMembers (draft : Draft) (first : Bool) (chars : List Char) :
    Except Fault (Draft × List Char) :=
  match started : nextMember first chars with
  | .error fault => .error fault
  | .ok (none, rest) => .ok (draft, rest)
  | .ok (some key, behind) =>
      match read : readMember draft key behind with
      | .error fault => .error fault
      | .ok (draft, rest) =>
          have : rest.length < chars.length :=
            Nat.lt_trans (readMember_rest_length read)
              (nextMember_rest_length started)
          readMembers draft false rest
termination_by chars.length

def readDraft (chars : List Char) : Except Fault (Draft × List Char) :=
  match skipBlanks chars with
  | '[' :: rest => readElements .empty true rest Field.all
  | '\x7b' :: rest => readMembers .empty true rest
  | others => .error (Json.wrongType .options others)

/-- The options in a document, which ends with its value. -/
def read (chars : List Char) : Except Fault Options := do
  let (draft, rest) ← readDraft chars
  match skipBlanks rest with
  | [] => pure draft.options
  | _ :: _ => throw .trailingCharacters

def members (entries : List (Field × String)) : String :=
  ",".intercalate (entries.map fun (field, value) =>
    "\"" ++ field.name ++ "\":" ++ value)

end Document

def ofJsonText (document : String) : Except CodecError Options := do
  let options ← (Document.read document.toList).mapError fun fault =>
    .invalidConfig (.document fault)
  options.validate
  pure options

/-- The JSON document of the options, without blanks. -/
def toJsonText (options : Options) : String :=
  "\x7b" ++
    Document.members
      [(.delta, if options.delta then "true" else "false"),
       (.width, toString options.width.bytes),
       (.level, toString options.level.toNat),
       (.version, toString options.version.toNat)] ++
    "\x7d"

end Options

end SeriesCodec
