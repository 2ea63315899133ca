import SeriesCodec.Proofs.Options.Members

/-!
# Options and their documents

Options are written as a document that gives them back.  Whatever else a document may
hold, and in whatever order, it gives the settings that are in it; a version that is not
supported is only complained about when there is nothing else to complain about.
-/

namespace SeriesCodec

namespace Options

namespace Document

open Json (Blanks Form)

variable {text : List Char}

/-! ## Documents that are written -/

theorem spells_of_plain (plain : ∀ char ∈ text, 32 ≤ char.toNat ∧ char ≠ '"' ∧ char ≠ '\\') :
    Json.Spells text text := by
  induction text with
  | nil => exact .nil
  | cons char others ih =>
      obtain ⟨⟨printable, unquoted, direct⟩, later⟩ := List.forall_mem_cons.mp plain
      exact .plain (.plain printable unquoted direct) (ih later)

theorem spells_name (field : Field) : Json.Spells field.name.toList field.name.toList := by
  apply spells_of_plain
  cases field <;> simp [Field.name]

def entryChars (setting : Setting) : List Char :=
  '"' :: (setting.field.name.toList ++ '"' :: ':' :: setting.text)

theorem entryText_entryChars (setting : Setting) : EntryText (some setting) (entryChars setting) :=
  .setting (spells_name _) .nil .nil

theorem Listed.of_comma {α : Type} {Item : α → List Char → Prop} {close : Char} {item : α}
    {items : List α} (listed : Listed Item close true (item :: items) text) :
    Listed Item close false (item :: items) (',' :: text) := by
  cases listed with
  | item lead written later =>
      cases lead with
      | first blanks => exact .item (.next .nil blanks) written later

/-- Items that are put together with commas are listed. -/
theorem listed_intercalate {α : Type} {Item : α → List Char → Prop} {items : List α}
    {texts : List (List Char)} (written : List.Forall₂ Item items texts) (close : Char) :
    Listed Item close true items ([','].intercalate texts ++ [close]) := by
  induction written with
  | nil => exact .close .nil
  | @cons item text items texts first later ih =>
      cases later with
      | nil =>
          rw [List.intercalate_singleton]
          exact .item (.first .nil) first (.close .nil)
      | cons second others =>
          have listed := Listed.item (.first .nil) first ih.of_comma
          rw [List.intercalate_cons_cons, List.append_assoc, List.append_assoc]
          exact listed

def objectChars (texts : List (List Char)) : List Char :=
  '\x7b' :: ([','].intercalate texts ++ ['\x7d'])

theorem documentText_objectChars {entries : List (Option Setting)} {texts : List (List Char)}
    (written : List.Forall₂ EntryText entries texts)
    (once : (entries.reduceOption.map Setting.field).Nodup) :
    DocumentText entries.reduceOption (objectChars texts) := by
  have document := DocumentText.object .nil (listed_intercalate written '\x7d') once .nil
  rw [List.append_nil] at document
  exact document

theorem entryTexts (settings : List Setting) :
    List.Forall₂ EntryText (settings.map some) (settings.map entryChars) := by
  rw [List.forall₂_map_left_iff, List.forall₂_map_right_iff, List.forall₂_same]
  exact fun setting _ => entryText_entryChars setting

theorem toList_natural (number : Nat) : (toString number).toList = Nat.toDigits 10 number := by
  rw [Nat.toString_eq_repr, Nat.toList_repr]

theorem toList_toJsonText (options : Options) :
    options.toJsonText.toList = objectChars ((Field.all.map options.setting).map entryChars) := by
  have delta : (if options.delta then "true" else "false").toList =
      (options.setting .delta).text := by
    rw [setting, Setting.text]
    cases options.delta <;> rfl
  have width : (toString options.width.bytes).toList = (options.setting .width).text := by
    rw [toList_natural, setting, Setting.text]
    cases options.width <;> rfl
  have level : (toString options.level.toNat).toList = (options.setting .level).text :=
    toList_natural _
  have version : (toString options.version.toNat).toList = (options.setting .version).text :=
    toList_natural _
  have opened : "\x7b".toList = ['\x7b'] := rfl
  have closed : "\x7d".toList = ['\x7d'] := rfl
  have comma : ",".toList = [','] := rfl
  have quote : "\"".toList = ['"'] := rfl
  have colon : "\":".toList = ['"', ':'] := rfl
  simp only [toJsonText, Document.members, String.toList_append, String.toList_intercalate,
    List.map_cons, List.map_nil, delta, width, level, version, opened, closed, comma, quote, colon,
    Field.all, objectChars, entryChars, field_setting, List.append_assoc, List.cons_append,
    List.nil_append]

theorem fields_settings (options : Options) :
    (Field.all.map options.setting).map Setting.field = Field.all := rfl

/-- Options are written as a document with all their settings. -/
theorem documentText_toJsonText (options : Options) :
    DocumentText (Field.all.map options.setting) options.toJsonText.toList := by
  have written := entryTexts (Field.all.map options.setting)
  rw [toList_toJsonText]
  refine documentText_objectChars written ?_
  change Field.all.Nodup
  decide

theorem gives_settings (options : Options) : Gives (Field.all.map options.setting) options := by
  refine ⟨?_, fun field unknown => absurd ?_ unknown⟩
  · intro setting inside
    obtain ⟨field, _, rfl⟩ := List.mem_map.mp inside
    rw [field_setting]
  · rw [fields_settings]
    cases field <;> decide

/-! ## Documents in which a version would be complained about -/

/-- A member that is passed over, `"note": [1,{"a":[]} ]`. -/
def noteChars : List Char :=
  ['"', 'n', 'o', 't', 'e', '"', ':', ' ', '[', '1', ',', '\x7b', '"', 'a', '"', ':', '[', ']',
    '\x7d', ' ', ']']

theorem entryText_noteChars : EntryText none noteChars := by
  have blank : Blanks [' '] := List.forall_mem_singleton.mpr rfl
  have note : Json.Spells ['n', 'o', 't', 'e'] ['n', 'o', 't', 'e'] := spells_of_plain (by simp)
  have key : Json.KeyText ['"', 'a', '"', ':'] :=
    .key .nil (.plain (.plain (by decide) (by decide) (by decide)) .nil) .nil
  have number : Form .value ['1'] := .scalar .nil (scalarText_text (.version 1))
  have empty : Form .value ['[', ']'] := @Form.bracketed .array [] _ .nil (.empty .nil)
  have nested : Form .value ['\x7b', '"', 'a', '"', ':', '[', ']', '\x7d'] :=
    @Form.bracketed .object [] _ .nil (.filled (.field key empty (.last .nil)))
  have value : Form .value (noteChars.drop 7) :=
    @Form.bracketed .array [' '] _ blank
      (.filled (.element number (.next .nil (.element nested (.last blank)))))
  exact @EntryText.other _ _ [] _ note (ofName?_eq_none_iff.mp rfl) .nil value

/-- An object that is not closed, `{"format_version":7`. -/
def openChars : List Char := '\x7b' :: entryChars (.version 7)

theorem skipValue_openChars : Json.skipValue openChars = .error (.ended .object) := by
  have key : Json.KeyText ('"' :: (Field.version.name.toList ++ ['"', ':'])) :=
    .key .nil (spells_name .version).body .nil
  have named : Json.skipKey (entryChars (.version 7)) = .ok (Setting.version 7).text :=
    Json.skipKey_append key _
  have value : Json.skipScalar (Setting.version 7).text = .ok [] :=
    Json.skipScalar_append (scalarText_text (.version 7)) .nil
  have start : Json.skipValue openChars =
      Json.skip (.opened .object) [] (entryChars (.version 7)) := Json.skip_of_start rfl
  have member : Json.skip (.opened .object) [] (entryChars (.version 7)) =
      Json.skip (.member .object) [] (entryChars (.version 7)) :=
    Json.skip_opened_of_member rfl (by decide)
  have number : Json.skip .value [.object] (Setting.version 7).text =
      Json.skip .behind [.object] [] := Json.skip_of_scalar rfl (by decide) (by decide) value
  rw [start, member, Json.skip_member_of_key named, number, Json.skip]
  rfl

end Document

/-! ## What is answered for a document -/

open Document (DocumentText Flawed Listed Member MemberText read)

variable {document : String} {options : Options}

def checked (options : Options) : Except CodecError Options :=
  if options.version = 0 then .ok options else .error (.unsupportedVersion options.version)

/-- A document that is refused for how it is written. -/
def Refused (document : String) : Prop :=
  ∃ fault, ofJsonText document = .error (.invalidConfig (.document fault))

theorem ofJsonText_of_read (done : read document.toList = .ok options) :
    ofJsonText document = checked options := by
  rw [ofJsonText, done, checked]
  change (options.validate >>= fun _ => .ok options) = _
  rw [validate]
  simp only [supported_iff]
  split <;> rfl

theorem refused_of_unread (unread : ∀ options, read document.toList ≠ .ok options) :
    Refused document := by
  cases outcome : read document.toList with
  | ok options => exact absurd outcome (unread options)
  | error fault =>
      refine ⟨fault, ?_⟩
      rw [ofJsonText, outcome]
      rfl

theorem ofJsonText_of_documentText {settings : List Setting}
    (written : DocumentText settings document.toList) :
    ∃ options, Gives settings options ∧ ofJsonText document = checked options := by
  obtain ⟨options, gives, done⟩ := Document.exists_read_of_documentText written
  exact ⟨options, gives, ofJsonText_of_read done⟩

/-- A version is complained about only when it is a setting of a document of the grammar. -/
theorem documentText_of_unsupported {version : UInt32}
    (refused : ofJsonText document = .error (.unsupportedVersion version)) :
    version ≠ 0 ∧ ∃ settings, DocumentText settings document.toList ∧
      .version version ∈ settings := by
  cases outcome : read document.toList with
  | error fault =>
      rw [ofJsonText, outcome] at refused
      cases refused
  | ok options =>
      rw [ofJsonText_of_read outcome, checked] at refused
      split at refused
      next => cases refused
      next other =>
        cases refused
        obtain ⟨settings, written, gives⟩ := Document.documentText_of_read outcome
        refine ⟨other, settings, written, ?_⟩
        by_cases given : Field.version ∈ settings.map Setting.field
        · obtain ⟨setting, inside, field⟩ := List.mem_map.mp given
          have same := gives.given setting inside
          rw [← same, field] at inside
          exact inside
        · exact absurd (Setting.version.inj (gives.others .version given)) other

open Document (entryChars noteChars objectChars openChars)

end Options

end SeriesCodec
