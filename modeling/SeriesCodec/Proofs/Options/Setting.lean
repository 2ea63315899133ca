import Mathlib.Data.List.Basic
import SeriesCodec.Options.Document
import SeriesCodec.Proofs.Json.Typed

/-!
# Settings

A setting is a field of the options with its value, which can be written in one way only.
A draft takes settings as long as no field comes twice; then the options of the draft have
what is set, in whatever order, and are standard otherwise.
-/

namespace SeriesCodec

namespace Options

inductive Setting where
  | delta (value : Bool)
  | width (value : ElementWidth)
  | level (value : UInt32)
  | version (value : UInt32)
  deriving DecidableEq, Repr

namespace Setting

def field : Setting → Field
  | delta _ => .delta
  | width _ => .width
  | level _ => .level
  | version _ => .version

def text : Setting → List Char
  | delta value => Json.boolText value
  | width value => Json.wordText value.toUInt32
  | level value => Json.wordText value
  | version value => Json.wordText value

end Setting

def setting (options : Options) : Field → Setting
  | .delta => .delta options.delta
  | .width => .width options.width
  | .level => .level options.level
  | .version => .version options.version

/-- Options that have what is set and are standard otherwise. -/
structure Gives (settings : List Setting) (options : Options) : Prop where
  given : ∀ setting ∈ settings, options.setting setting.field = setting
  others : ∀ field, field ∉ settings.map Setting.field →
    options.setting field = standard.setting field

theorem eq_of_setting {options other : Options}
    (same : ∀ field, options.setting field = other.setting field) : options = other := by
  obtain ⟨delta, width, level, version⟩ := options
  cases same .delta
  cases same .width
  cases same .level
  cases same .version
  rfl

theorem field_setting (options : Options) (field : Field) :
    (options.setting field).field = field := by
  cases field <;> rfl

/-- Settings leave no choice. -/
theorem Gives.unique {settings : List Setting} {options other : Options}
    (gives : Gives settings options) (again : Gives settings other) : options = other := by
  apply eq_of_setting
  intro field
  by_cases known : field ∈ settings.map Setting.field
  · obtain ⟨setting, inside, rfl⟩ := List.mem_map.mp known
    rw [gives.given setting inside, again.given setting inside]
  · rw [gives.others field known, again.others field known]

/-- Nor does their order matter. -/
theorem Gives.of_same {settings others : List Setting} {options : Options}
    (same : ∀ setting, setting ∈ settings ↔ setting ∈ others) (gives : Gives settings options) :
    Gives others options := by
  refine ⟨fun setting inside => gives.given setting ((same setting).mpr inside), ?_⟩
  intro field unknown
  refine gives.others field fun known => unknown ?_
  obtain ⟨setting, inside, rfl⟩ := List.mem_map.mp known
  exact List.mem_map_of_mem ((same setting).mp inside)

/-! ## Drafts -/

namespace Draft

variable {draft after : Draft} {settings : List Setting}

def set (draft : Draft) : Setting → Draft
  | .delta value => { draft with delta := some value }
  | .width value => { draft with width := some value }
  | .level value => { draft with level := some value }
  | .version value => { draft with version := some value }

def get? (draft : Draft) : Field → Option Setting
  | .delta => draft.delta.map .delta
  | .width => draft.width.map .width
  | .level => draft.level.map .level
  | .version => draft.version.map .version

/-- The draft with a setting of a field that has not been given. -/
def setOnce (draft : Draft) (setting : Setting) : Except Json.Fault Draft :=
  if draft.has setting.field then .error (.duplicateField setting.field.name)
  else .ok (draft.set setting)

theorem get?_set_self (draft : Draft) (setting : Setting) :
    (draft.set setting).get? setting.field = some setting := by
  cases setting <;> rfl

theorem get?_set_of_ne {setting : Setting} {field : Field} (other : field ≠ setting.field) :
    (draft.set setting).get? field = draft.get? field := by
  cases setting <;> cases field <;> first | rfl | exact absurd rfl other

theorem has_eq (draft : Draft) (field : Field) : draft.has field = (draft.get? field).isSome := by
  cases field <;> exact Option.isSome_map.symm

theorem options_setting (draft : Draft) (field : Field) :
    draft.options.setting field = (draft.get? field).getD (standard.setting field) := by
  obtain ⟨delta, width, level, version⟩ := draft
  cases field with
  | delta => cases delta <;> rfl
  | width => cases width <;> rfl
  | level => cases level <;> rfl
  | version => cases version <;> rfl

theorem setOnce_eq_ok_iff {setting : Setting} :
    draft.setOnce setting = .ok after ↔
      draft.get? setting.field = none ∧ after = draft.set setting := by
  rw [setOnce, has_eq]
  cases draft.get? setting.field with
  | some found =>
      refine iff_of_false ?_ fun impossible => ?_
      · rw [Option.isSome_some, if_pos rfl]
        rintro ⟨⟩
      · cases impossible.1
  | none =>
      rw [Option.isSome_none, if_neg Bool.false_ne_true, Except.ok.injEq, eq_comm]
      exact (and_iff_right rfl).symm

/-- By induction on the settings: each is kept, and nothing else is changed. -/
theorem get?_of_settings (done : settings.foldlM setOnce draft = .ok after) :
    (settings.map Setting.field).Nodup ∧
      (∀ setting ∈ settings, draft.get? setting.field = none) ∧
      (∀ setting ∈ settings, after.get? setting.field = some setting) ∧
      ∀ field, field ∉ settings.map Setting.field → after.get? field = draft.get? field := by
  induction settings generalizing draft with
  | nil =>
      cases done
      exact ⟨List.nodup_nil, List.forall_mem_nil _, List.forall_mem_nil _, fun _ _ => rfl⟩
  | cons setting later ih =>
      rw [List.foldlM_cons] at done
      obtain ⟨next, first, done⟩ := Fallible.bind_eq_ok_iff.mp done
      obtain ⟨fresh, rfl⟩ := setOnce_eq_ok_iff.mp first
      obtain ⟨distinct, free, kept, same⟩ := ih done
      have other : ∀ further ∈ later, further.field ≠ setting.field := by
        intro further inside equal
        have given := free further inside
        rw [equal, get?_set_self] at given
        cases given
      have unknown : setting.field ∉ later.map Setting.field := by
        intro inside
        obtain ⟨further, member, equal⟩ := List.mem_map.mp inside
        exact other further member equal
      refine ⟨List.nodup_cons.mpr ⟨unknown, distinct⟩, ?_, ?_, ?_⟩
      · refine List.forall_mem_cons.mpr ⟨fresh, fun further inside => ?_⟩
        rw [← free further inside, get?_set_of_ne (other further inside)]
      · refine List.forall_mem_cons.mpr ⟨?_, kept⟩
        rw [same _ unknown, get?_set_self]
      · intro field absent
        obtain ⟨notFirst, notLater⟩ := List.ne_and_not_mem_of_not_mem_cons absent
        rw [same field notLater, get?_set_of_ne notFirst]

/-- Settings of different fields can be taken by a draft that has none of them. -/
theorem exists_settings (distinct : (settings.map Setting.field).Nodup)
    (free : ∀ setting ∈ settings, draft.get? setting.field = none) :
    ∃ after, settings.foldlM setOnce draft = .ok after := by
  induction settings generalizing draft with
  | nil => exact ⟨draft, rfl⟩
  | cons setting later ih =>
      obtain ⟨fresh, freeLater⟩ := List.forall_mem_cons.mp free
      obtain ⟨unknown, distinctLater⟩ := List.nodup_cons.mp distinct
      have still : ∀ further ∈ later, (draft.set setting).get? further.field = none := by
        intro further inside
        rw [get?_set_of_ne, freeLater further inside]
        intro equal
        exact unknown (equal ▸ List.mem_map_of_mem inside)
      obtain ⟨after, done⟩ := ih distinctLater still
      refine ⟨after, ?_⟩
      rw [List.foldlM_cons, setOnce_eq_ok_iff.mpr ⟨fresh, rfl⟩]
      exact done

/-- A setting is only refused for a field that has come before. -/
theorem settings_eq_error {fault : Json.Fault}
    (failed : settings.foldlM setOnce draft = .error fault) :
    ∃ setting ∈ settings, fault = .duplicateField setting.field.name := by
  induction settings generalizing draft with
  | nil => cases failed
  | cons setting later ih =>
      rw [List.foldlM_cons] at failed
      rcases Fallible.bind_eq_error_iff.mp failed with refused | ⟨next, _, failed⟩
      · rw [setOnce] at refused
        split at refused
        next =>
          cases refused
          exact ⟨setting, List.mem_cons_self, rfl⟩
        next => cases refused
      · obtain ⟨further, inside, same⟩ := ih failed
        exact ⟨further, List.mem_cons_of_mem _ inside, same⟩

/-- The options of a draft that has taken settings are those that the settings give. -/
theorem gives_of_settings (done : settings.foldlM setOnce empty = .ok after) :
    Gives settings after.options := by
  obtain ⟨_, _, kept, same⟩ := get?_of_settings done
  refine ⟨fun setting inside => ?_, fun field unknown => ?_⟩
  · rw [options_setting, kept setting inside, Option.getD_some]
  · have nothing : empty.get? field = none := by cases field <;> rfl
    rw [options_setting, same field unknown, nothing, Option.getD_none]

end Draft

/-! ## Reading a setting -/

namespace Document

open Json (Blanks Delimited Fault)

variable {text rest chars : List Char} {draft after : Draft}

theorem exists_head_of_text (setting : Setting) :
    ∃ char others, setting.text = char :: others ∧ Json.isBlank char = false ∧ char ≠ ']' := by
  have ofWord (word : UInt32) : ∃ char others, Json.wordText word = char :: others ∧
      Json.isBlank char = false ∧ char ≠ ']' := by
    obtain ⟨char, others, front, digit⟩ := Json.exists_digit_of_wordText word
    refine ⟨char, others, front, Json.solid_of_isDigit digit, ?_⟩
    rintro rfl
    cases digit
  cases setting with
  | delta value => cases value <;> exact ⟨_, _, rfl, rfl, by decide⟩
  | width value => exact ofWord _
  | level value => exact ofWord value
  | version value => exact ofWord value

theorem readWidth_append (blanks : Blanks text) (width : ElementWidth) (ended : Delimited rest) :
    readWidth (text ++ (Json.wordText width.toUInt32 ++ rest)) = .ok (width, rest) := by
  rw [readWidth, Json.readWord_append blanks _ ended, Fallible.ok_bind]
  dsimp only
  rw [ElementWidth.ofUInt32?_toUInt32]
  rfl

theorem wordText_of_readWidth {width : ElementWidth} (read : readWidth chars = .ok (width, rest)) :
    ∃ text, Blanks text ∧ chars = text ++ (Json.wordText width.toUInt32 ++ rest) := by
  rw [readWidth] at read
  obtain ⟨⟨size, behind⟩, wordRead, read⟩ := Fallible.bind_eq_ok_iff.mp read
  dsimp only at read
  split at read
  next found known =>
    cases read
    cases ElementWidth.ofUInt32?_eq_some_iff.mp known
    exact Json.wordText_of_readWord wordRead
  next => cases read

theorem readField_append (blanks : Blanks text) (setting : Setting) (ended : Delimited rest) :
    readField draft setting.field (text ++ (setting.text ++ rest)) =
      .ok (draft.set setting, rest) := by
  cases setting with
  | delta value => exact congrArg (Except.map _) (Json.readBool_append blanks value rest)
  | width value => exact congrArg (Except.map _) (readWidth_append blanks value ended)
  | level value => exact congrArg (Except.map _) (Json.readWord_append blanks value ended)
  | version value => exact congrArg (Except.map _) (Json.readWord_append blanks value ended)

/-- A reader of values is a reader of the settings that are made of them. -/
theorem setting_of_reader {α : Type} (make : α → Setting)
    {reader : Except Fault (α × List Char)}
    (spelled : ∀ value rest, reader = .ok (value, rest) →
      ∃ text, Blanks text ∧ chars = text ++ ((make value).text ++ rest))
    (read : (reader.map fun (value, rest) => (draft.set (make value), rest)) = .ok (after, rest)) :
    ∃ value text, after = draft.set (make value) ∧ Blanks text ∧
      chars = text ++ ((make value).text ++ rest) := by
  obtain ⟨⟨value, behind⟩, found, same⟩ := Fallible.map_eq_ok_iff.mp read
  cases same
  obtain ⟨text, blanks, whole⟩ := spelled value _ found
  exact ⟨value, text, rfl, blanks, whole⟩

theorem setting_of_readField {field : Field}
    (read : readField draft field chars = .ok (after, rest)) :
    ∃ setting text, setting.field = field ∧ after = draft.set setting ∧ Blanks text ∧
      chars = text ++ (setting.text ++ rest) := by
  cases field with
  | delta =>
      obtain ⟨value, text, found⟩ := setting_of_reader .delta
        (fun value rest found => Json.boolText_of_readBool found) read
      exact ⟨.delta value, text, rfl, found⟩
  | width =>
      obtain ⟨value, text, found⟩ := setting_of_reader .width
        (fun value rest found => wordText_of_readWidth found) read
      exact ⟨.width value, text, rfl, found⟩
  | level =>
      obtain ⟨value, text, found⟩ := setting_of_reader .level
        (fun value rest found => Json.wordText_of_readWord found) read
      exact ⟨.level value, text, rfl, found⟩
  | version =>
      obtain ⟨value, text, found⟩ := setting_of_reader .version
        (fun value rest found => Json.wordText_of_readWord found) read
      exact ⟨.version value, text, rfl, found⟩

/-! ## Settings are values -/

theorem scalarText_text (setting : Setting) : Json.ScalarText setting.text := by
  cases setting with
  | delta value => exact Json.scalarText_boolText value
  | width value => exact Json.scalarText_wordText value.toUInt32
  | level value => exact Json.scalarText_wordText value
  | version value => exact Json.scalarText_wordText value

/-- What is read for a field is passed over as a value. -/
theorem skipValue_of_readField {field : Field}
    (read : readField draft field chars = .ok (after, rest)) :
    Json.skipValue chars = .ok rest := by
  cases field <;> obtain ⟨⟨value, behind⟩, found, same⟩ := Fallible.map_eq_ok_iff.mp read <;>
    cases same
  case delta => exact Json.skipValue_of_readBool found
  case width =>
    obtain ⟨⟨size, behind⟩, word, known⟩ := Fallible.bind_eq_ok_iff.mp found
    dsimp only at known
    split at known
    next =>
      cases known
      exact Json.skipValue_of_readWord word
    next => cases known
  case level => exact Json.skipValue_of_readWord found
  case version => exact Json.skipValue_of_readWord found

end Document

end Options

end SeriesCodec
