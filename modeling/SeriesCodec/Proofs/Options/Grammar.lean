import Mathlib.Data.List.ReduceOption
import SeriesCodec.Proofs.Json.Form
import SeriesCodec.Proofs.Options.Setting

/-!
# Documents with options

The grammar of the documents that hold options, which is exact: a document is read
exactly if it is of this grammar.  The members of an object come in any order, other
members may hold any value, and nothing but the settings among them counts.
-/

namespace SeriesCodec

namespace Options

namespace Document

open Json (Blanks Delimited Fault skipBlanks)

variable {chars text rest front key content : List Char} {draft after : Draft} {first : Bool}

/-- A member of an object: a setting, or another field with some value. -/
inductive EntryText : Option Setting → List Char → Prop where
  | setting {setting : Setting} {key before gap : List Char}
      (named : Json.Spells setting.field.name.toList key) (spaced : Blanks before)
      (aligned : Blanks gap) :
      EntryText (some setting) ('"' :: (key ++ '"' :: (before ++ ':' :: (gap ++ setting.text))))
  | other {content key before value : List Char} (named : Json.Spells content key)
      (unknown : ∀ field : Field, content ≠ field.name.toList) (spaced : Blanks before)
      (form : Json.Form .value value) :
      EntryText none ('"' :: (key ++ '"' :: (before ++ ':' :: value)))

def ElementText (setting : Setting) (text : List Char) : Prop := text = setting.text

/-- What leads to an item: blanks, and a comma if it is not the first. -/
inductive Lead : Bool → List Char → Prop where
  | first {front : List Char} (blanks : Blanks front) : Lead true front
  | next {front gap : List Char} (blanks : Blanks front) (spaced : Blanks gap) :
      Lead false (front ++ ',' :: gap)

/-- Items one after the other, up to the closing bracket. -/
inductive Listed {α : Type} (Item : α → List Char → Prop) (close : Char) :
    Bool → List α → List Char → Prop where
  | close {first : Bool} {front : List Char} (blanks : Blanks front) :
      Listed Item close first [] (front ++ [close])
  | item {first : Bool} {item : α} {items : List α} {front text behind : List Char}
      (lead : Lead first front) (written : Item item text)
      (later : Listed Item close false items behind) :
      Listed Item close first (item :: items) (front ++ (text ++ behind))

/-- A document with settings: an object, or an array in the order of the fields. -/
inductive DocumentText : List Setting → List Char → Prop where
  | object {entries : List (Option Setting)} {front text back : List Char}
      (before : Blanks front) (members : Listed EntryText '\x7d' true entries text)
      (once : (entries.reduceOption.map Setting.field).Nodup) (behind : Blanks back) :
      DocumentText entries.reduceOption (front ++ '\x7b' :: (text ++ back))
  | array {settings : List Setting} {front text back : List Char}
      (before : Blanks front) (elements : Listed ElementText ']' true settings text)
      (ordered : settings.map Setting.field <+: Field.all) (behind : Blanks back) :
      DocumentText settings (front ++ '[' :: (text ++ back))

/-! ## Lists -/

theorem Lead.append {more : List Char} (lead : Lead first front) (blanks : Blanks more) :
    Lead first (front ++ more) := by
  have both {one two : List Char} (before : Blanks one) (behind : Blanks two) :
      Blanks (one ++ two) := by
    intro char inside
    rcases List.mem_append.mp inside with member | member
    · exact before char member
    · exact behind char member
  cases lead with
  | first before => exact .first (both before blanks)
  | next before gap =>
      rw [List.append_assoc, List.cons_append]
      exact .next before (both gap blanks)

theorem Listed.delimited {α : Type} {Item : α → List Char → Prop} {close : Char} {items : List α}
    (listed : Listed Item close false items text) (closes : close = ']' ∨ close = '\x7d')
    (rest : List Char) : Delimited (text ++ rest) := by
  cases listed with
  | close blanks =>
      rw [List.append_assoc]
      refine .of_blanks blanks ?_
      rintro char ⟨rfl⟩
      exact .inr (.inr closes)
  | item lead written later =>
      cases lead with
      | next blanks spaced =>
          rw [List.append_assoc, List.append_assoc]
          exact .of_blanks blanks (.of_comma _)

/-! ## Elements of an array -/

theorem endElements_append (blanks : Blanks text) (rest : List Char) :
    endElements (text ++ ']' :: rest) = .ok rest := by
  rw [endElements, Json.skipBlanks_behind blanks rfl]
  rfl

theorem exists_end_of_endElements (read : endElements chars = .ok rest) :
    ∃ text, Blanks text ∧ chars = text ++ ']' :: rest := by
  rw [endElements] at read
  split at read
  next => cases read
  next others front =>
    cases read
    exact Json.exists_blanks_of_skipBlanks front
  next => split at read <;> cases read
  next => cases read

theorem nextElement_of_end (blanks : Blanks text) (rest : List Char) :
    nextElement first (text ++ ']' :: rest) = .ok none := by
  rw [nextElement, Json.skipBlanks_behind blanks rfl]
  rfl

theorem nextElement_append (lead : Lead first front) (setting : Setting) (rest : List Char) :
    nextElement first (front ++ (setting.text ++ rest)) = .ok (some (setting.text ++ rest)) := by
  obtain ⟨char, others, spelled, solid, other⟩ := exists_head_of_text setting
  rw [spelled, List.cons_append]
  cases lead with
  | first blanks =>
      rw [nextElement, Json.skipBlanks_behind blanks solid]
      simp
  | next blanks spaced =>
      rw [List.append_assoc, List.cons_append, nextElement, Json.skipBlanks_behind blanks rfl]
      simp [Json.skipBlanks_behind spaced solid, other]

theorem lead_of_nextElement {element : List Char}
    (read : nextElement first chars = .ok (some element)) :
    ∃ front, Lead first front ∧ chars = front ++ element := by
  rw [nextElement] at read
  split at read
  next => cases read
  next => cases read
  next char others other found =>
    obtain ⟨front, blanks, rfl⟩ := Json.exists_blanks_of_skipBlanks found
    cases first with
    | true =>
        cases read
        exact ⟨front, .first blanks, rfl⟩
    | false =>
        rw [if_neg Bool.false_ne_true] at read
        split at read
        next comma =>
          split at read
          next => cases read
          next => cases read
          next =>
            cases read
            obtain ⟨gap, spaced, whole⟩ := Json.exists_blanks others
            refine ⟨_, .next blanks spaced, ?_⟩
            rw [comma, List.append_assoc, List.cons_append, ← whole]
        next => cases read

theorem readElements_append {settings : List Setting} {fields : List Field}
    (listed : Listed ElementText ']' first settings text)
    (ordered : settings.map Setting.field <+: fields) (rest : List Char) :
    readElements draft first (text ++ rest) fields =
      .ok (settings.foldl Draft.set draft, rest) := by
  induction listed generalizing draft fields with
  | close blanks =>
      rw [← List.append_cons]
      cases fields with
      | nil =>
          rw [readElements, endElements_append blanks]
          rfl
      | cons field fields =>
          rw [readElements, nextElement_of_end blanks, Fallible.ok_bind]
          dsimp only
          rw [endElements_append blanks]
          rfl
  | @item first setting settings front text behind lead written later ih =>
      cases written
      cases fields with
      | nil => cases List.prefix_nil.mp ordered
      | cons field fields =>
          obtain ⟨rfl, others⟩ := List.cons_prefix_cons.mp ordered
          have ended := later.delimited (.inl rfl) rest
          have value : readField draft setting.field (setting.text ++ (behind ++ rest)) =
              .ok (draft.set setting, behind ++ rest) := readField_append .nil setting ended
          rw [List.append_assoc, List.append_assoc, readElements, nextElement_append lead,
            Fallible.ok_bind]
          dsimp only
          rw [value, Fallible.ok_bind]
          exact ih others

theorem listed_of_readElements {fields : List Field}
    (read : readElements draft first chars fields = .ok (after, rest)) :
    ∃ settings text, Listed ElementText ']' first settings text ∧
      settings.map Setting.field <+: fields ∧ after = settings.foldl Draft.set draft ∧
      chars = text ++ rest := by
  induction fields generalizing draft first chars with
  | nil =>
      obtain ⟨behind, ended, same⟩ := Fallible.bind_eq_ok_iff.mp read
      cases same
      obtain ⟨front, blanks, rfl⟩ := exists_end_of_endElements ended
      exact ⟨[], _, .close blanks, List.nil_prefix, rfl, List.append_cons _ _ _⟩
  | cons field fields ih =>
      obtain ⟨found, started, read⟩ := Fallible.bind_eq_ok_iff.mp read
      cases found with
      | none =>
          obtain ⟨behind, ended, same⟩ := Fallible.bind_eq_ok_iff.mp read
          cases same
          obtain ⟨front, blanks, rfl⟩ := exists_end_of_endElements ended
          exact ⟨[], _, .close blanks, List.nil_prefix, rfl, List.append_cons _ _ _⟩
      | some element =>
          obtain ⟨⟨next, behind⟩, value, later⟩ := Fallible.bind_eq_ok_iff.mp read
          obtain ⟨front, lead, rfl⟩ := lead_of_nextElement started
          obtain ⟨setting, gap, rfl, rfl, spaced, rfl⟩ := setting_of_readField value
          obtain ⟨settings, text, listed, ordered, rfl, rfl⟩ := ih later
          refine ⟨setting :: settings, _, .item (lead.append spaced) rfl listed,
            List.cons_prefix_cons.mpr ⟨rfl, ordered⟩, rfl, ?_⟩
          simp only [List.append_assoc]

/-! ## Members of an object -/

theorem ofName?_eq_some_iff {field : Field} :
    Field.ofName? content = some field ↔ content = field.name.toList := by
  constructor
  · intro found
    have named := List.find?_some found
    exact (of_decide_eq_true named).symm
  · rintro rfl
    cases field <;> decide

theorem ofName?_eq_none_iff :
    Field.ofName? content = none ↔ ∀ field : Field, content ≠ field.name.toList := by
  rw [Option.eq_none_iff_forall_ne_some]
  exact forall_congr' fun field => not_congr ofName?_eq_some_iff

theorem nextMember_of_end (blanks : Blanks text) (rest : List Char) :
    nextMember first (text ++ '\x7d' :: rest) = .ok (none, rest) := by
  rw [nextMember, Json.skipBlanks_behind blanks rfl]
  rfl

theorem nextMember_append (lead : Lead first front) (named : Json.Spells content key)
    (rest : List Char) :
    nextMember first (front ++ '"' :: (key ++ '"' :: rest)) = .ok (some content, rest) := by
  have read : readKey ('"' :: (key ++ '"' :: rest)) = .ok (content, rest) :=
    Json.readText_append named rest
  cases lead with
  | first blanks =>
      rw [nextMember, Json.skipBlanks_behind blanks rfl]
      exact congrArg (Except.map _) read
  | @next front gap blanks spaced =>
      have found : skipBlanks (gap ++ '"' :: (key ++ '"' :: rest)) = '"' :: (key ++ '"' :: rest) :=
        Json.skipBlanks_behind spaced rfl _
      rw [List.append_assoc, List.cons_append, nextMember, Json.skipBlanks_behind blanks rfl]
      simp [found, read, Except.map]

theorem spells_of_readKey (read : readKey chars = .ok (content, rest)) :
    ∃ key, Json.Spells content key ∧ chars = '"' :: (key ++ '"' :: rest) := by
  unfold readKey at read
  split at read
  next => cases read
  next =>
    obtain ⟨key, named, rfl⟩ := Json.spells_of_readText read
    exact ⟨key, named, rfl⟩
  next => cases read
  next => cases read

theorem exists_end_of_nextMember (read : nextMember first chars = .ok (none, rest)) :
    ∃ text, Blanks text ∧ chars = text ++ '\x7d' :: rest := by
  rw [nextMember] at read
  split at read
  next => cases read
  next others found =>
    cases read
    exact Json.exists_blanks_of_skipBlanks found
  next =>
    split at read
    next =>
      obtain ⟨_, _, same⟩ := Fallible.map_eq_ok_iff.mp read
      cases same
    next =>
      split at read
      next =>
        obtain ⟨_, _, same⟩ := Fallible.map_eq_ok_iff.mp read
        cases same
      next => cases read

theorem lead_of_nextMember (read : nextMember first chars = .ok (some content, rest)) :
    ∃ front key, Lead first front ∧ Json.Spells content key ∧
      chars = front ++ '"' :: (key ++ '"' :: rest) := by
  rw [nextMember] at read
  split at read
  next => cases read
  next => cases read
  next char others open_ found =>
    obtain ⟨front, blanks, rfl⟩ := Json.exists_blanks_of_skipBlanks found
    cases first with
    | true =>
        obtain ⟨_, keyRead, same⟩ := Fallible.map_eq_ok_iff.mp read
        cases same
        obtain ⟨key, named, whole⟩ := spells_of_readKey keyRead
        exact ⟨front, key, .first blanks, named, congrArg _ whole⟩
    | false =>
        rw [if_neg Bool.false_ne_true] at read
        split at read
        next comma =>
          obtain ⟨_, keyRead, same⟩ := Fallible.map_eq_ok_iff.mp read
          cases same
          obtain ⟨key, named, whole⟩ := spells_of_readKey keyRead
          obtain ⟨gap, spaced, rfl⟩ := Json.exists_blanks_of_skipBlanks whole
          refine ⟨_, key, .next blanks spaced, named, ?_⟩
          rw [comma, List.append_assoc, List.cons_append]
        next => cases read

/-- A member with a known key is a setting, which is refused if its field has been given. -/
theorem readMember_of_setting {setting : Setting} {before gap : List Char} (spaced : Blanks before)
    (aligned : Blanks gap) (ended : Delimited rest) :
    readMember draft setting.field.name.toList (before ++ ':' :: (gap ++ (setting.text ++ rest))) =
      (draft.setOnce setting).map fun after => (after, rest) := by
  rw [readMember, ofName?_eq_some_iff.mpr rfl, Draft.setOnce]
  dsimp only
  split
  next => rfl
  next =>
    rw [Json.readColon_append spaced, Fallible.ok_bind, readField_append aligned setting ended]
    rfl

/-- A member with another key is passed over. -/
theorem readMember_of_other {before value : List Char}
    (unknown : ∀ field : Field, content ≠ field.name.toList) (spaced : Blanks before)
    (form : Json.Form .value value) (ended : Delimited rest) :
    readMember draft content (before ++ ':' :: (value ++ rest)) = .ok (draft, rest) := by
  rw [readMember, ofName?_eq_none_iff.mpr unknown]
  dsimp only
  rw [Json.readColon_append spaced, Fallible.ok_bind, Json.skipValue_append form ended]
  rfl

/-- An entry starts with its key, and taking it is taking the setting that it is. -/
theorem EntryText.readMember {entry : Option Setting} (written : EntryText entry text)
    (ended : Delimited rest) :
    ∃ content key value, Json.Spells content key ∧ text = '"' :: (key ++ '"' :: value) ∧
      ∀ draft, Document.readMember draft content (value ++ rest) =
        (entry.toList.foldlM Draft.setOnce draft).map fun after => (after, rest) := by
  cases written with
  | @setting setting key before gap named spaced aligned =>
      refine ⟨_, key, _, named, rfl, fun draft => ?_⟩
      rw [List.append_assoc, List.cons_append, List.append_assoc,
        readMember_of_setting spaced aligned ended]
      simp
  | @other content key before value named unknown spaced form =>
      refine ⟨content, key, _, named, rfl, fun draft => ?_⟩
      rw [List.append_assoc, List.cons_append, readMember_of_other unknown spaced form ended]
      rfl

/-- A member that is read is an entry, whatever its key is spelled like. -/
theorem entry_of_readMember (read : readMember draft content chars = .ok (after, rest)) :
    ∃ entry value, chars = value ++ rest ∧ entry.toList.foldlM Draft.setOnce draft = .ok after ∧
      ∀ key, Json.Spells content key → EntryText entry ('"' :: (key ++ '"' :: value)) := by
  rw [readMember] at read
  split at read
  next unknown =>
    obtain ⟨value, colon, read⟩ := Fallible.bind_eq_ok_iff.mp read
    obtain ⟨behind, skipped, same⟩ := Fallible.bind_eq_ok_iff.mp read
    cases same
    obtain ⟨before, spaced, rfl⟩ := Json.exists_colon_of_readColon colon
    obtain ⟨text, form, rfl⟩ := Json.form_of_skipValue skipped
    refine ⟨none, before ++ ':' :: text, ?_, rfl, fun key named => ?_⟩
    · rw [List.append_assoc, List.cons_append]
    · exact .other named (ofName?_eq_none_iff.mp unknown) spaced form
  next field known =>
    split at read
    next => cases read
    next fresh =>
      obtain ⟨value, colon, valued⟩ := Fallible.bind_eq_ok_iff.mp read
      obtain ⟨before, spaced, rfl⟩ := Json.exists_colon_of_readColon colon
      obtain ⟨setting, gap, rfl, rfl, aligned, rfl⟩ := setting_of_readField valued
      cases ofName?_eq_some_iff.mp known
      refine ⟨some setting, before ++ ':' :: (gap ++ setting.text), ?_, ?_, fun key named => ?_⟩
      · simp only [List.append_assoc, List.cons_append]
      · rw [Option.toList_some, List.foldlM_cons, Draft.setOnce, if_neg fresh]
        rfl
      · exact .setting named spaced aligned

/-! ## Objects -/

theorem readMembers_of_end (started : nextMember first chars = .ok (none, rest)) :
    readMembers draft first chars = .ok (draft, rest) := by
  rw [readMembers]
  split <;> simp_all

theorem readMembers_of_key {behind : List Char}
    (started : nextMember first chars = .ok (some content, behind)) :
    readMembers draft first chars =
      (readMember draft content behind >>= fun answer => readMembers answer.1 false answer.2) := by
  rw [readMembers]
  split <;> simp_all
  split <;> simp_all [bind, Except.bind]

theorem foldlM_entries (entry : Option Setting) (entries : List (Option Setting)) :
    (entry :: entries).reduceOption.foldlM Draft.setOnce draft =
      (entry.toList.foldlM Draft.setOnce draft >>= entries.reduceOption.foldlM Draft.setOnce) := by
  cases entry with
  | none => rfl
  | some setting =>
      rw [List.reduceOption_cons_of_some, List.foldlM_cons, Option.toList_some, List.foldlM_cons]
      cases draft.setOnce setting <;> rfl

/-- By the grammar: the settings among the entries are taken in order. -/
theorem readMembers_append {entries : List (Option Setting)}
    (listed : Listed EntryText '\x7d' first entries text) (rest : List Char) :
    readMembers draft first (text ++ rest) =
      (entries.reduceOption.foldlM Draft.setOnce draft).map fun after => (after, rest) := by
  induction listed generalizing draft with
  | close blanks =>
      rw [← List.append_cons]
      exact readMembers_of_end (nextMember_of_end blanks rest)
  | @item first entry entries front text behind lead written later ih =>
      obtain ⟨content, key, value, named, rfl, taken⟩ :=
        written.readMember (later.delimited (.inr rfl) rest)
      rw [foldlM_entries]
      simp only [List.append_assoc, List.cons_append]
      rw [readMembers_of_key (nextMember_append lead named _), taken]
      cases entry.toList.foldlM Draft.setOnce draft with
      | error fault => rfl
      | ok next => exact ih

/-- By the steps of the reader: what is read are entries. -/
theorem listed_of_readMembers (read : readMembers draft first chars = .ok (after, rest)) :
    ∃ entries text, Listed EntryText '\x7d' first entries text ∧
      entries.reduceOption.foldlM Draft.setOnce draft = .ok after ∧ chars = text ++ rest := by
  fun_induction readMembers draft first chars with
  | case1 => cases read
  | case2 draft first chars behind started =>
      cases read
      obtain ⟨front, blanks, rfl⟩ := exists_end_of_nextMember started
      exact ⟨[], _, .close blanks, rfl, List.append_cons _ _ _⟩
  | case3 => cases read
  | case4 draft first chars content behind started next others taken _ ih =>
      obtain ⟨front, key, lead, named, rfl⟩ := lead_of_nextMember started
      obtain ⟨entry, value, rfl, kept, written⟩ := entry_of_readMember taken
      obtain ⟨entries, text, listed, done, rfl⟩ := ih read
      refine ⟨entry :: entries, _, .item lead (written key named) listed, ?_, ?_⟩
      · rw [foldlM_entries, kept]
        exact done
      · simp only [List.append_assoc, List.cons_append]

/-! ## Documents -/

/-- Settings that are taken one by one are taken as a whole. -/
theorem foldl_of_settings {settings : List Setting}
    (done : settings.foldlM Draft.setOnce draft = .ok after) :
    settings.foldl Draft.set draft = after := by
  induction settings generalizing draft with
  | nil =>
      cases done
      rfl
  | cons setting later ih =>
      rw [List.foldlM_cons] at done
      obtain ⟨next, first, done⟩ := Fallible.bind_eq_ok_iff.mp done
      obtain ⟨_, rfl⟩ := Draft.setOnce_eq_ok_iff.mp first
      exact ih done

theorem exists_draft {settings : List Setting} (once : (settings.map Setting.field).Nodup) :
    ∃ after, settings.foldlM Draft.setOnce .empty = .ok after := by
  refine Draft.exists_settings once fun setting _ => ?_
  cases setting <;> rfl

theorem read_of_draft {draft : Draft} (parts : readDraft chars = .ok (draft, rest))
    (behind : Blanks rest) : read chars = .ok draft.options := by
  rw [read, parts, Fallible.ok_bind]
  dsimp only
  rw [Json.blanks_iff.mp behind]
  rfl

/-- A document of the grammar is read as the options that its settings give. -/
theorem exists_read_of_documentText {settings : List Setting}
    (document : DocumentText settings chars) :
    ∃ options, Gives settings options ∧ read chars = .ok options := by
  cases document with
  | object before members once behind =>
      obtain ⟨draft, done⟩ := exists_draft once
      refine ⟨draft.options, Draft.gives_of_settings done, read_of_draft ?_ behind⟩
      rw [readDraft, Json.skipBlanks_behind before rfl]
      exact (readMembers_append members _).trans (congrArg _ done)
  | array before elements ordered behind =>
      have once : (settings.map Setting.field).Nodup :=
        List.Nodup.sublist ordered.sublist (by decide)
      obtain ⟨draft, done⟩ := exists_draft once
      refine ⟨draft.options, Draft.gives_of_settings done, read_of_draft ?_ behind⟩
      rw [readDraft, Json.skipBlanks_behind before rfl, ← foldl_of_settings done]
      exact readElements_append elements ordered _

/-- Well-formed members of which two are of one field are refused for that. -/
theorem read_of_repeated {entries : List (Option Setting)} {back : List Char}
    (before : Blanks front) (members : Listed EntryText '\x7d' true entries text)
    (repeated : ¬(entries.reduceOption.map Setting.field).Nodup) :
    ∃ setting ∈ entries.reduceOption,
      read (front ++ '\x7b' :: (text ++ back)) = .error (.duplicateField setting.field.name) := by
  have parts : readDraft (front ++ '\x7b' :: (text ++ back)) =
      (entries.reduceOption.foldlM Draft.setOnce .empty).map fun after => (after, back) := by
    rw [readDraft, Json.skipBlanks_behind before rfl]
    exact readMembers_append members back
  cases done : entries.reduceOption.foldlM Draft.setOnce .empty with
  | ok draft => exact absurd (Draft.get?_of_settings done).1 repeated
  | error fault =>
      obtain ⟨setting, inside, rfl⟩ := Draft.settings_eq_error done
      refine ⟨setting, inside, ?_⟩
      rw [read, parts, done]
      rfl

/-- What is read is a document of the grammar. -/
theorem documentText_of_read {options : Options} (done : read chars = .ok options) :
    ∃ settings, DocumentText settings chars ∧ Gives settings options := by
  rw [read] at done
  obtain ⟨⟨draft, behind⟩, parts, ended⟩ := Fallible.bind_eq_ok_iff.mp done
  dsimp only at ended
  split at ended
  next blank =>
    cases ended
    have blanks := Json.blanks_iff.mpr blank
    unfold readDraft at parts
    split at parts
    next others start =>
      obtain ⟨front, before, rfl⟩ := Json.exists_blanks_of_skipBlanks start
      obtain ⟨settings, text, elements, ordered, rfl, rfl⟩ := listed_of_readElements parts
      have once : (settings.map Setting.field).Nodup :=
        List.Nodup.sublist ordered.sublist (by decide)
      obtain ⟨after, taken⟩ := exists_draft once
      rw [foldl_of_settings taken]
      exact ⟨settings, .array before elements ordered blanks, Draft.gives_of_settings taken⟩
    next others start =>
      obtain ⟨front, before, rfl⟩ := Json.exists_blanks_of_skipBlanks start
      obtain ⟨entries, text, members, taken, rfl⟩ := listed_of_readMembers parts
      have once := (Draft.get?_of_settings taken).1
      exact ⟨_, .object before members once blanks, Draft.gives_of_settings taken⟩
    next => cases parts
  next => cases ended

/-- A document is read exactly as the grammar says. -/
theorem read_eq_ok_iff {options : Options} :
    read chars = .ok options ↔
      ∃ settings, DocumentText settings chars ∧ Gives settings options := by
  constructor
  · exact documentText_of_read
  · rintro ⟨settings, document, gives⟩
    obtain ⟨other, again, done⟩ := exists_read_of_documentText document
    rw [gives.unique again]
    exact done

end Document

end Options

end SeriesCodec
