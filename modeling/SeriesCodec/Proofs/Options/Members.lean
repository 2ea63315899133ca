import Mathlib.Data.List.Nodup
import SeriesCodec.Proofs.Options.Grammar

/-!
# Objects with any members

An object is read only if each of its members fits: if its key is that of a field, its
value is one of that field.  A document that is read is a value, whatever else is known
of it.
-/

namespace SeriesCodec

namespace Options

namespace Document

open Json (Blanks Delimited Form)

variable {text rest chars behind : List Char} {draft after : Draft} {first : Bool}

/-- A member of an object, of which nothing is known. -/
structure Member where
  key : List Char
  value : List Char

inductive MemberText : Member → List Char → Prop where
  | member {content key before value : List Char} (named : Json.Spells content key)
      (spaced : Blanks before) (form : Form .value value) :
      MemberText ⟨content, value⟩ ('"' :: (key ++ '"' :: (before ++ ':' :: value)))

/-- A member that is a setting, or one that is not looked at. -/
inductive Fits : Member → Option Setting → Prop where
  | setting {setting : Setting} {gap : List Char} (aligned : Blanks gap) :
      Fits ⟨setting.field.name.toList, gap ++ setting.text⟩ (some setting)
  | other {member : Member} (unknown : ∀ field : Field, member.key ≠ field.name.toList) :
      Fits member none

/-! ## Documents are values -/

theorem EntryText.member {entry : Option Setting} (written : EntryText entry text) :
    ∃ member, Fits member entry ∧ MemberText member text := by
  cases written with
  | @setting setting key before gap named spaced aligned =>
      exact ⟨_, .setting aligned, .member named spaced (.scalar aligned (scalarText_text setting))⟩
  | other named unknown spaced form => exact ⟨_, .other unknown, .member named spaced form⟩

theorem EntryText.form {entry : Option Setting} {gap : List Char}
    (written : EntryText entry text) (blanks : Blanks gap)
    (later : Form (.more .object) behind) :
    Form (.member .object) (gap ++ (text ++ behind)) := by
  obtain ⟨_, _, ⟨named, spaced, form⟩⟩ := written.member
  have member := Form.field (.key blanks named.body spaced) form later
  simp only [List.append_assoc, List.cons_append, List.nil_append] at member ⊢
  exact member

theorem ElementText.form {setting : Setting} {gap : List Char}
    (written : ElementText setting text) (blanks : Blanks gap)
    (later : Form (.more .array) behind) :
    Form (.member .array) (gap ++ (text ++ behind)) := by
  cases written
  have element := Form.element (.scalar blanks (scalarText_text setting)) later
  rwa [List.append_assoc] at element

/-- A list of items that are members of a bracket is what the bracket holds. -/
theorem Listed.form {α : Type} {Item : α → List Char → Prop} {bracket : Json.Bracket}
    {items : List α}
    (member : ∀ {item text gap behind}, Item item text → Blanks gap →
      Form (.more bracket) behind → Form (.member bracket) (gap ++ (text ++ behind)))
    (listed : Listed Item bracket.close first items text) :
    Form (if first then .opened bracket else .more bracket) text := by
  induction listed with
  | @close first front blanks =>
      cases first with
      | true => exact .empty blanks
      | false => exact .last blanks
  | item lead written later ih =>
      cases lead with
      | first blanks => exact .filled (member written blanks ih)
      | next blanks spaced =>
          rw [List.append_assoc]
          exact .next blanks (member written spaced ih)

/-- A document with settings is a value with blanks around it. -/
theorem form_of_documentText {settings : List Setting} (document : DocumentText settings chars) :
    ∃ text back, Form .value text ∧ Blanks back ∧ chars = text ++ back := by
  cases document with
  | @object entries front text back before members once blanks =>
      refine ⟨_, back, .bracketed before (members.form EntryText.form), blanks, ?_⟩
      rw [List.append_assoc]
      rfl
  | @array settings front text back before elements ordered blanks =>
      refine ⟨_, back, .bracketed before (elements.form ElementText.form), blanks, ?_⟩
      rw [List.append_assoc]
      rfl

/-! ## Members that are read -/

/-- A member that is read fits, and is read to the end of its value. -/
theorem fits_of_readMember {key value before : List Char} (spaced : Blanks before)
    (form : Form .value value) (ended : Delimited behind)
    (read : readMember draft key (before ++ ':' :: (value ++ behind)) = .ok (after, rest)) :
    rest = behind ∧ ∃ entry, Fits ⟨key, value⟩ entry ∧
      entry.toList.foldlM Draft.setOnce draft = .ok after := by
  have skipped := Json.skipValue_append form ended
  rw [readMember] at read
  split at read
  next unknown =>
    rw [Json.readColon_append spaced, Fallible.ok_bind, skipped] at read
    cases read
    exact ⟨rfl, none, .other (ofName?_eq_none_iff.mp unknown), rfl⟩
  next field known =>
    split at read
    next => cases read
    next fresh =>
      rw [Json.readColon_append spaced, Fallible.ok_bind] at read
      have again := skipValue_of_readField read
      rw [skipped] at again
      cases again
      obtain ⟨setting, gap, rfl, rfl, aligned, whole⟩ := setting_of_readField read
      rw [← List.append_assoc] at whole
      cases List.append_cancel_right whole
      cases ofName?_eq_some_iff.mp known
      refine ⟨rfl, some setting, .setting aligned, ?_⟩
      rw [Option.toList_some, List.foldlM_cons, Draft.setOnce, if_neg fresh]
      rfl

/-- By induction on the members: what is read are settings that fit. -/
theorem fits_of_readMembers {members : List Member}
    (listed : Listed MemberText '\x7d' first members text)
    (read : readMembers draft first (text ++ behind) = .ok (after, rest)) :
    rest = behind ∧ ∃ entries, List.Forall₂ Fits members entries ∧
      entries.reduceOption.foldlM Draft.setOnce draft = .ok after := by
  induction listed generalizing draft with
  | close blanks =>
      rw [← List.append_cons, readMembers_of_end (nextMember_of_end blanks _)] at read
      cases read
      exact ⟨rfl, [], .nil, rfl⟩
  | item lead written later ih =>
      have ended := later.delimited (.inr rfl) behind
      cases written with
      | member named spaced form =>
          simp only [List.append_assoc, List.cons_append] at read
          rw [readMembers_of_key (nextMember_append lead named _)] at read
          obtain ⟨⟨next, others⟩, taken, read⟩ := Fallible.bind_eq_ok_iff.mp read
          obtain ⟨rfl, entry, fit, kept⟩ := fits_of_readMember spaced form ended taken
          obtain ⟨rfl, entries, fits, done⟩ := ih read
          refine ⟨rfl, entry :: entries, .cons fit fits, ?_⟩
          rw [foldlM_entries, kept]
          exact done

/-- An object is read only if its members fit, no field comes twice and nothing follows. -/
theorem fits_of_read {members : List Member} {front back : List Char} {options : Options}
    (before : Blanks front) (listed : Listed MemberText '\x7d' true members text)
    (done : read (front ++ '\x7b' :: (text ++ back)) = .ok options) :
    Blanks back ∧ ∃ entries, List.Forall₂ Fits members entries ∧
      (entries.reduceOption.map Setting.field).Nodup := by
  rw [read, readDraft, Json.skipBlanks_behind before rfl] at done
  obtain ⟨⟨draft, rest⟩, parts, ended⟩ := Fallible.bind_eq_ok_iff.mp done
  obtain ⟨rfl, entries, fits, taken⟩ := fits_of_readMembers listed parts
  refine ⟨?_, entries, fits, (Draft.get?_of_settings taken).1⟩
  dsimp only at ended
  split at ended
  next blank => exact Json.blanks_iff.mpr blank
  next => cases ended

/-! ## Members that do not fit -/

inductive Flawed (members : List Member) : Prop where
  /-- A member of a field has a value of another type, or one that is out of range. -/
  | unfit (member : Member) (inside : member ∈ members) (refuted : ∀ entry, ¬Fits member entry)
  | repeated (field : Field) (twice : 1 < (members.map Member.key).count field.name.toList)

theorem name_inj {field other : Field} :
    field.name.toList = other.name.toList ↔ field = other := by
  rw [← ofName?_eq_some_iff, ofName?_eq_some_iff.mpr rfl, Option.some.injEq]

/-- A field is set as often as it is among the keys. -/
theorem count_of_fits {members : List Member} {entries : List (Option Setting)}
    (fits : List.Forall₂ Fits members entries) (field : Field) :
    (members.map Member.key).count field.name.toList =
      (entries.reduceOption.map Setting.field).count field := by
  induction fits with
  | nil => rfl
  | cons fit later ih =>
      cases fit with
      | @setting setting gap aligned =>
          rw [List.map_cons, List.count_cons, List.reduceOption_cons_of_some, List.map_cons,
            List.count_cons, ih]
          congr 1
          simp only [beq_iff_eq, name_inj]
      | other unknown =>
          rw [List.map_cons, List.count_cons_of_ne (unknown field), ih]
          rfl

theorem exists_fit {members : List Member} {entries : List (Option Setting)} {member : Member}
    (fits : List.Forall₂ Fits members entries) (inside : member ∈ members) :
    ∃ entry, Fits member entry := by
  induction fits with
  | nil => cases inside
  | cons fit later ih =>
      rcases List.mem_cons.mp inside with rfl | further
      · exact ⟨_, fit⟩
      · exact ih further

/-- An object is read only if nothing is wrong with its members and nothing follows. -/
theorem sound_of_read {members : List Member} {front back : List Char} {options : Options}
    (before : Blanks front) (listed : Listed MemberText '\x7d' true members text)
    (done : read (front ++ '\x7b' :: (text ++ back)) = .ok options) :
    ¬Flawed members ∧ Blanks back := by
  obtain ⟨blanks, entries, fits, once⟩ := fits_of_read before listed done
  refine ⟨?_, blanks⟩
  rintro (⟨member, inside, refuted⟩ | ⟨field, twice⟩)
  · obtain ⟨entry, fit⟩ := exists_fit fits inside
    exact refuted entry fit
  · rw [count_of_fits fits] at twice
    exact Nat.not_le_of_lt twice (List.nodup_iff_count_le_one.mp once field)

end Document

end Options

end SeriesCodec
