import Datalog.Proofs.Settings.Laws
import Mathlib.Data.List.Nodup

/-!
# What records are read as

**Members.** A record is read from its members one after the other.  As no field has two of them,
each field has the value of its member, whatever the order of the members.

**Result.** A record form reads the tables and the lists in which every field that is there has a
tree that means a value.  A field that is not there is what the form says of missing fields.
-/

namespace Datalog

section Records

/-- The fields of a form are all listed, and no two of them have one key. -/
structure RecordForm.Covers {ι : Type} {α : ι → Type} (form : RecordForm ι α) : Prop where
  mem_fields : ∀ field, field ∈ form.fields
  nodup_keys : (form.fields.map form.key).Nodup

namespace Extractor

theorem bind_eq_ok_iff
    {α β : Type} {x : Except SettingsError α} {f : α → Except SettingsError β} {b : β} :
    (x >>= f) = .ok b ↔ ∃ a, x = .ok a ∧ f a = .ok b := by
  cases x <;> simp [bind, Except.bind]

end Extractor

namespace RecordForm

variable {ι : Type} {α : ι → Type} {form : RecordForm ι α}
variable {field : ι} {members : List Member}

/-- The value of a field, if it has any, is that of the first member with its key. -/
def Says (form : RecordForm ι α) (members : List Member) (field : ι) (value? : Option (α field)) :
    Prop :=
  match members.find? fun member => member.key = form.key field with
  | none => value? = none
  | some member => ∃ value,
      form.extract field member.path member.tree = .ok value ∧ value? = some value

/-- The value of a field is what the tree of its member means, or that of a missing field. -/
def Fills [DecidableEq ι] (form : RecordForm ι α)
    (means : (field : ι) → SettingTree → α field → Prop)
    (tree : SettingTree) (field : ι) (value : α field) : Prop :=
  match tree.member? (form.key field) (form.fields.idxOf field) with
  | none => value = form.missing field
  | some found => means field found value

section Fields

theorem Covers.key_inj
    (h : form.Covers)
    {other : ι}
    (heq : form.key field = form.key other) :
    field = other :=
  List.inj_on_of_nodup_map h.nodup_keys (h.mem_fields field) (h.mem_fields other) heq

theorem Covers.field?_key
    (h : form.Covers)
    (field : ι) :
    form.field? (form.key field) = some field := by
  unfold field?
  cases hfound : form.fields.find? fun other => form.key other = form.key field with
  | none => exact absurd (List.find?_eq_none.1 hfound field (h.mem_fields field)) (by simp)
  | some other =>
      have hkey : form.key other = form.key field := by simpa using List.find?_some hfound
      rw [h.key_inj hkey]

theorem key_of_field?
    {key : String}
    (h : form.field? key = some field) :
    form.key field = key := by
  simpa using List.find?_some h

theorem Covers.getElem?_keys
    [DecidableEq ι]
    (h : form.Covers)
    (field : ι) :
    (form.fields.map form.key)[form.fields.idxOf field]? = some (form.key field) := by
  rw [List.getElem?_map, List.getElem?_eq_getElem (List.idxOf_lt_length_iff.2 (h.mem_fields field)),
    List.getElem_idxOf, Option.map_some]

end Fields

section Members

theorem withValue_self
    [DecidableEq ι]
    (values : (field : ι) → Option (α field)) (field : ι) (value : α field) :
    withValue values field value field = some value := by
  simp [withValue]

theorem withValue_of_ne
    [DecidableEq ι]
    {values : (field : ι) → Option (α field)} {value : α field} {other : ι}
    (h : field ≠ other) :
    withValue values field value other = values other := by
  simp [withValue, h]

theorem says_cons_of_key
    {member : Member} {value? : Option (α field)}
    (h : member.key = form.key field) :
    form.Says (member :: members) field value? ↔
      ∃ value, form.extract field member.path member.tree = .ok value ∧ value? = some value := by
  unfold Says
  rw [List.find?_cons_of_pos (by simpa using h)]

theorem says_cons_of_ne
    {member : Member} {value? : Option (α field)}
    (h : member.key ≠ form.key field) :
    form.Says (member :: members) field value? ↔ form.Says members field value? := by
  unfold Says
  rw [List.find?_cons_of_neg (by simpa using h)]

theorem says_none
    (h : ∀ member ∈ members, member.key ≠ form.key field) :
    form.Says members field none := by
  unfold Says
  rw [List.find?_eq_none.2 fun member hmember => by simpa using h member hmember]

variable [DecidableEq ι]

theorem given_cons_eq_ok_iff
    {member : Member} {values : (field : ι) → Option (α field)}
    (h : form.field? member.key = some field) :
    form.given (member :: members) = .ok values ↔
      ∃ value others, form.extract field member.path member.tree = .ok value ∧
        form.given members = .ok others ∧ withValue others field value = values := by
  rw [given, h]
  simp only [Extractor.bind_eq_ok_iff, pure, Except.pure, Except.ok.injEq, exists_and_left]

/-- The members are read one after the other, and each field has what its member says. -/
theorem given_eq_ok_iff
    (hform : form.Covers)
    (hnodup : (members.map Member.key).Nodup)
    {values : (field : ι) → Option (α field)} :
    form.given members = .ok values ↔ ∀ field, form.Says members field (values field) := by
  induction members generalizing values with
  | nil =>
      rw [given, Except.ok.injEq]
      exact eq_comm.trans funext_iff
  | cons member rest ih =>
      rw [List.map_cons, List.nodup_cons] at hnodup
      obtain ⟨hfresh, hnodup⟩ := hnodup
      cases hfield : form.field? member.key with
      | none =>
          have hother (field : ι) : member.key ≠ form.key field := fun heq => by
            rw [heq, hform.field?_key] at hfield
            cases hfield
          rw [given, hfield]
          simp only [says_cons_of_ne (hother _)]
          exact ih hnodup
      | some field =>
          have hkey : member.key = form.key field := (key_of_field? hfield).symm
          have hrest : ∀ other ∈ rest, other.key ≠ form.key field := fun other hother heq =>
            hfresh (List.mem_map.2 ⟨other, hother, heq.trans hkey.symm⟩)
          rw [given_cons_eq_ok_iff hfield]
          constructor
          · rintro ⟨value, others, hvalue, hothers, rfl⟩ other
            by_cases hsame : field = other
            · subst hsame
              rw [says_cons_of_key hkey, withValue_self]
              exact ⟨value, hvalue, rfl⟩
            · rw [says_cons_of_ne fun heq => hsame (hform.key_inj (hkey.symm.trans heq)),
                withValue_of_ne hsame]
              exact (ih hnodup).1 hothers other
          · intro hgiven
            obtain ⟨value, hvalue, hset⟩ := (says_cons_of_key hkey).1 (hgiven field)
            -- The rest says nothing of the field, as no later member has its key.
            refine ⟨value, fun other => if field = other then none else values other, hvalue,
              (ih hnodup).2 fun other => ?_, funext fun other => ?_⟩
            · by_cases hsame : field = other
              · subst hsame
                rw [if_pos rfl]
                exact says_none hrest
              · rw [if_neg hsame]
                exact (says_cons_of_ne fun heq => hsame (hform.key_inj (hkey.symm.trans heq))).1
                  (hgiven other)
            · by_cases hsame : field = other
              · subst hsame
                rw [withValue_self, hset]
              · rw [withValue_of_ne hsame, if_neg hsame]

end Members

section Reading

variable [DecidableEq ι]
variable {library : SettingsLibrary} {means : (field : ι) → SettingTree → α field → Prop}
variable {path : List String} {tree : SettingTree}

theorem fills_of_none
    {value : α field}
    (h : tree.member? (form.key field) (form.fields.idxOf field) = none) :
    form.Fills means tree field value ↔ value = form.missing field := by
  unfold Fills
  rw [h]

theorem fills_of_some
    {found : SettingTree} {value : α field}
    (h : tree.member? (form.key field) (form.fields.idxOf field) = some found) :
    form.Fills means tree field value ↔ means field found value := by
  unfold Fills
  rw [h]

/-- What a member says of its field, in terms of the tree from which the members are. -/
theorem says_iff_fills
    (hlibrary : library.Lawful)
    (hform : form.Covers)
    (hmeans : ∀ field, (form.extract field).Reads (means field))
    (hmembers : library.members form.name (form.fields.map form.key) path tree = .ok members)
    (value : α field) :
    (∃ value?, form.Says members field value? ∧ value?.getD (form.missing field) = value) ↔
      form.Fills means tree field value := by
  have hmember := hlibrary.mem_members _ _ _ _ _ hform.nodup_keys hmembers _ _
    (hform.getElem?_keys field)
  unfold Says Fills
  cases hfind : members.find? fun member => member.key = form.key field with
  | none =>
      have hnone : tree.member? (form.key field) (form.fields.idxOf field) = none := by
        rw [Option.eq_none_iff_forall_ne_some]
        intro found hfound
        obtain ⟨member, hmem, hkey, _⟩ := (hmember found).2 hfound
        exact List.find?_eq_none.1 hfind member hmem (by simpa using hkey)
      simp [hnone, eq_comm]
  | some member =>
      have hkey : member.key = form.key field := by simpa using List.find?_some hfind
      have hfound : tree.member? (form.key field) (form.fields.idxOf field) = some member.tree :=
        (hmember member.tree).1 ⟨member, List.mem_of_find?_eq_some hfind, hkey, rfl⟩
      simp only [hfound]
      rw [← hmeans field member.path member.tree value]
      constructor
      · rintro ⟨_, ⟨read, hread, rfl⟩, rfl⟩
        exact hread
      · exact fun hread => ⟨some value, ⟨value, hread, rfl⟩, rfl⟩

theorem read_eq_ok_iff_given
    {values : (field : ι) → α field} :
    form.read library path tree = .ok values ↔
      ∃ members, library.members form.name (form.fields.map form.key) path tree = .ok members ∧
        ∃ given, form.given members = .ok given ∧
          (fun field => (given field).getD (form.missing field)) = values := by
  unfold read
  simp only [Extractor.bind_eq_ok_iff, pure, Except.pure, Except.ok.injEq]

/-- A record is read where the value has members and every field is filled. -/
theorem Covers.reads
    (hform : form.Covers)
    (hlibrary : library.Lawful)
    (hmeans : ∀ field, (form.extract field).Reads (means field)) :
    (form.read library).Reads fun tree values =>
      tree.isSection = true ∧ ∀ field, form.Fills means tree field (values field) := by
  intro path tree values
  rw [read_eq_ok_iff_given]
  simp only [← hlibrary.members_isSection form.name (form.fields.map form.key) path]
  constructor
  · rintro ⟨members, hmembers, given, hgiven, rfl⟩
    have hnodup := hlibrary.nodup_members _ _ _ _ _ hform.nodup_keys hmembers
    refine ⟨⟨members, hmembers⟩, fun field => ?_⟩
    exact (says_iff_fills hlibrary hform hmeans hmembers _).1
      ⟨given field, (given_eq_ok_iff hform hnodup).1 hgiven field, rfl⟩
  · rintro ⟨⟨members, hmembers⟩, hfills⟩
    have hnodup := hlibrary.nodup_members _ _ _ _ _ hform.nodup_keys hmembers
    have hgiven (field : ι) := (says_iff_fills hlibrary hform hmeans hmembers _).2 (hfills field)
    exact ⟨members, hmembers, fun field => (hgiven field).choose,
      (given_eq_ok_iff hform hnodup).2 fun field => (hgiven field).choose_spec.1,
      funext fun field => (hgiven field).choose_spec.2⟩

/-- A record is made up of the values of its fields. -/
theorem Covers.readAs_reads
    {σ : Type} {ofValues : ((field : ι) → α field) → σ}
    (valueIn : σ → (field : ι) → α field)
    (hform : form.Covers)
    (hlibrary : library.Lawful)
    (hmeans : ∀ field, (form.extract field).Reads (means field))
    (hrecord : ∀ record, ofValues (valueIn record) = record)
    (hvalues : ∀ values, valueIn (ofValues values) = values) :
    (form.readAs library ofValues).Reads fun tree record =>
      tree.isSection = true ∧ ∀ field, form.Fills means tree field (valueIn record field) := by
  intro path tree record
  have hread (values : (field : ι) → α field) := hform.reads hlibrary hmeans path tree values
  unfold readAs
  rw [Extractor.bind_eq_ok_iff]
  constructor
  · rintro ⟨values, hok, heq⟩
    cases heq
    rw [hvalues]
    exact (hread values).1 hok
  · intro hfills
    exact ⟨valueIn record, (hread _).2 hfills, congrArg Except.ok (hrecord record)⟩

/-- Where a field means what the tree of its value says, it is filled with what is found or with
what is missing. -/
theorem fills_iff
    {encode : (field : ι) → α field → SettingTree}
    (hencode : ∀ field, Function.Injective (encode field))
    {value : α field} :
    form.Fills (fun field tree value => encode field value = tree.asText) tree field value ↔
      encode field value =
        ((tree.member? (form.key field) (form.fields.idxOf field)).map SettingTree.asText).getD
          (encode field (form.missing field)) := by
  cases h : tree.member? (form.key field) (form.fields.idxOf field) with
  | none =>
      rw [fills_of_none h]
      exact (hencode field).eq_iff.symm
  | some found => exact fills_of_some h

/-- A record whose fields mean what their trees say is read where each field has the tree that is
found for it, or the tree of a missing field where none is. -/
theorem Covers.readAs_reads_encoded
    {σ : Type} {ofValues : ((field : ι) → α field) → σ}
    {encode : (field : ι) → α field → SettingTree}
    (valueIn : σ → (field : ι) → α field)
    (hform : form.Covers)
    (hlibrary : library.Lawful)
    (hencode : ∀ field, Function.Injective (encode field))
    (hmeans : ∀ field, (form.extract field).Reads fun tree value =>
      encode field value = tree.asText)
    (hrecord : ∀ record, ofValues (valueIn record) = record)
    (hvalues : ∀ values, valueIn (ofValues values) = values) :
    (form.readAs library ofValues).Reads fun tree record =>
      tree.isSection = true ∧ ∀ field, encode field (valueIn record field) =
        ((tree.member? (form.key field) (form.fields.idxOf field)).map SettingTree.asText).getD
          (encode field (form.missing field)) := by
  intro path tree record
  rw [hform.readAs_reads valueIn hlibrary hmeans hrecord hvalues path tree record]
  exact and_congr_right fun _ => forall_congr' fun field => fills_iff hencode

end Reading

end RecordForm

end Records

end Datalog
