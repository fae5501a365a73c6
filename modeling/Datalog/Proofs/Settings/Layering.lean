import Datalog.Proofs.Settings.Records
import Datalog.Settings.Keyed

/-!
# Settings from layers

**Keys.** Settings have six keys in two sections.  A section is a table, which gives its settings by
key, or a list, which gives them by position.

**Defaults.** What a field is where it is missing and what it is in the default settings are two
things, which agree on every key.

**Result.** With every lawful library, the settings of layers follow from the merge of the default
settings and the layers.  They fail exactly where a section or a known key has a wrong value in the
merge, whatever the layers have there, and otherwise every key has its value in the merge, or its
default where the merge has none.
-/

namespace Datalog

section Layering

open SettingTree

section Keys

/-- The keys that settings have. -/
inductive SettingKey where
  | evaluation (field : EvaluationField)
  | logging (field : LoggingField)
deriving DecidableEq, Repr

namespace SettingKey

/-- The section of a key. -/
def part : SettingKey → SettingsSection
  | evaluation _ => .evaluation
  | logging _ => .logging

/-- The key in its section. -/
def name : SettingKey → String
  | evaluation field => field.key
  | logging field => field.key

/-- The place of a key in a section that is a list. -/
def position : SettingKey → Nat
  | evaluation field => EvaluationField.all.idxOf field
  | logging field => LoggingField.all.idxOf field

/-- The value of a key in settings. -/
def valueIn (settings : Settings) : SettingKey → SettingTree
  | evaluation field => .boolean (field.valueIn settings.evaluation)
  | logging field => field.tree (field.valueIn settings.logging)

/-- Whether a tree is a value that a key can have. -/
def Accepts : SettingKey → SettingTree → Prop
  | evaluation _, tree => ∃ value, tree = .boolean value
  | logging .level, tree => ∃ value, tree.asText = .text value
  | logging .format, tree => ∃ format : LogFormat, tree = .text format.name

/-- What a section has at a key. -/
def given? (key : SettingKey) (tree? : Option SettingTree) : Option SettingTree :=
  tree?.bind (member? key.name key.position)

/-- The value of a key that a section gives, or the one of the default settings where it gives
none. -/
def valueFrom (key : SettingKey) (tree? : Option SettingTree) : SettingTree :=
  ((key.given? tree?).map asText).getD (key.valueIn {})

end SettingKey

/-- Whether a section is neither a table nor a list, or a key has a value that it cannot have. -/
def Layer.IsWrong (merged : Layer) : Prop :=
  ∃ key : SettingKey,
    (∃ tree, merged.lookup key.part.key = some tree ∧ ¬tree.isSection) ∨
      ∃ tree, key.given? (merged.lookup key.part.key) = some tree ∧ ¬key.Accepts tree

/-- An outcome that is that of the default settings with layers over them: it is an error where the
merge is wrong, and else each key has its value in the merge or its default. -/
def Settings.FollowsLayers (outcome : Except SettingsError Settings) (layers : List Layer) : Prop :=
  ∃ merged, Layered (Layer.ofSettings {}) layers merged ∧
    ((∃ error, outcome = .error error) ↔ merged.IsWrong) ∧
    ∀ settings, outcome = .ok settings ↔
      ¬merged.IsWrong ∧
        ∀ key : SettingKey, key.valueIn settings = key.valueFrom (merged.lookup key.part.key)

end Keys

section Defaults

/-- A switch that is missing is what it is by default. -/
theorem EvaluationField.missing_eq
    (field : EvaluationField) :
    field.missing = field.valueIn {} := by
  cases field <;> rfl

/-- A wish for the log that is missing is what it is by default. -/
theorem LoggingField.missing_eq
    (field : LoggingField) :
    field.missing = field.valueIn {} := by
  cases field <;> rfl

end Defaults

section Fields

variable {library : SettingsLibrary}

theorem boolean_injective :
    Function.Injective SettingTree.boolean :=
  fun _ _ h => SettingTree.boolean.inj h

theorem boolean_eq_asText_iff
    {value : Bool} {tree : SettingTree} :
    .boolean value = tree.asText ↔ tree = .boolean value := by
  cases tree <;> simp [asText, eq_comm]

theorem LogFormat.name_injective :
    Function.Injective LogFormat.name := by
  intro format other h
  revert h
  cases format <;> cases other <;> decide

/-- The names of formats are longer than one character. -/
theorem name_ne_singleton
    (format : LogFormat) (value : Char) :
    format.name ≠ String.singleton value := by
  intro h
  have hlength := congrArg String.length h
  rw [String.length_singleton] at hlength
  cases format <;> exact absurd hlength (by decide)

theorem name_eq_asText_iff
    {format : LogFormat} {tree : SettingTree} :
    .text format.name = tree.asText ↔ tree = .text format.name := by
  cases tree with
  | character value => simp [asText, name_ne_singleton]
  | _ => simp [asText, eq_comm]

theorem lookup_choices
    {name : String} {format : LogFormat} :
    LogFormat.choices.lookup name = some format ↔ name = format.name := by
  have hkeys : (LogFormat.choices.map Prod.fst).Nodup := by decide
  rw [Keyed.lookup_eq_some_iff hkeys]
  unfold LogFormat.choices
  cases format <;> simp [LogFormat.name]

theorem LoggingField.tree_injective
    (field : LoggingField) :
    Function.Injective field.tree := by
  cases field with
  | level => exact fun _ _ h => SettingTree.text.inj h
  | format => exact fun _ _ h => LogFormat.name_injective (SettingTree.text.inj h)

theorem EvaluationSettings.reads_field
    (h : library.Lawful)
    (field : EvaluationField) :
    ((form library).extract field).Reads fun tree value => .boolean value = tree.asText :=
  fun path tree value => (h.boolean_reads path tree value).trans boolean_eq_asText_iff.symm

theorem LoggingSettings.reads_field
    (h : library.Lawful)
    (field : LoggingField) :
    ((form library).extract field).Reads fun tree value => field.tree value = tree.asText := by
  cases field with
  | level => exact fun path tree value => (h.text_reads path tree value).trans eq_comm
  | format =>
      intro path tree format
      refine (h.choice_reads _ _ path tree format).trans (Iff.trans ?_ name_eq_asText_iff.symm)
      constructor
      · rintro ⟨name, htree, hname⟩
        rw [htree, lookup_choices.1 hname]
      · exact fun htree => ⟨_, htree, lookup_choices.2 rfl⟩

end Fields

section Sections

variable {library : SettingsLibrary}

namespace SettingsSection

/-- A tree gives the settings of a section: every key of the section has its value there. -/
def Means (part : SettingsSection) (tree : SettingTree) (value : part.Value) : Prop :=
  tree.isSection = true ∧
    ∀ settings, part.valueIn settings = value → ∀ key : SettingKey, key.part = part →
      key.valueIn settings = key.valueFrom (some tree)

/-- A section that is missing is what it is by default. -/
theorem missing_eq
    (part : SettingsSection) :
    part.missing = part.valueIn {} := by
  cases part <;> rfl

/-- A section is known by the values of its keys. -/
theorem valueIn_eq_iff
    {part : SettingsSection} {settings other : Settings} :
    part.valueIn settings = part.valueIn other ↔
      ∀ key : SettingKey, key.part = part → key.valueIn settings = key.valueIn other := by
  constructor
  · rintro h (field | field) hkey
    · cases hkey
      exact congrArg (fun value => SettingTree.boolean (field.valueIn value)) h
    · cases hkey
      exact congrArg (fun value => field.tree (field.valueIn value)) h
  · intro h
    cases part with
    | evaluation =>
        exact congrArg EvaluationSettings.ofValues
          (funext fun field => boolean_injective (h (.evaluation field) rfl))
    | logging =>
        exact congrArg LoggingSettings.ofValues
          (funext fun field => field.tree_injective (h (.logging field) rfl))

end SettingsSection

theorem EvaluationSettings.covers_form
    (library : SettingsLibrary) :
    (form library).Covers where
  mem_fields field := by cases field <;> simp [form, EvaluationField.all]
  nodup_keys := by simp [form, EvaluationField.all, EvaluationField.key]

theorem LoggingSettings.covers_form
    (library : SettingsLibrary) :
    (form library).Covers where
  mem_fields field := by cases field <;> simp [form, LoggingField.all]
  nodup_keys := by simp [form, LoggingField.all, LoggingField.key]

theorem Settings.covers_form
    (library : SettingsLibrary) :
    (form library).Covers where
  mem_fields part := by cases part <;> simp [form, SettingsSection.all]
  nodup_keys := by simp [form, SettingsSection.all, SettingsSection.key]

/-- The switches are read by key or by position, and those that are missing are the default ones. -/
theorem EvaluationSettings.extract_reads
    (h : library.Lawful) :
    (extract library).Reads (SettingsSection.Means .evaluation) := by
  intro path tree settings
  refine ((covers_form library).readAs_reads_encoded (fun settings field => field.valueIn settings)
    h (fun _ => boolean_injective) (reads_field h) (fun _ => rfl)
    (fun values => funext fun field => by cases field <;> rfl) path tree settings).trans
    (and_congr_right fun _ => ?_)
  have hmissing (field : EvaluationField) :
      SettingTree.boolean ((form library).missing field) =
        (SettingKey.evaluation field).valueIn {} :=
    congrArg SettingTree.boolean field.missing_eq
  simp only [hmissing]
  constructor
  · rintro hfields whole rfl key hkey
    cases key with
    | evaluation field => exact hfields field
    | logging field => cases hkey
  · exact fun hkeys field => hkeys { evaluation := settings } rfl (.evaluation field) rfl

/-- The wishes for the log are read by key or by position, and those that are missing are the
default ones. -/
theorem LoggingSettings.extract_reads
    (h : library.Lawful) :
    (extract library).Reads (SettingsSection.Means .logging) := by
  intro path tree settings
  refine ((covers_form library).readAs_reads_encoded (fun settings field => field.valueIn settings)
    h LoggingField.tree_injective (reads_field h) (fun _ => rfl)
    (fun values => funext fun field => by cases field <;> rfl) path tree settings).trans
    (and_congr_right fun _ => ?_)
  have hmissing (field : LoggingField) :
      field.tree ((form library).missing field) = (SettingKey.logging field).valueIn {} :=
    congrArg field.tree field.missing_eq
  simp only [hmissing]
  constructor
  · rintro hfields whole rfl key hkey
    cases key with
    | evaluation field => cases hkey
    | logging field => exact hfields field
  · exact fun hkeys field => hkeys { logging := settings } rfl (.logging field) rfl

theorem Settings.reads_part
    (h : library.Lawful)
    (part : SettingsSection) :
    ((form library).extract part).Reads part.Means := by
  cases part with
  | evaluation => exact EvaluationSettings.extract_reads h
  | logging => exact LoggingSettings.extract_reads h

/-- A section of settings is filled from a table if it has its values there or is not there. -/
theorem Settings.fills_iff
    {entries : Layer} {part : SettingsSection} {settings : Settings} :
    (form library).Fills SettingsSection.Means (.table entries) part (part.valueIn settings) ↔
      (∀ tree, entries.lookup part.key = some tree → tree.isSection = true) ∧
        ∀ key : SettingKey, key.part = part →
          key.valueIn settings = key.valueFrom (entries.lookup part.key) := by
  have hmember : (SettingTree.table entries).member? ((form library).key part)
      ((form library).fields.idxOf part) = entries.lookup part.key := rfl
  cases h : entries.lookup part.key with
  | none =>
      rw [RecordForm.fills_of_none (hmember.trans h)]
      change part.valueIn settings = part.missing ↔ _
      rw [part.missing_eq, SettingsSection.valueIn_eq_iff]
      exact (and_iff_right nofun).symm
  | some found =>
      rw [RecordForm.fills_of_some (hmember.trans h)]
      constructor
      · rintro ⟨hsection, hkeys⟩
        exact ⟨fun tree htree => Option.some.inj htree ▸ hsection, hkeys settings rfl⟩
      · rintro ⟨hsection, hkeys⟩
        refine ⟨hsection found rfl, fun other hother key hkey => ?_⟩
        rw [SettingsSection.valueIn_eq_iff.1 hother key hkey]
        exact hkeys key hkey

end Sections

section Values

namespace SettingKey

/-- A key accepts the trees of the values that it can have. -/
theorem accepts_iff
    (key : SettingKey) (tree : SettingTree) :
    key.Accepts tree ↔ ∃ settings, key.valueIn settings = tree.asText := by
  cases key with
  | evaluation field =>
      constructor
      · rintro ⟨value, rfl⟩
        exact ⟨{ evaluation := .ofValues fun _ => value }, by cases field <;> rfl⟩
      · rintro ⟨settings, h⟩
        exact ⟨_, boolean_eq_asText_iff.1 h⟩
  | logging field =>
      cases field with
      | level =>
          constructor
          · rintro ⟨value, h⟩
            exact ⟨{ logging := { level := value } }, h.symm⟩
          · rintro ⟨settings, h⟩
            exact ⟨_, h.symm⟩
      | format =>
          constructor
          · rintro ⟨format, rfl⟩
            exact ⟨{ logging := { format } }, rfl⟩
          · rintro ⟨settings, h⟩
            exact ⟨_, name_eq_asText_iff.1 h⟩

theorem valueFrom_of_some
    {key : SettingKey} {tree? : Option SettingTree} {tree : SettingTree}
    (h : key.given? tree? = some tree) :
    key.valueFrom tree? = tree.asText := by
  unfold valueFrom
  rw [h]
  rfl

theorem valueFrom_of_none
    {key : SettingKey} {tree? : Option SettingTree}
    (h : key.given? tree? = none) :
    key.valueFrom tree? = key.valueIn {} := by
  unfold valueFrom
  rw [h]
  rfl

/-- Values of all keys belong to one choice of settings. -/
theorem exists_of_values
    {value : SettingKey → SettingTree}
    (h : ∀ key : SettingKey, ∃ settings, key.valueIn settings = value key) :
    ∃ settings, ∀ key : SettingKey, key.valueIn settings = value key := by
  obtain ⟨found, hfound⟩ := Classical.axiomOfChoice h
  refine ⟨{
    evaluation := .ofValues fun field => field.valueIn (found (.evaluation field)).evaluation
    logging := .ofValues fun field => field.valueIn (found (.logging field)).logging },
    fun key => ?_⟩
  rw [← hfound key]
  rcases key with field | field <;> cases field <;> rfl

end SettingKey

end Values

section Entries

variable {library : SettingsLibrary} {merged : Layer} {settings : Settings}

/-- Settings are read from a table if its sections are sections and every key has its value there or
its default. -/
theorem Settings.ofEntries_eq_ok_iff
    (h : library.Lawful) :
    ofEntries library merged = .ok settings ↔
      (∀ key : SettingKey, ∀ tree, merged.lookup key.part.key = some tree → tree.isSection = true) ∧
        ∀ key : SettingKey,
          key.valueIn settings = key.valueFrom (merged.lookup key.part.key) := by
  refine (RecordForm.Covers.readAs_reads (fun settings part => part.valueIn settings)
    (covers_form library) h (reads_part h) (fun _ => rfl)
    (fun values => funext fun part => by cases part <;> rfl) [] (.table merged) settings).trans ?_
  simp only [fills_iff]
  constructor
  · rintro ⟨_, hparts⟩
    exact ⟨fun key => (hparts key.part).1, fun key => (hparts key.part).2 key rfl⟩
  · rintro ⟨hsections, hvalues⟩
    refine ⟨rfl, fun part => ⟨?_, fun key hkey => hkey ▸ hvalues key⟩⟩
    cases part with
    | evaluation => exact hsections (.evaluation .optimize)
    | logging => exact hsections (.logging .level)

theorem Settings.exists_ofEntries_iff
    (h : library.Lawful) :
    (∃ settings, ofEntries library merged = .ok settings) ↔ ¬merged.IsWrong := by
  constructor
  · rintro ⟨settings, hok⟩ ⟨key, ⟨tree, htree, hsection⟩ | ⟨tree, hgiven, haccepts⟩⟩
    · exact hsection (((ofEntries_eq_ok_iff h).1 hok).1 key tree htree)
    · have hvalue := ((ofEntries_eq_ok_iff h).1 hok).2 key
      rw [SettingKey.valueFrom_of_some hgiven] at hvalue
      exact haccepts ((key.accepts_iff tree).2 ⟨settings, hvalue⟩)
  · intro hwrong
    have hvalues (key : SettingKey) :
        ∃ settings, key.valueIn settings = key.valueFrom (merged.lookup key.part.key) := by
      cases hgiven : key.given? (merged.lookup key.part.key) with
      | none => exact ⟨{}, (SettingKey.valueFrom_of_none hgiven).symm⟩
      | some tree =>
          rw [SettingKey.valueFrom_of_some hgiven, ← key.accepts_iff]
          exact Classical.byContradiction fun haccepts =>
            hwrong ⟨key, .inr ⟨tree, hgiven, haccepts⟩⟩
    obtain ⟨settings, hsettings⟩ := SettingKey.exists_of_values hvalues
    refine ⟨settings, (ofEntries_eq_ok_iff h).2 ⟨fun key tree htree => ?_, hsettings⟩⟩
    exact Classical.byContradiction fun hsection => hwrong ⟨key, .inl ⟨tree, htree, hsection⟩⟩

theorem Settings.exists_error_ofEntries_iff
    (h : library.Lawful) :
    (∃ error, ofEntries library merged = .error error) ↔ merged.IsWrong := by
  have hok : (∃ settings, ofEntries library merged = .ok settings) ↔ ¬merged.IsWrong :=
    exists_ofEntries_iff h
  cases hresult : ofEntries library merged with
  | error error =>
      rw [hresult] at hok
      exact iff_of_true ⟨error, rfl⟩ (Classical.byContradiction fun hwrong => nomatch hok.2 hwrong)
  | ok settings =>
      rw [hresult] at hok
      exact iff_of_false nofun (hok.1 ⟨settings, rfl⟩)

/-- Where nothing is wrong, every key has its value in the table or its default. -/
theorem Settings.ofEntries_eq_ok_iff_values
    (h : library.Lawful) :
    ofEntries library merged = .ok settings ↔
      ¬merged.IsWrong ∧
        ∀ key : SettingKey, key.valueIn settings = key.valueFrom (merged.lookup key.part.key) := by
  constructor
  · intro hok
    exact ⟨(exists_ofEntries_iff h).1 ⟨settings, hok⟩, ((ofEntries_eq_ok_iff h).1 hok).2⟩
  · rintro ⟨hwrong, hvalues⟩
    obtain ⟨other, hother⟩ := (exists_ofEntries_iff h).2 hwrong
    exact (ofEntries_eq_ok_iff h).2 ⟨((ofEntries_eq_ok_iff h).1 hother).1, hvalues⟩

/-- Settings of layers follow from the merge of the layers over the default settings. -/
theorem Settings.followsLayers_ofLayers
    (h : library.Lawful)
    {layers : List Layer}
    (hlayers : ∀ layer ∈ layers, (SettingTree.table layer).Distinct) :
    FollowsLayers (ofLayers library layers) layers :=
  ⟨_, h.layered_foldl hlayers _, exists_error_ofEntries_iff h,
    fun _ => ofEntries_eq_ok_iff_values h⟩

end Entries

end Layering

end Datalog
