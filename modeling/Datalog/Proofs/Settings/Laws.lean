import Datalog.Settings.Loading

/-!
# What settings rely on

**Paths.** `find?` follows a path of keys through the tables of a tree.  A tree is `Distinct` if no
table that a path can reach has two entries of one key.

**Merging.** `Merged` relates two trees to the right-biased merge of both, by what its look-ups
give: where both trees are tables, a key of one of them keeps its tree and a key of both has the
merge of the two; otherwise the upper tree is the result.  `Layered` is the same for several tables,
one over the other.

**Variables.** Two paths meet if one is a beginning of the other.  The variables of an environment
are `Apart` if the paths of no two of them meet; letter case does not keep them apart.  A table
`Settles` an environment if it has the values of the variables at their paths and nothing at a path
that meets none of these.

**Records.** A table gives the members of a record by key and a list gives them by position.

**Laws.** A library is `Lawful` if it does what the program relies on.
-/

namespace Datalog

section Laws

namespace SettingTree

/-- The tree at the end of a path of keys. -/
def find? : SettingTree → List String → Option SettingTree
  | tree, [] => some tree
  | table entries, key :: path => (entries.lookup key).bind fun tree => tree.find? path
  | _, _ :: _ => none

/-- Whether a tree is a table. -/
def isTable : SettingTree → Bool
  | table _ => true
  | _ => false

/-- Whether a tree has members for a record. -/
def isSection : SettingTree → Bool
  | table _ | list _ => true
  | _ => false

/-- The tree at a key of a table, or at a position of a list. -/
def member? (key : String) (position : Nat) : SettingTree → Option SettingTree
  | table entries => entries.lookup key
  | list items => items[position]?
  | _ => none

/-- The tree with a character as a text. -/
def asText : SettingTree → SettingTree
  | character value => text (String.singleton value)
  | tree => tree

/-- Tables on all paths have no key twice. -/
inductive Distinct : SettingTree → Prop
  | table {entries : List (String × SettingTree)} :
      (entries.map Prod.fst).Nodup →
      (∀ entry ∈ entries, Distinct entry.2) →
      Distinct (table entries)
  | plain {tree : SettingTree} : tree.isTable = false → Distinct tree

/-- The last tree is the second one laid over the first. -/
inductive Merged : SettingTree → SettingTree → SettingTree → Prop
  | tables {lower upper merged : List (String × SettingTree)} :
      (∀ key, upper.lookup key = none → merged.lookup key = lower.lookup key) →
      (∀ key, lower.lookup key = none → merged.lookup key = upper.lookup key) →
      (∀ key old value, lower.lookup key = some old → upper.lookup key = some value →
        (merged.lookup key).isSome = true) →
      (∀ key old value new, lower.lookup key = some old → upper.lookup key = some value →
        merged.lookup key = some new → Merged old value new) →
      Merged (table lower) (table upper) (table merged)
  | replaced {lower upper : SettingTree} :
      ¬(lower.isTable ∧ upper.isTable) →
      Merged lower upper upper

/-- The last table is the first one with all tables of a list laid over it in turn. -/
inductive Layered : Layer → List Layer → Layer → Prop
  | nil {base : Layer} : Layered base [] base
  | cons {base upper next merged : Layer} {rest : List Layer} :
      Merged (table base) (table upper) (table next) → Layered next rest merged →
      Layered base (upper :: rest) merged

end SettingTree

/-- Whether one path of keys is a beginning of the other. -/
def PathsMeet (path other : List String) : Prop :=
  path <+: other ∨ other <+: path

/-- An extractor that takes the trees with a meaning, wherever they stand, and no others. -/
def Extractor.Reads {α : Type} (extract : Extractor α) (means : SettingTree → α → Prop) : Prop :=
  ∀ path tree value, extract path tree = .ok value ↔ means tree value

namespace SettingsLibrary

variable (library : SettingsLibrary) (start separator : String)

/-- No two variables have paths that meet. -/
def Apart (environment : List (String × String)) : Prop :=
  environment.Pairwise fun first second =>
    ∀ path other, library.path? start separator first.1 = some path →
      library.path? start separator second.1 = some other → ¬PathsMeet path other

/-- The values of the variables with a path, and nothing else, are at their paths. -/
structure Settles (environment : List (String × String)) (layer : Layer) : Prop where
  value_at : ∀ entry ∈ environment, ∀ path,
    library.path? start separator entry.1 = some path →
      (SettingTree.table layer).find? path = some (library.value entry.2)
  only : ∀ path tree, (SettingTree.table layer).find? path = some tree → path ≠ [] →
    ∃ entry ∈ environment, ∃ other,
      library.path? start separator entry.1 = some other ∧ PathsMeet path other

/-- What the program relies on in a library. -/
structure Lawful (library : SettingsLibrary) : Prop where
  /-- A file that does not exist is an empty table. -/
  absent : library.ofFile none = .ok []
  /-- The tables of a file have each key once. -/
  distinct_ofFile : ∀ file layer, library.ofFile file = .ok layer →
    (SettingTree.table layer).Distinct
  /-- The tables of an environment have each key once. -/
  distinct_ofEnvironment : ∀ start separator environment,
    (SettingTree.table (library.ofEnvironment start separator environment)).Distinct
  /-- Variables whose paths do not meet stand side by side. -/
  settles : ∀ start separator environment, library.Apart start separator environment →
    library.Settles start separator environment
      (library.ofEnvironment start separator environment)
  /-- Tables are merged key by key, and otherwise the upper tree replaces the lower one. -/
  merged : ∀ lower upper, (SettingTree.table upper).Distinct →
    SettingTree.Merged (.table lower) (.table upper) (.table (library.merge lower upper))
  boolean_reads : library.boolean.Reads fun tree value => tree = .boolean value
  text_reads : library.text.Reads fun tree value => tree.asText = .text value
  choice_reads : ∀ {α : Type} (name : String) (choices : List (String × α)),
    (library.choice name choices).Reads fun tree value =>
      ∃ chosen, tree = .text chosen ∧ choices.lookup chosen = some value
  /-- Only tables and lists have members for a record. -/
  members_isSection : ∀ name keys path tree,
    (∃ members, library.members name keys path tree = .ok members) ↔ tree.isSection = true
  /-- No field of a record has two members. -/
  nodup_members : ∀ name keys path tree members, keys.Nodup →
    library.members name keys path tree = .ok members → (members.map Member.key).Nodup
  /-- A field of a record has the tree at its key or its position. -/
  mem_members : ∀ name keys path tree members, keys.Nodup →
    library.members name keys path tree = .ok members →
      ∀ (position : Nat) key, keys[position]? = some key →
        ∀ found, (∃ member ∈ members, member.key = key ∧ member.tree = found) ↔
          tree.member? key position = some found

end SettingsLibrary

open SettingTree

theorem SettingsLibrary.Lawful.layered_foldl
    {library : SettingsLibrary}
    (h : library.Lawful)
    {layers : List Layer}
    (hlayers : ∀ layer ∈ layers, (SettingTree.table layer).Distinct)
    (base : Layer) :
    Layered base layers (layers.foldl library.merge base) := by
  induction layers generalizing base with
  | nil => exact .nil
  | cons layer rest ih =>
      exact .cons (h.merged base layer (hlayers layer List.mem_cons_self))
        (ih (fun other hother => hlayers other (List.mem_cons_of_mem _ hother)) _)

end Laws

end Datalog
