import Datalog.OrderedSet
import Datalog.Settings.Library
import Datalog.StandIn.Environment.Name
import Datalog.StandIn.Environment.Value
import Datalog.StandIn.Meaning
import Datalog.StandIn.Toml.Grammar

/-!
# A library to read settings with

The program runs with this library; what is proved about settings holds for others, too.

**Files.** A file that does not exist is an empty table.  One that is not a TOML text in UTF-8 is an
error, whatever the other layers say.

**Merging.** Tables are merged key by key, and otherwise the upper tree replaces the lower one.

**Records.** A table gives the members of a record by key, in ascending order, and a list gives them
by position.  Everything else is no record.
-/

namespace Datalog

section StandIn

namespace SettingTree

mutual

/-- The tree `upper` laid over the tree `base`. -/
def merge (base : SettingTree) : (upper : SettingTree) → SettingTree
  | table entries =>
      match base with
      | table baseEntries => table (mergeEntries baseEntries entries)
      | _ => table entries
  | upper => upper

/-- Lays entries over entries, one after the other. -/
def mergeEntries (base : List (String × SettingTree)) :
    (upper : List (String × SettingTree)) → List (String × SettingTree)
  | [] => base
  | (key, value) :: rest =>
      let merged :=
        match base.lookup key with
        | none => value
        | some old => merge old value
      mergeEntries (Keyed.put key merged base) rest

end

/-- A tree under a path of keys. -/
def nest (value : SettingTree) : List String → SettingTree
  | [] => value
  | key :: path => table [(key, nest value path)]

end SettingTree

namespace StandIn

/-- The table of a TOML text. -/
def ofText (text : String) : Except SettingsError Layer :=
  match (Toml.parse? text).bind SettingTree.entriesMeaning? with
  | some entries => .ok entries
  | none => .error .malformed

/-- The table of a file, given its bytes if it exists. -/
def ofFile : Option ByteArray → Except SettingsError Layer
  | none => .ok []
  | some bytes =>
      match String.fromUTF8? bytes with
      | none => .error .malformed
      | some text => ofText text

/-- The tree that the text of a variable stands for; one that is cut stands for itself. -/
def value (text : String) : SettingTree :=
  (EnvironmentValue.ofText? text).getD (.text text)

/-- Lays the value of one variable over a table. -/
def withVariable (start separator : String) (layer : Layer) (entry : String × String) : Layer :=
  match EnvironmentName.path? start separator entry.1 with
  | some (key :: path) =>
      SettingTree.mergeEntries layer [(key, SettingTree.nest (value entry.2) path)]
  | _ => layer

/-- The table of environment variables. -/
def ofEnvironment (start separator : String) (environment : List (String × String)) : Layer :=
  environment.foldl (withVariable start separator) []

section Values

/-- A boolean. -/
def boolean : Extractor Bool := fun path tree =>
  match tree with
  | .boolean value => .ok value
  | other => .error (.wrongType other .boolean path)

/-- A text; a single character is one too. -/
def text : Extractor String := fun path tree =>
  match tree with
  | .text value => .ok value
  | .character value => .ok (String.singleton value)
  | other => .error (.wrongType other .text path)

/-- The choice with a name. -/
def named {α : Type} (choices : List (String × α)) (path : List String) (name : String) :
    Except SettingsError α :=
  match choices.lookup name with
  | some value => .ok value
  | none => .error (.unknownFormat name path)

/-- The entry with the least key. -/
def leastEntry? (entries : List (String × SettingTree)) : Option (String × SettingTree) :=
  entries.foldl
    (fun least entry =>
      match least with
      | none => some entry
      | some other => if entry.1 < other.1 then some entry else least)
    none

/-- A choice: its name.  A table is read as a choice with a value, and no choice has one. -/
def choice {α : Type} (name : String) (choices : List (String × α)) : Extractor α :=
  fun path tree =>
    match tree with
    | .text found => named choices path found
    | .table entries =>
        match leastEntry? entries with
        | none => .error (.wrongType tree .choice path)
        | some (found, inner) =>
            match named choices (path ++ [found]) found with
            | .error error => .error error
            | .ok _ => .error (.wrongType inner .nothing (path ++ [found]))
    | other => .error (.wrongType other (.choiceOf name) path)

/-- The members of a record. -/
def members (name : String) (keys : List String) : Extractor (List Member) := fun path tree =>
  match tree with
  | .table entries =>
      .ok ((OrderedSet.ofList keys).toList.filterMap fun key =>
        (entries.lookup key).map fun found => ⟨key, path ++ [key], found⟩)
  | .list items =>
      .ok (keys.zipIdx.filterMap fun (key, position) =>
        items[position]?.map fun found => ⟨key, path ++ [toString position], found⟩)
  | other => .error (.wrongType other (.record name) path)

end Values

end StandIn

/-- The library that the program runs with. -/
def SettingsLibrary.standIn : SettingsLibrary where
  ofText := StandIn.ofText
  ofFile := StandIn.ofFile
  path? := EnvironmentName.path?
  value := StandIn.value
  ofEnvironment := StandIn.ofEnvironment
  merge := SettingTree.mergeEntries
  boolean := StandIn.boolean
  text := StandIn.text
  choice := StandIn.choice
  members := StandIn.members

end StandIn

end Datalog
