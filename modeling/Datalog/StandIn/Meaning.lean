import Datalog.Settings.Tree

/-!
# Tables that stand for a value

**Rule.** A table below the top of a settings file that has the key `valueKey` stands for the value
at that key; its other entries do not count.  The key `identityKey` belongs to values that a program
has made and cannot stand in a file: a table with it makes the file malformed.
-/

namespace Datalog

section Meaning

namespace SettingTree

/-- The key of the value for which a table stands. -/
def valueKey : String :=
  "___figment_value_value"

/-- The key that no table of a file may have. -/
def identityKey : String :=
  "___figment_value_id"

/-- The value that a table below the top means, given its entries. -/
def ofTable? (entries : List (String × SettingTree)) : Option SettingTree :=
  if (entries.lookup identityKey).isSome then
    none
  else
    some ((entries.lookup valueKey).getD (table entries))

mutual

/-- The value that a tree means. -/
def meaning? : SettingTree → Option SettingTree
  | table entries => (entriesMeaning? entries).bind ofTable?
  | list items => (itemsMeaning? items).map list
  | other => some other

/-- The values that the entries of a table mean. -/
def entriesMeaning? : List (String × SettingTree) → Option (List (String × SettingTree))
  | [] => some []
  | (key, tree) :: rest =>
      match meaning? tree, entriesMeaning? rest with
      | some value, some values => some ((key, value) :: values)
      | _, _ => none

/-- The values that the items of a list mean. -/
def itemsMeaning? : List SettingTree → Option (List SettingTree)
  | [] => some []
  | tree :: rest =>
      match meaning? tree, itemsMeaning? rest with
      | some value, some values => some (value :: values)
      | _, _ => none

end

end SettingTree

end Meaning

end Datalog
