import Datalog.Settings.Keyed
import Datalog.Settings.Tree

/-!
# The tables of a TOML document

**Type.** While a document is built, a table remembers how it came to be: on the way to another
table, by a dotted key, or by a heading of its own.  A value, an inline table included, is closed.

**Rules.**

* A heading makes a table, or takes over one that was only on the way to another.  A table cannot
  have two headings, and a dotted key's table cannot have one.
* A key is set once.  A dotted key makes tables or goes on in tables that dotted keys made; it may
  pass through a table that is only on the way to another, or through a list of tables, but not end
  there.
* A heading in double brackets adds a table to a list of tables; paths through the list mean its
  last table.
-/

namespace Datalog

section Document

/-- How a table came to be. -/
inductive TableOrigin where
  | passage
  | dotted
  | heading
deriving DecidableEq, Repr

/-- What stands at a key while a document is built.  Of a list of tables the last comes first. -/
inductive DocumentNode where
  | value (tree : SettingTree)
  | table (origin : TableOrigin) (entries : List (String × DocumentNode))
  | tables (elements : List (List (String × DocumentNode)))
deriving Inhabited

namespace DocumentNode

/-- The entries of a table under construction. -/
abbrev Entries : Type :=
  List (String × DocumentNode)

/-- Changes the node at the end of a path.  Missing tables on the way are made. -/
def update (change : Option DocumentNode → Option DocumentNode) (entries : Entries) :
    (path : List String) → Option Entries
  | [] => none
  | [key] => (change (entries.lookup key)).map fun node => Keyed.put key node entries
  | key :: path =>
      match entries.lookup key with
      | none =>
          (update change [] path).map fun inner => Keyed.put key (table .passage inner) entries
      | some (table origin inner) =>
          (update change inner path).map fun inner => Keyed.put key (table origin inner) entries
      | some (tables (last :: earlier)) =>
          (update change last path).map fun last =>
            Keyed.put key (tables (last :: earlier)) entries
      | some _ => none

/-- A heading makes a table or takes over one that was on the way to another. -/
def headed? : Option DocumentNode → Option DocumentNode
  | none => some (table .heading [])
  | some (table .passage inner) => some (table .heading inner)
  | some _ => none

/-- A heading in double brackets adds an empty table to a list of tables. -/
def headedElement? : Option DocumentNode → Option DocumentNode
  | none => some (tables [[]])
  | some (tables elements) => some (tables ([] :: elements))
  | some _ => none

/-- Sets the value at a dotted key. -/
def insertDotted? (tree : SettingTree) (entries : Entries) : (path : List String) → Option Entries
  | [] => none
  | [key] =>
      match entries.lookup key with
      | none => some (Keyed.put key (value tree) entries)
      | some _ => none
  | key :: path =>
      match entries.lookup key with
      | none =>
          (insertDotted? tree [] path).map fun inner =>
            Keyed.put key (table .dotted inner) entries
      | some (table .dotted inner) =>
          (insertDotted? tree inner path).map fun inner =>
            Keyed.put key (table .dotted inner) entries
      | some (table .passage inner) =>
          if 2 ≤ path.length then
            (insertDotted? tree inner path).map fun inner =>
              Keyed.put key (table .passage inner) entries
          else
            none
      | some (tables (last :: earlier)) =>
          if 2 ≤ path.length then
            (insertDotted? tree last path).map fun last =>
              Keyed.put key (tables (last :: earlier)) entries
          else
            none
      | some _ => none

/-- Sets the value at a dotted key inside a table, or inside the last of a list of tables. -/
def insertInto? (tree : SettingTree) (path : List String) :
    Option DocumentNode → Option DocumentNode
  | some (table origin entries) => (insertDotted? tree entries path).map (table origin)
  | some (tables (last :: earlier)) =>
      (insertDotted? tree last path).map fun last => tables (last :: earlier)
  | _ => none

/-- Sets the value at a dotted key below a heading. -/
def assign? (heading path : List String) (tree : SettingTree) (entries : Entries) :
    Option Entries :=
  match heading with
  | [] => insertDotted? tree entries path
  | _ => update (insertInto? tree path) entries heading

mutual

/-- The finished tree at a node. -/
def tree : DocumentNode → SettingTree
  | value tree => tree
  | table _ entries => .table (trees entries)
  | tables elements => .list (tablesTrees elements).reverse

/-- The finished trees of the entries of a table. -/
def trees : List (String × DocumentNode) → List (String × SettingTree)
  | [] => []
  | (key, node) :: rest => (key, tree node) :: trees rest

/-- The finished tables of a list of tables. -/
def tablesTrees : List (List (String × DocumentNode)) → List SettingTree
  | [] => []
  | entries :: rest => .table (trees entries) :: tablesTrees rest

end

/-- The finished inline table of keys and values. -/
def inlineTable? (pairs : List (List String × SettingTree)) : Option SettingTree :=
  (pairs.foldlM (fun entries (path, tree) => insertDotted? tree entries path) []).map fun entries =>
    .table (trees entries)

end DocumentNode

/-- A line of a document. -/
inductive TomlStatement where
  | heading (path : List String)
  | elementHeading (path : List String)
  | assignment (path : List String) (tree : SettingTree)

namespace TomlStatement

/-- Carries out statements; an assignment goes below the last heading. -/
def run? (entries : DocumentNode.Entries) (last : List String) :
    List TomlStatement → Option DocumentNode.Entries
  | [] => some entries
  | heading path :: rest =>
      match DocumentNode.update DocumentNode.headed? entries path with
      | none => none
      | some entries => run? entries path rest
  | elementHeading path :: rest =>
      match DocumentNode.update DocumentNode.headedElement? entries path with
      | none => none
      | some entries => run? entries path rest
  | assignment path tree :: rest =>
      match DocumentNode.assign? last path tree entries with
      | none => none
      | some entries => run? entries last rest

end TomlStatement

end Document

end Datalog
