import Datalog.Settings.Tree

/-!
# What settings are read with

**Library.** Settings files, environment variables, tables and typed values are read with operations
that the program does not define.  The program is written over any library that has them.

**Errors.** An error has a message and the path to the value that is wrong.
-/

namespace Datalog

section SettingsLibrary

/-- What a setting has to be. -/
inductive Expectation where
  | boolean
  | text
  | record (name : String)
  | choiceOf (name : String)
  | choice
  | nothing
deriving DecidableEq, Repr

/-- The expectation as a message names it. -/
def Expectation.describe : Expectation → String
  | boolean => "a boolean"
  | text => "a string"
  | record name => "struct " ++ name
  | choiceOf name => "enum " ++ name
  | choice => "enum"
  | nothing => "unit"

/-- Why settings cannot be read. -/
inductive SettingsError where
  | malformed
  | cut
  | wrongType (found : SettingTree) (expected : Expectation) (path : List String)
  | unknownFormat (found : String) (path : List String)

namespace SettingsError

/-- The error as a sentence. -/
def message : SettingsError → String
  | malformed => "not a settings file"
  | cut => "a text of the environment is cut inside a character"
  | wrongType found expected _ =>
      "invalid type: found " ++ found.describe ++ ", expected " ++ expected.describe
  | unknownFormat found _ =>
      "unknown variant: found \x60" ++ found ++
        "\x60, expected \x60\x60text\x60 or \x60json\x60\x60"

/-- The keys and list positions that lead to the wrong value, with points between them. -/
def path : SettingsError → String
  | malformed | cut => ""
  | wrongType _ _ keys => ".".intercalate keys
  | unknownFormat _ keys => ".".intercalate keys

end SettingsError

/-- Reads the tree at the end of a path of keys. -/
abbrev Extractor (α : Type) : Type :=
  List String → SettingTree → Except SettingsError α

/-- What a value has for a field of a record: the key of the field, and the path to the tree. -/
structure Member where
  key : String
  path : List String
  tree : SettingTree

/-- The operations that settings are read with. -/
structure SettingsLibrary where
  /-- The top table of a TOML text. -/
  ofText : String → Except SettingsError Layer
  /-- The top table of a TOML file, given its bytes if the file exists. -/
  ofFile : Option ByteArray → Except SettingsError Layer
  /-- The path of keys in the name of a variable, given the start of the names that count and the
  separator between keys. -/
  path? : (start separator name : String) → Option (List String)
  /-- The tree that the text of a variable stands for. -/
  value : String → SettingTree
  /-- The top table of environment variables, given the start of the names that count and the
  separator between keys. -/
  ofEnvironment : (start separator : String) → List (String × String) → Layer
  /-- A table with another one laid over it. -/
  merge : (lower upper : Layer) → Layer
  /-- A boolean. -/
  boolean : Extractor Bool
  /-- A text. -/
  text : Extractor String
  /-- One of the choices of a type, by its name. -/
  choice : {α : Type} → (name : String) → (choices : List (String × α)) → Extractor α
  /-- What a value has for the fields of a record type, given their keys in order.  It comes in the
  order in which it is read. -/
  members : (name : String) → (keys : List String) → Extractor (List Member)

end SettingsLibrary

end Datalog
