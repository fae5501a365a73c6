import Datalog.Decimal.Shortest
import Datalog.Text.Quoted

/-!
# Setting trees

**Type.** A setting tree is a value as a settings file or an environment variable gives it:
a scalar, a list, or a table of named trees.

**Messages.** What is found in the place of another value is described in a few words.
-/

namespace Datalog

section SettingTree

/-- A value of a settings source. -/
inductive SettingTree where
  | boolean (value : Bool)
  | signed (value : Int)
  | unsigned (value : Nat)
  | float (value : Float)
  | character (value : Char)
  | text (value : String)
  | list (items : List SettingTree)
  | table (entries : List (String × SettingTree))
deriving Inhabited

namespace SettingTree

/-- What a message says was found; a character counts as a text of length one there. -/
def describe : SettingTree → String
  | boolean value => if value then "bool true" else "bool false"
  | signed value => "signed int \x60" ++ toString value ++ "\x60"
  | unsigned value => "unsigned int \x60" ++ toString value ++ "\x60"
  | float value => "float \x60" ++ Shortest.text value ++ "\x60"
  | character value => "string " ++ Quoted.quote (String.singleton value)
  | text value => "string " ++ Quoted.quote value
  | list _ => "sequence"
  | table _ => "map"

end SettingTree

/-- The entries of the top table of a source of settings. -/
abbrev Layer : Type :=
  List (String × SettingTree)

end SettingTree

end Datalog
