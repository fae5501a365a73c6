import Datalog.Text.Blank

/-!
# Names of environment variables as paths of settings

**Rule.** A variable counts if its name has the given start, in whatever case.  What follows, in
lower case, is a path of keys with the separator or a point between them.  Blanks at the ends do not
count, and a name with an empty key is left out.
-/

namespace Datalog

section EnvironmentName

namespace EnvironmentName

/-- The characters with each separator replaced by a point; of the first ones, so many are left out
that belong to a separator already replaced. -/
def pointed (separator : List Char) : Nat → List Char → List Char
  | _, [] => []
  | left + 1, _ :: rest => pointed separator left rest
  | 0, c :: rest =>
      if separator.isPrefixOf (c :: rest) then
        '.' :: pointed separator (separator.length - 1) rest
      else
        c :: pointed separator 0 rest

/-- The pieces between points; `reversed` is the piece read so far, last to first. -/
def pieces (reversed : List Char) : List Char → List String
  | [] => [String.ofList reversed.reverse]
  | '.' :: rest => String.ofList reversed.reverse :: pieces [] rest
  | c :: rest => pieces (c :: reversed) rest

/-- The path of keys that the name of a variable stands for. -/
def path? (start separator name : String) : Option (List String) :=
  let lowered := (Blank.trimList name.toList).map Char.toLower
  let beginning := start.toList.map Char.toLower
  if beginning.isPrefixOf lowered then
    let keys := pieces []
      (Blank.trimList (pointed separator.toList 0 (lowered.drop beginning.length)))
    if keys.contains "" then none else some keys
  else
    none

end EnvironmentName

end EnvironmentName

end Datalog
