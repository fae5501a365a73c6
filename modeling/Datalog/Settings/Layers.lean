import Datalog.Settings.Loading
import Datalog.StandIn.Library

/-!
# The settings of a run

A run reads its settings with the library `SettingsLibrary.standIn`.  A variable whose text is cut
inside a character ends it before all other errors.
-/

namespace Datalog

section Layers

namespace Settings

/-- Whether a variable that counts has a text that is cut. -/
def isCut (entry : String × String) : Bool :=
  (EnvironmentName.path? variableStart variableSeparator entry.1).isSome &&
    (EnvironmentValue.ofText? entry.2).isNone

/-- The settings of a TOML text over the defaults. -/
def ofToml (text : String) : Except SettingsError Settings :=
  ofText .standIn text

/-- The settings of files, the last one on top, and of the environment above them. -/
def ofSources
    (files : List (Option ByteArray)) (environment : List (String × String)) :
    Except SettingsError Settings :=
  if environment.any isCut then
    .error .cut
  else
    ofFiles .standIn files environment

end Settings

end Layers

end Datalog
