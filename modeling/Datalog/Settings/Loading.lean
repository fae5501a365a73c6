import Datalog.Settings.Extraction

/-!
# Settings from layers

**Layers.** The default settings, then the settings files, then the environment variables.  A later
layer is laid over the ones before it, and only the result is read.

**Places.** Two files of the directory count, the local one above the other, unless a file is named;
and all variables whose names start with `DLREL_`, with `__` between the keys.
-/

namespace Datalog

section Loading

/-- The value of a field of the wishes for the log as a tree. -/
def LoggingField.tree : (field : LoggingField) → field.Value → SettingTree
  | level, value => .text value
  | format, value => .text (LogFormat.name value)

namespace Layer

/-- The switches of an evaluation as a table. -/
def ofEvaluation (settings : EvaluationSettings) : Layer :=
  EvaluationField.all.map fun field => (field.key, .boolean (field.valueIn settings))

/-- The wishes for the log as a table. -/
def ofLogging (settings : LoggingSettings) : Layer :=
  LoggingField.all.map fun field => (field.key, field.tree (field.valueIn settings))

/-- Settings as a table. -/
def ofSettings (settings : Settings) : Layer :=
  [(SettingsSection.evaluation.key, .table (ofEvaluation settings.evaluation)),
    (SettingsSection.logging.key, .table (ofLogging settings.logging))]

end Layer

namespace Settings

/-- The settings files of a directory, the last one on top. -/
def fileNames : List String :=
  ["dlrel.toml", "dlrel.local.toml"]

/-- How the names of the variables start that count. -/
def variableStart : String :=
  "DLREL_"

/-- What stands between the keys in the name of a variable. -/
def variableSeparator : String :=
  "__"

variable (library : SettingsLibrary)

/-- The settings that layers give together, the last one on top, over the default settings. -/
def ofLayers (layers : List Layer) : Except SettingsError Settings :=
  ofEntries library (layers.foldl library.merge (Layer.ofSettings {}))

/-- The settings of a TOML text. -/
def ofText (text : String) : Except SettingsError Settings := do
  let layer ← library.ofText text
  ofLayers library [layer]

/-- The layer of the environment variables. -/
def ofVariables (environment : List (String × String)) : Layer :=
  library.ofEnvironment variableStart variableSeparator environment

/-- The settings of files, the last one on top, and of the environment above them. -/
def ofFiles (files : List (Option ByteArray)) (environment : List (String × String)) :
    Except SettingsError Settings := do
  let layers ← files.mapM library.ofFile
  ofLayers library (layers ++ [ofVariables library environment])

/-- The settings of a directory. -/
def load (file? : String → Option ByteArray) (environment : List (String × String)) :
    Except SettingsError Settings :=
  ofFiles library (fileNames.map file?) environment

/-- The settings of a named file. -/
def fromFile
    (file? : String → Option ByteArray) (name : String) (environment : List (String × String)) :
    Except SettingsError Settings :=
  ofFiles library [file? name] environment

end Settings

end Loading

end Datalog
