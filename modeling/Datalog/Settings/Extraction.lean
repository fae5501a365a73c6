import Datalog.Settings.Basic
import Datalog.Settings.Library

/-!
# Settings from a table

**Records.** A record is read from the members that a value has for its fields, one after the other;
the first one with a wrong value is the error.  Keys of no field do not count.  A field that has no
member is what its form says of missing fields, and that is not looked up in default settings.

**Forms.** The two sections and the settings as a whole are records of one kind.
-/

namespace Datalog

section Extraction

/-- How a record is read: its fields in order, and for each its key, what its value has to be, and
what it is where it is missing. -/
structure RecordForm (ι : Type) (α : ι → Type) where
  name : String
  fields : List ι
  key : ι → String
  extract : (field : ι) → Extractor (α field)
  missing : (field : ι) → α field

namespace RecordForm

variable {ι : Type} {α : ι → Type} [DecidableEq ι]

/-- The field with a key. -/
def field? (form : RecordForm ι α) (key : String) : Option ι :=
  form.fields.find? fun field => form.key field = key

/-- Values with the one of a field set. -/
def withValue (values : (field : ι) → Option (α field)) (field : ι) (value : α field) :
    (field : ι) → Option (α field) := fun other =>
  if h : field = other then some (h ▸ value) else values other

/-- The values of the fields that have a member. -/
def given (form : RecordForm ι α) :
    List Member → Except SettingsError ((field : ι) → Option (α field))
  | [] => .ok fun _ => none
  | member :: rest =>
      match form.field? member.key with
      | none => form.given rest
      | some field => do
          let value ← form.extract field member.path member.tree
          let values ← form.given rest
          return withValue values field value

/-- The values of all fields. -/
def read (form : RecordForm ι α) (library : SettingsLibrary) :
    Extractor ((field : ι) → α field) := fun path tree => do
  let members ← library.members form.name (form.fields.map form.key) path tree
  let values ← form.given members
  return fun field => (values field).getD (form.missing field)

/-- The record that the values of all fields make up. -/
def readAs {σ : Type} (form : RecordForm ι α) (library : SettingsLibrary)
    (ofValues : ((field : ι) → α field) → σ) : Extractor σ := fun path tree => do
  let values ← form.read library path tree
  return ofValues values

end RecordForm

section Evaluation

/-- The fields of the switches of an evaluation. -/
inductive EvaluationField where
  | optimize
  | printDependencyGraph
  | printPostorder
  | traceRules
deriving DecidableEq, Repr

namespace EvaluationField

/-- All fields, in order. -/
def all : List EvaluationField :=
  [optimize, printDependencyGraph, printPostorder, traceRules]

/-- The key of a field. -/
def key : EvaluationField → String
  | optimize => "optimize"
  | printDependencyGraph => "print_dependency_graph"
  | printPostorder => "print_postorder"
  | traceRules => "trace_rules"

/-- What a switch is where it is missing. -/
def missing : EvaluationField → Bool
  | optimize => switchedOn
  | printDependencyGraph => switchedOn
  | printPostorder => false
  | traceRules => switchedOn

/-- The value of a field. -/
def valueIn (settings : EvaluationSettings) : EvaluationField → Bool
  | optimize => settings.optimize
  | printDependencyGraph => settings.printDependencyGraph
  | printPostorder => settings.printPostorder
  | traceRules => settings.traceRules

end EvaluationField

/-- The switches with the values of all fields. -/
def EvaluationSettings.ofValues (values : EvaluationField → Bool) : EvaluationSettings where
  optimize := values .optimize
  printDependencyGraph := values .printDependencyGraph
  printPostorder := values .printPostorder
  traceRules := values .traceRules

/-- How the switches of an evaluation are read. -/
def EvaluationSettings.form (library : SettingsLibrary) :
    RecordForm EvaluationField fun _ => Bool where
  name := "EvaluationConfig"
  fields := EvaluationField.all
  key := EvaluationField.key
  extract _ := library.boolean
  missing := EvaluationField.missing

/-- The section with the switches of the evaluation. -/
def EvaluationSettings.extract (library : SettingsLibrary) : Extractor EvaluationSettings :=
  (form library).readAs library ofValues

end Evaluation

section Logging

/-- The fields of the wishes for the log. -/
inductive LoggingField where
  | level
  | format
deriving DecidableEq, Repr

namespace LoggingField

/-- The values that a field can have. -/
def Value : LoggingField → Type
  | level => String
  | format => LogFormat

/-- All fields, in order. -/
def all : List LoggingField :=
  [level, format]

/-- The key of a field. -/
def key : LoggingField → String
  | level => "level"
  | format => "format"

/-- What a field is where it is missing. -/
def missing : (field : LoggingField) → field.Value
  | level => usualLevel
  | format => usualFormat

/-- The value of a field. -/
def valueIn (settings : LoggingSettings) : (field : LoggingField) → field.Value
  | level => settings.level
  | format => settings.format

end LoggingField

/-- The log formats with their names. -/
def LogFormat.choices : List (String × LogFormat) :=
  [(LogFormat.text.name, .text), (LogFormat.json.name, .json)]

/-- The wishes for the log with the values of all fields. -/
def LoggingSettings.ofValues (values : (field : LoggingField) → field.Value) : LoggingSettings where
  level := values .level
  format := values .format

/-- How the wishes for the log are read. -/
def LoggingSettings.form (library : SettingsLibrary) :
    RecordForm LoggingField LoggingField.Value where
  name := "LoggingConfig"
  fields := LoggingField.all
  key := LoggingField.key
  extract
    | .level => library.text
    | .format => library.choice "LogFormat" LogFormat.choices
  missing := LoggingField.missing

/-- The section with the wishes for the log. -/
def LoggingSettings.extract (library : SettingsLibrary) : Extractor LoggingSettings :=
  (form library).readAs library ofValues

end Logging

section Sections

/-- The sections of settings. -/
inductive SettingsSection where
  | evaluation
  | logging
deriving DecidableEq, Repr

namespace SettingsSection

/-- The settings that a section can have. -/
def Value : SettingsSection → Type
  | evaluation => EvaluationSettings
  | logging => LoggingSettings

/-- All sections, in order. -/
def all : List SettingsSection :=
  [evaluation, logging]

/-- The key of a section. -/
def key : SettingsSection → String
  | evaluation => "evaluation"
  | logging => "logging"

/-- What a section is where it is missing. -/
def missing : (part : SettingsSection) → part.Value
  | evaluation => ({} : EvaluationSettings)
  | logging => ({} : LoggingSettings)

/-- The settings of a section. -/
def valueIn (settings : Settings) : (part : SettingsSection) → part.Value
  | evaluation => settings.evaluation
  | logging => settings.logging

end SettingsSection

/-- The settings with those of all sections. -/
def Settings.ofValues (values : (part : SettingsSection) → part.Value) : Settings where
  evaluation := values .evaluation
  logging := values .logging

/-- How settings are read. -/
def Settings.form (library : SettingsLibrary) :
    RecordForm SettingsSection SettingsSection.Value where
  name := "Config"
  fields := SettingsSection.all
  key := SettingsSection.key
  extract
    | .evaluation => EvaluationSettings.extract library
    | .logging => LoggingSettings.extract library
  missing := SettingsSection.missing

/-- The settings in a table. -/
def Settings.ofEntries (library : SettingsLibrary) (entries : Layer) :
    Except SettingsError Settings :=
  (form library).readAs library ofValues [] (.table entries)

end Sections

end Extraction

end Datalog
