import Datalog.Proofs.Settings.Layering
import Datalog.Proofs.StandIn.Lawful

/-!
# Settings of a directory

**Result.** With every lawful library, the settings of a directory and those of a named file follow
from the default settings, the files and the variables, the last one on top.
-/

namespace Datalog

section Loading

open SettingTree

/-- A file and its key tree: the one that is read from it, or the empty tree if there is no file. -/
inductive SettingsLibrary.HasTree (library : SettingsLibrary) : Option ByteArray → Layer → Prop
  | absent : HasTree library none []
  | present {bytes : ByteArray} {tree : Layer} :
      library.ofFile (some bytes) = .ok tree → HasTree library (some bytes) tree

namespace Settings

variable {library : SettingsLibrary} {environment : List (String × String)}

theorem ofFile_of_hasTree
    (h : library.Lawful)
    {file : Option ByteArray} {tree : Layer}
    (htree : library.HasTree file tree) :
    library.ofFile file = .ok tree := by
  cases htree with
  | absent => exact h.absent
  | present hread => exact hread

theorem mapM_ofFile
    (h : library.Lawful)
    {files : List (Option ByteArray)} {trees : List Layer}
    (hfiles : List.Forall₂ library.HasTree files trees) :
    files.mapM library.ofFile = .ok trees := by
  induction hfiles with
  | nil => rfl
  | cons hfile _ ih =>
      rw [List.mapM_cons, ofFile_of_hasTree h hfile, ih]
      rfl

theorem distinct_of_hasTree
    (h : library.Lawful)
    {files : List (Option ByteArray)} {trees : List Layer}
    (hfiles : List.Forall₂ library.HasTree files trees) :
    ∀ tree ∈ trees, (SettingTree.table tree).Distinct := by
  induction hfiles with
  | nil => exact nofun
  | cons hfile _ ih =>
      exact List.forall_mem_cons.2 ⟨h.distinct_ofFile _ _ (ofFile_of_hasTree h hfile), ih⟩

/-- Settings of files and variables follow from the merge of the files in order and the layer of the
variables over the default settings. -/
theorem followsLayers_ofFiles
    (h : library.Lawful)
    {files : List (Option ByteArray)} {trees : List Layer}
    (hfiles : List.Forall₂ library.HasTree files trees)
    (environment : List (String × String)) :
    FollowsLayers (ofFiles library files environment)
      (trees ++ [ofVariables library environment]) := by
  have hlayers : ∀ layer ∈ trees ++ [ofVariables library environment],
      (SettingTree.table layer).Distinct := by
    intro layer hlayer
    rcases List.mem_append.1 hlayer with hlayer | hlayer
    · exact distinct_of_hasTree h hfiles layer hlayer
    · rw [List.mem_singleton.1 hlayer]
      exact h.distinct_ofEnvironment _ _ _
  have hfollows := followsLayers_ofLayers h hlayers
  unfold ofFiles
  rw [mapM_ofFile h hfiles]
  exact hfollows

/-- The settings of a directory follow from the default settings, its two files and the variables;
those of a named file have that file in the place of the two.  The layer of the variables has the
value of each at its path and nothing else. -/
theorem load_by_layers
    (h : library.Lawful)
    (hapart : library.Apart variableStart variableSeparator environment)
    (file? : String → Option ByteArray) :
    library.Settles variableStart variableSeparator environment
        (ofVariables library environment) ∧
      (∀ tree localTree, library.HasTree (file? "dlrel.toml") tree →
        library.HasTree (file? "dlrel.local.toml") localTree →
          FollowsLayers (load library file? environment)
            [tree, localTree, ofVariables library environment]) ∧
      ∀ name tree, library.HasTree (file? name) tree →
        FollowsLayers (fromFile library file? name environment)
          [tree, ofVariables library environment] := by
  refine ⟨h.settles _ _ _ hapart, fun tree localTree htree hlocal => ?_, fun name tree htree => ?_⟩
  · exact followsLayers_ofFiles h (.cons htree (.cons hlocal .nil)) environment
  · exact followsLayers_ofFiles h (.cons htree .nil) environment

/-- A section that one file replaces by a text and the next one by a table with one key. -/
theorem load_by_layers_replaced :
    let library := SettingsLibrary.standIn
    let file? : String → Option ByteArray := fun name =>
      [("dlrel.toml", "'logging' = 'none'".toUTF8),
        ("dlrel.local.toml", "['logging']\n'format' = 'json'".toUTF8)].lookup name
    let tree := [("logging", SettingTree.text "none")]
    let localTree := [("logging", SettingTree.table [("format", .text "json")])]
    let environment := [("DLREL_EVALUATION__TRACE_RULES", "false")]
    let top := [("evaluation", SettingTree.table [("trace_rules", .boolean false)])]
    library.Lawful ∧
      library.Apart variableStart variableSeparator environment ∧
      library.HasTree (file? "dlrel.toml") tree ∧
      library.HasTree (file? "dlrel.local.toml") localTree ∧
      ofVariables library environment = top ∧
      library.Settles variableStart variableSeparator environment top ∧
      (∃ merged, Layered (Layer.ofSettings {}) [tree, localTree, top] merged ∧
        ¬merged.IsWrong) ∧
      load library file? environment =
        .ok { evaluation := { traceRules := false }, logging := { format := .json } } ∧
      FollowsLayers (fromFile library file? "dlrel.toml" environment) [tree, top] := by
  intro library file? tree localTree environment top
  have hscan : TomlToken.scan? '\n' "'logging' = 'none'".toList =
      some [.quoted "logging", .equals, .quoted "none"] := by decide +kernel
  have hlocalScan : TomlToken.scan? '\n' "['logging']\n'format' = 'json'".toList =
      some [.opening false, .quoted "logging", .closing false, .lineEnd, .quoted "format", .equals,
        .quoted "json"] := by decide +kernel
  have hstatements : Toml.statements? [.quoted "logging", .equals, .quoted "none"] =
      some [.assignment ["logging"] (.text "none")] := by cbv
  have hlocalStatements :
      Toml.statements? [.opening false, .quoted "logging", .closing false, .lineEnd,
          .quoted "format", .equals, .quoted "json"] =
        some [.heading ["logging"], .assignment ["format"] (.text "json")] := by cbv
  have htree : library.HasTree (file? "dlrel.toml") tree :=
    .present
      (StandIn.ofFile_toUTF8 (Toml.parse?_of_statements? (by decide) hscan hstatements) rfl)
  have hlocal : library.HasTree (file? "dlrel.local.toml") localTree :=
    .present
      (StandIn.ofFile_toUTF8 (Toml.parse?_of_statements? (by decide) hlocalScan hlocalStatements)
        rfl)
  have hapart : library.Apart variableStart variableSeparator environment :=
    List.pairwise_singleton _ _
  have hpath : EnvironmentName.path? variableStart variableSeparator
      "DLREL_EVALUATION__TRACE_RULES" = some ["evaluation", "trace_rules"] := by decide +kernel
  have hvalue : StandIn.value "false" = .boolean false := by cbv
  have htop : ofVariables library environment = top := by
    change environment.foldl (StandIn.withVariable variableStart variableSeparator) [] = top
    rw [List.foldl_cons, List.foldl_nil, StandIn.withVariable, hpath, hvalue]
    rfl
  obtain ⟨hsettles, hload, hfromFile⟩ :=
    load_by_layers SettingsLibrary.lawful_standIn hapart file?
  rw [htop] at hsettles
  have hload := hload tree localTree htree hlocal
  have hfromFile := hfromFile "dlrel.toml" tree htree
  rw [htop] at hload hfromFile
  have hok : load library file? environment =
      .ok { evaluation := { traceRules := false }, logging := { format := .json } } := by
    have hfiles : List.Forall₂ library.HasTree (fileNames.map file?) [tree, localTree] :=
      .cons htree (.cons hlocal .nil)
    unfold load ofFiles
    rw [mapM_ofFile SettingsLibrary.lawful_standIn hfiles, htop]
    refine (ofEntries_eq_ok_iff SettingsLibrary.lawful_standIn).2 ⟨?_, ?_⟩
    · rintro (field | field) _ h <;> cases h <;> rfl
    · rintro (field | field) <;> cases field <;> rfl
  obtain ⟨merged, hlayered, _, hvalues⟩ := hload
  exact ⟨SettingsLibrary.lawful_standIn, hapart, htree, hlocal, htop, hsettles,
    ⟨merged, hlayered, ((hvalues _).1 hok).1⟩, hok, hfromFile⟩

/-- A section that is a list is no error: it gives its settings by position. -/
theorem load_list_section :
    let library := SettingsLibrary.standIn
    let file? : String → Option ByteArray := fun name =>
      [("dlrel.toml", "'evaluation' = [false]".toUTF8)].lookup name
    let tree := [("evaluation", SettingTree.list [.boolean false])]
    library.HasTree (file? "dlrel.toml") tree ∧
      library.HasTree (file? "dlrel.local.toml") [] ∧
      ofVariables library [] = [] ∧
      (∃ merged, Layered (Layer.ofSettings {}) [tree, [], []] merged ∧
        merged.lookup "evaluation" = some (.list [.boolean false])) ∧
      load library file? [] = .ok { evaluation := { optimize := false } } := by
  intro library file? tree
  have hscan : TomlToken.scan? '\n' "'evaluation' = [false]".toList =
      some [.quoted "evaluation", .equals, .opening false, .bare "false", .closing false] := by
    decide +kernel
  have hstatements :
      Toml.statements? [.quoted "evaluation", .equals, .opening false, .bare "false",
          .closing false] =
        some [.assignment ["evaluation"] (.list [.boolean false])] := by cbv
  have hlist : Toml.parse? "'evaluation' = [false]" = some tree :=
    Toml.parse?_of_statements? (by decide) hscan hstatements
  have htree : library.HasTree (file? "dlrel.toml") tree :=
    .present (StandIn.ofFile_toUTF8 hlist rfl)
  have hfiles : List.Forall₂ library.HasTree (fileNames.map file?) [tree, []] :=
    .cons htree (.cons .absent .nil)
  have hlayers : ∀ layer ∈ [tree, [], []], (SettingTree.table layer).Distinct := by
    simp only [List.forall_mem_cons, List.not_mem_nil, false_imp_iff, implies_true, and_true]
    exact ⟨Toml.distinct_parse? hlist, distinct_empty, distinct_empty⟩
  refine ⟨htree, .absent, rfl,
    ⟨_, SettingsLibrary.lawful_standIn.layered_foldl hlayers _, rfl⟩, ?_⟩
  unfold load ofFiles
  rw [mapM_ofFile SettingsLibrary.lawful_standIn hfiles]
  refine (ofEntries_eq_ok_iff SettingsLibrary.lawful_standIn).2 ⟨?_, ?_⟩
  · rintro (field | field) _ h <;> cases h <;> rfl
  · rintro (field | field) <;> cases field <;> rfl

end Settings

end Loading

end Datalog
