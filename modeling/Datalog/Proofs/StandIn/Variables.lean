import Datalog.Proofs.StandIn.Sources

/-!
# The layer of the environment variables

**Result.** The layer of an environment whose variables are apart settles it: a variable that is
laid over the others finds nothing at its path, and it leaves alone what is at the paths that do not
meet its own.
-/

namespace Datalog

section Variables

namespace PathsMeet

variable {key other : String} {path rest : List String}

theorem nil_left
    (path : List String) :
    PathsMeet [] path :=
  Or.inl List.nil_prefix

theorem nil_right
    (path : List String) :
    PathsMeet path [] :=
  Or.inr List.nil_prefix

theorem symm
    (h : PathsMeet path rest) :
    PathsMeet rest path :=
  Or.symm h

theorem cons_iff :
    PathsMeet (key :: path) (other :: rest) ↔ key = other ∧ PathsMeet path rest := by
  unfold PathsMeet
  rw [List.cons_prefix_cons, List.cons_prefix_cons, eq_comm (a := other), ← and_or_left]

end PathsMeet

theorem EnvironmentName.path?_ne_nil
    (start separator name : String) :
    path? start separator name ≠ some [] := by
  have hpieces (reversed cs : List Char) : pieces reversed cs ≠ [] := by
    fun_induction pieces reversed cs with
    | case1 => exact List.cons_ne_nil _ _
    | case2 => exact List.cons_ne_nil _ _
    | case3 _ _ _ _ ih => exact ih
  unfold path?
  simp only
  split
  · split
    · exact nofun
    · exact fun h => hpieces _ _ (Option.some.inj h)
  · exact nofun

namespace SettingTree

variable {tree value : SettingTree} {path other : List String}

theorem find?_nest_self
    (value : SettingTree) (path : List String) :
    (nest value path).find? path = some value := by
  induction path with
  | nil => rw [nest, find?]
  | cons key path ih =>
      rw [nest, find?, Keyed.lookup_cons_self, Option.bind_some, ih]

theorem find?_nest_of_not_meet
    (h : ¬PathsMeet other path) :
    (nest value path).find? other = none := by
  induction path generalizing other with
  | nil => exact absurd (PathsMeet.nil_right other) h
  | cons key path ih =>
      cases other with
      | nil => exact absurd (PathsMeet.nil_left _) h
      | cons first rest =>
          rw [nest, find?]
          by_cases heq : first = key
          · rw [heq, Keyed.lookup_cons_self, Option.bind_some]
            exact ih fun hmeet => h (PathsMeet.cons_iff.2 ⟨heq, hmeet⟩)
          · rw [Keyed.lookup_cons_of_ne heq]
            rfl

/-- What a nested value finds at its path gives way to it. -/
theorem find?_merge_nest_self
    (h : tree.find? path = none) :
    (merge tree (nest value path)).find? path = some value := by
  induction path generalizing tree with
  | nil =>
      rw [find?] at h
      cases h
  | cons key path ih =>
      by_cases htable : tree.isTable
      · obtain ⟨entries, rfl⟩ := exists_of_isTable htable
        rw [find?] at h
        rw [nest, merge, mergeEntries, mergeEntries, find?, Keyed.lookup_put, if_pos rfl,
          Option.bind_some]
        cases hlookup : entries.lookup key with
        | none => exact find?_nest_self value path
        | some old =>
            rw [hlookup] at h
            exact ih h
      · rw [merge_eq_upper fun h => htable h.1]
        exact find?_nest_self value (key :: path)

/-- A nested value leaves alone what is at the paths that do not meet its own. -/
theorem find?_merge_nest_of_not_meet
    (h : ¬PathsMeet other path) :
    (merge tree (nest value path)).find? other = tree.find? other := by
  induction path generalizing tree other with
  | nil => exact absurd (PathsMeet.nil_right other) h
  | cons key path ih =>
      cases other with
      | nil => exact absurd (PathsMeet.nil_left _) h
      | cons first rest =>
          by_cases htable : tree.isTable
          · obtain ⟨entries, rfl⟩ := exists_of_isTable htable
            rw [nest, merge, mergeEntries, mergeEntries, find?, find?, Keyed.lookup_put]
            by_cases heq : first = key
            · subst heq
              have hrest : ¬PathsMeet rest path := fun hmeet =>
                h (PathsMeet.cons_iff.2 ⟨rfl, hmeet⟩)
              rw [if_pos rfl, Option.bind_some]
              cases entries.lookup first with
              | none => exact find?_nest_of_not_meet hrest
              | some old => exact ih hrest
            · rw [if_neg heq]
          · rw [merge_eq_upper fun h => htable h.1, find?_nest_of_not_meet h]
            cases tree with
            | table entries => exact absurd rfl htable
            | _ => rfl

end SettingTree

namespace StandIn

open SettingTree

variable {start separator : String} {layer : Layer}
variable {environment : List (String × String)} {entry : String × String} {path : List String}

/-- The values of the variables are at their paths, and nothing else is in the layer. -/
abbrev Settles (start separator : String) (environment : List (String × String)) (layer : Layer) :
    Prop :=
  SettingsLibrary.standIn.Settles start separator environment layer

theorem withVariable_of_none
    (h : EnvironmentName.path? start separator entry.1 = none) :
    withVariable start separator layer entry = layer := by
  unfold withVariable
  rw [h]

theorem table_withVariable
    (h : EnvironmentName.path? start separator entry.1 = some path) :
    SettingTree.table (withVariable start separator layer entry) =
      merge (.table layer) (nest (StandIn.value entry.2) path) := by
  unfold withVariable
  rw [h]
  cases path with
  | nil => exact absurd h (EnvironmentName.path?_ne_nil start separator entry.1)
  | cons key path => rw [nest, merge]

theorem distinct_withVariable
    (h : (SettingTree.table layer).Distinct)
    (entry : String × String) :
    (SettingTree.table (withVariable start separator layer entry)).Distinct := by
  cases hpath : EnvironmentName.path? start separator entry.1 with
  | none =>
      rw [withVariable_of_none hpath]
      exact h
  | some path =>
      rw [table_withVariable hpath]
      exact distinct_merge h (distinct_nest (distinct_value entry.2) path)

theorem distinct_ofEnvironment
    (start separator : String) (environment : List (String × String)) :
    (SettingTree.table (ofEnvironment start separator environment)).Distinct := by
  unfold ofEnvironment
  exact List.foldlRecOn (motive := fun layer => (SettingTree.table layer).Distinct) environment _
    distinct_empty fun _ hlayer entry _ => distinct_withVariable hlayer entry

theorem settles_nil :
    Settles start separator [] [] where
  value_at := nofun
  only path tree hfind hpath := by
    cases path with
    | nil => exact absurd rfl hpath
    | cons key path =>
        rw [SettingTree.find?] at hfind
        cases hfind

theorem settles_withVariable
    (h : Settles start separator environment layer)
    (hapart : SettingsLibrary.standIn.Apart start separator (environment ++ [entry])) :
    Settles start separator (environment ++ [entry])
      (withVariable start separator layer entry) := by
  cases hpath : EnvironmentName.path? start separator entry.1 with
  | none =>
      rw [withVariable_of_none hpath]
      constructor
      · intro other hother path' hpath'
        rcases List.mem_append.1 hother with hother | hother
        · exact h.value_at other hother path' hpath'
        · rw [List.mem_singleton.1 hother] at hpath'
          cases hpath.symm.trans hpath'
      · intro path tree hfind hne
        obtain ⟨other, hother, hmeet⟩ := h.only path tree hfind hne
        exact ⟨other, List.mem_append_left _ hother, hmeet⟩
  | some path =>
      have hothers (other : String × String) (hother : other ∈ environment) (path' : List String)
          (hpath' : EnvironmentName.path? start separator other.1 = some path') :
          ¬PathsMeet path' path :=
        (List.pairwise_append.1 hapart).2.2 other hother entry (List.mem_singleton.2 rfl) path' path
          hpath' hpath
      -- Whatever the layer had at the path would belong to a variable that meets it.
      have hfree : (SettingTree.table layer).find? path = none := by
        rw [Option.eq_none_iff_forall_ne_some]
        intro tree hfind
        obtain ⟨other, hother, path', hpath', hmeet⟩ := h.only path tree hfind
          fun hnil => EnvironmentName.path?_ne_nil start separator entry.1 (hnil ▸ hpath)
        exact hothers other hother path' hpath' hmeet.symm
      constructor
      · intro other hother path' hpath'
        rw [table_withVariable hpath]
        rcases List.mem_append.1 hother with hother | hother
        · rw [find?_merge_nest_of_not_meet (hothers other hother path' hpath')]
          exact h.value_at other hother path' hpath'
        · rw [List.mem_singleton.1 hother] at hpath' ⊢
          cases hpath.symm.trans hpath'
          exact find?_merge_nest_self hfree
      · intro path' tree hfind hne
        by_cases hmeet : PathsMeet path' path
        · exact ⟨entry, List.mem_append_right _ (List.mem_singleton.2 rfl), path, hpath, hmeet⟩
        · rw [table_withVariable hpath, find?_merge_nest_of_not_meet hmeet] at hfind
          obtain ⟨other, hother, hmeet⟩ := h.only path' tree hfind hne
          exact ⟨other, List.mem_append_left _ hother, hmeet⟩

theorem settles_foldl
    {done rest : List (String × String)}
    (h : Settles start separator done layer)
    (hapart : SettingsLibrary.standIn.Apart start separator (done ++ rest)) :
    Settles start separator (done ++ rest) (rest.foldl (withVariable start separator) layer) := by
  induction rest generalizing done layer with
  | nil =>
      rw [List.append_nil]
      exact h
  | cons entry rest ih =>
      rw [List.append_cons] at hapart ⊢
      exact ih (settles_withVariable h (List.pairwise_append.1 hapart).1) hapart

theorem settles_ofEnvironment
    (hapart : SettingsLibrary.standIn.Apart start separator environment) :
    Settles start separator environment (ofEnvironment start separator environment) :=
  settles_foldl settles_nil hapart

end StandIn

end Variables

end Datalog
