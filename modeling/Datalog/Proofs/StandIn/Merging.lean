import Datalog.Proofs.Settings.Laws
import Datalog.StandIn.Library

/-!
# Setting trees laid over each other

**Results.** Laying a tree with distinct keys over another one gives their merge, and the result has
distinct keys if both have.
-/

namespace Datalog

section Merging

namespace SettingTree

theorem exists_of_isTable
    {tree : SettingTree}
    (h : tree.isTable) :
    ∃ entries, tree = table entries := by
  cases tree with
  | table entries => exact ⟨entries, rfl⟩
  | _ => cases h

section Distinctness

variable {entries : List (String × SettingTree)}

theorem distinct_table_iff :
    (table entries).Distinct ↔
      (entries.map Prod.fst).Nodup ∧ ∀ entry ∈ entries, entry.2.Distinct := by
  constructor
  · intro h
    cases h with
    | table hnodup hentries => exact ⟨hnodup, hentries⟩
    | plain hplain => cases hplain
  · rintro ⟨hnodup, hentries⟩
    exact .table hnodup hentries

theorem Distinct.lookup
    (h : (SettingTree.table entries).Distinct)
    {key : String} {tree : SettingTree}
    (hlookup : entries.lookup key = some tree) :
    tree.Distinct := by
  obtain ⟨hnodup, hentries⟩ := distinct_table_iff.1 h
  exact hentries _ ((Keyed.lookup_eq_some_iff hnodup).1 hlookup)

theorem Distinct.put
    (h : (SettingTree.table entries).Distinct)
    {tree : SettingTree}
    (htree : tree.Distinct)
    (key : String) :
    (SettingTree.table (Keyed.put key tree entries)).Distinct := by
  obtain ⟨hnodup, hentries⟩ := distinct_table_iff.1 h
  refine .table (Keyed.nodup_keys_put hnodup) fun entry hentry => ?_
  rcases Keyed.eq_or_mem_of_mem_put hentry with rfl | hentry
  · exact htree
  · exact hentries entry hentry

theorem distinct_empty :
    (table []).Distinct :=
  .table List.nodup_nil nofun

theorem distinct_nest
    {tree : SettingTree}
    (h : tree.Distinct)
    (path : List String) :
    (nest tree path).Distinct := by
  induction path with
  | nil => exact h
  | cons key path ih => exact distinct_empty.put ih key

end Distinctness

section Merge

theorem merge_eq_upper
    {lower upper : SettingTree}
    (h : ¬(lower.isTable ∧ upper.isTable)) :
    merge lower upper = upper := by
  cases upper with
  | table entries =>
      rw [merge]
      cases lower with
      | table _ => exact absurd ⟨rfl, rfl⟩ h
      | _ => nofun
  | _ => rw [merge]; nofun

/-- Entries with distinct keys, laid over others one after the other, are laid over the entry of
their own key each. -/
theorem lookup_mergeEntries
    {upper : List (String × SettingTree)}
    (h : (upper.map Prod.fst).Nodup)
    (lower : List (String × SettingTree))
    (key : String) :
    (mergeEntries lower upper).lookup key =
      match upper.lookup key, lower.lookup key with
      | none, found => found
      | some value, none => some value
      | some value, some old => some (merge old value) := by
  induction upper generalizing lower with
  | nil =>
      rw [mergeEntries]
      rfl
  | cons entry rest ih =>
      obtain ⟨first, value⟩ := entry
      rw [List.map_cons, List.nodup_cons] at h
      rw [mergeEntries, ih h.2, Keyed.lookup_put]
      by_cases heq : key = first
      · subst heq
        have hrest : rest.lookup key = none := by
          refine List.lookup_eq_none_iff.2 fun entry hentry => ?_
          exact bne_iff_ne.2 fun heq => h.1 (List.mem_map.2 ⟨entry, hentry, heq.symm⟩)
        rw [hrest, Keyed.lookup_cons_self, if_pos rfl]
        cases lower.lookup key with
        | none => rfl
        | some old => rfl
      · rw [Keyed.lookup_cons_of_ne heq, if_neg heq]

theorem merged_merge
    {upper : SettingTree}
    (h : upper.Distinct)
    (lower : SettingTree) :
    Merged lower upper (merge lower upper) := by
  induction h generalizing lower with
  | @plain tree hplain =>
      have hne : ¬(lower.isTable ∧ tree.isTable) := fun h => ne_true_of_eq_false hplain h.2
      rw [merge_eq_upper hne]
      exact .replaced hne
  | @table upper hnodup hentries ih =>
      by_cases hlower : lower.isTable
      · obtain ⟨lower, rfl⟩ := exists_of_isTable hlower
        rw [merge]
        have hlookup := lookup_mergeEntries hnodup lower
        refine .tables (fun key hnone => ?_) (fun key hnone => ?_)
          (fun key old value hold hvalue => ?_) (fun key old value new hold hvalue hnew => ?_)
        · rw [hlookup, hnone]
        · rw [hlookup, hnone]
          cases upper.lookup key <;> rfl
        · rw [hlookup, hold, hvalue]
          rfl
        · rw [hlookup, hold, hvalue, Option.some.injEq] at hnew
          rw [← hnew]
          exact ih _ ((Keyed.lookup_eq_some_iff hnodup).1 hvalue) old
      · rw [merge_eq_upper fun h => hlower h.1]
        exact .replaced fun h => hlower h.1

theorem distinct_mergeEntries
    {lower upper : List (String × SettingTree)}
    (hlower : (table lower).Distinct)
    (hupper : ∀ entry ∈ upper, entry.2.Distinct)
    (hmerge : ∀ entry ∈ upper, ∀ tree : SettingTree, tree.Distinct →
      (merge tree entry.2).Distinct) :
    (table (mergeEntries lower upper)).Distinct := by
  induction upper generalizing lower with
  | nil => exact hlower
  | cons entry rest ih =>
      rw [mergeEntries]
      refine ih (hlower.put ?_ entry.1)
        (fun other hother => hupper other (List.mem_cons_of_mem _ hother))
        (fun other hother => hmerge other (List.mem_cons_of_mem _ hother))
      split
      · exact hupper entry List.mem_cons_self
      · rename_i old hold
        exact hmerge entry List.mem_cons_self old (hlower.lookup hold)

theorem distinct_merge
    {lower upper : SettingTree}
    (hlower : lower.Distinct)
    (hupper : upper.Distinct) :
    (merge lower upper).Distinct := by
  induction hupper generalizing lower with
  | plain hplain =>
      rw [merge_eq_upper fun h => ne_true_of_eq_false hplain h.2]
      exact .plain hplain
  | table hnodup hentries ih =>
      by_cases htable : lower.isTable
      · obtain ⟨lower, rfl⟩ := exists_of_isTable htable
        rw [merge]
        exact distinct_mergeEntries hlower hentries fun entry hentry _ htree =>
          ih entry hentry htree
      · rw [merge_eq_upper fun h => htable h.1]
        exact .table hnodup hentries

end Merge

end SettingTree

end Merging

end Datalog
