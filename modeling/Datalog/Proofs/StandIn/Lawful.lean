import Datalog.Proofs.StandIn.Variables

/-!
# The laws of a library

**Records.** The members of a record come from the keys in some order, so that no key has two.

**Result.** The library `SettingsLibrary.standIn` does what settings rely on.
-/

namespace Datalog

section LawfulStandIn

open SettingTree

namespace StandIn

section Values

theorem boolean_reads :
    StandIn.boolean.Reads fun tree value => tree = .boolean value := by
  intro path tree value
  cases tree <;> simp [StandIn.boolean]

theorem text_reads :
    StandIn.text.Reads fun tree value => tree.asText = .text value := by
  intro path tree value
  cases tree <;> simp [StandIn.text, asText]

theorem named_eq_ok_iff
    {α : Type} {choices : List (String × α)} {path : List String} {name : String} {value : α} :
    named choices path name = .ok value ↔ choices.lookup name = some value := by
  unfold named
  cases choices.lookup name <;> simp

/-- A table is no choice, whatever its entries are. -/
theorem choice_table_ne_ok
    {α : Type} {name : String} {choices : List (String × α)} {path : List String} {value : α}
    (entries : List (String × SettingTree)) :
    StandIn.choice name choices path (.table entries) ≠ .ok value := by
  unfold StandIn.choice
  simp only
  split
  · exact nofun
  · split <;> exact nofun

theorem choice_reads
    {α : Type} (name : String) (choices : List (String × α)) :
    (StandIn.choice name choices).Reads fun tree value =>
      ∃ chosen, tree = .text chosen ∧ choices.lookup chosen = some value := by
  intro path tree value
  cases tree with
  | text found => simp [StandIn.choice, named_eq_ok_iff]
  | table entries => simp [choice_table_ne_ok]
  | _ => simp [StandIn.choice]

end Values

section Members

variable {name key : String} {keys path : List String} {tree found : SettingTree}
variable {members : List Member} {position : Nat}

theorem members_isSection :
    (∃ members, StandIn.members name keys path tree = .ok members) ↔ tree.isSection = true := by
  cases tree <;> simp [StandIn.members, isSection]

theorem map_key_sublist
    {γ : Type} {member? : γ → Option Member}
    (key : γ → String)
    (h : ∀ place member, member? place = some member → member.key = key place)
    (places : List γ) :
    ((places.filterMap member?).map Member.key).Sublist (places.map key) := by
  induction places with
  | nil => exact .slnil
  | cons place rest ih =>
      rw [List.filterMap_cons, List.map_cons]
      cases hmember : member? place with
      | none => exact ih.cons _
      | some member =>
          rw [List.map_cons, h place member hmember]
          exact ih.cons_cons _

theorem nodup_members
    (hkeys : keys.Nodup)
    (h : StandIn.members name keys path tree = .ok members) :
    (members.map Member.key).Nodup := by
  unfold StandIn.members at h
  split at h
  · cases h
    refine (map_key_sublist id (fun _ _ hmember => ?_) _).nodup ?_
    · obtain ⟨_, _, rfl⟩ := Option.map_eq_some_iff.1 hmember
      rfl
    · rw [List.map_id]
      exact OrderedSet.nodup_toList _
  · cases h
    refine (map_key_sublist Prod.fst (fun _ _ hmember => ?_) _).nodup ?_
    · obtain ⟨_, _, rfl⟩ := Option.map_eq_some_iff.1 hmember
      rfl
    · rw [List.zipIdx_map_fst]
      exact hkeys
  · cases h

theorem mem_members
    (hkeys : keys.Nodup)
    (h : StandIn.members name keys path tree = .ok members)
    (hkey : keys[position]? = some key) :
    (∃ member ∈ members, member.key = key ∧ member.tree = found) ↔
      tree.member? key position = some found := by
  unfold StandIn.members at h
  split at h
  · rename_i entries
    cases h
    rw [member?]
    constructor
    · rintro ⟨member, hmember, rfl, rfl⟩
      obtain ⟨other, _, hother⟩ := List.mem_filterMap.1 hmember
      obtain ⟨tree, htree, rfl⟩ := Option.map_eq_some_iff.1 hother
      exact htree
    · intro hfound
      refine ⟨_, List.mem_filterMap.2 ⟨key, ?_, Option.map_eq_some_iff.2 ⟨found, hfound, rfl⟩⟩,
        rfl, rfl⟩
      rw [OrderedSet.mem_toList, OrderedSet.mem_ofList]
      exact List.mem_of_getElem? hkey
  · rename_i items
    cases h
    rw [member?]
    constructor
    · rintro ⟨member, hmember, rfl, rfl⟩
      obtain ⟨⟨other, place⟩, hplace, hother⟩ := List.mem_filterMap.1 hmember
      obtain ⟨tree, htree, rfl⟩ := Option.map_eq_some_iff.1 hother
      -- The key stands at no other position.
      have hsame : position = place :=
        (List.getElem?_inj (List.getElem?_eq_some_iff.1 hkey).1 hkeys).1
          (hkey.trans (List.mem_zipIdx_iff_getElem?.1 hplace).symm)
      rw [hsame]
      exact htree
    · intro hfound
      exact ⟨_, List.mem_filterMap.2 ⟨(key, position), List.mem_zipIdx_iff_getElem?.2 hkey,
        Option.map_eq_some_iff.2 ⟨found, hfound, rfl⟩⟩, rfl, rfl⟩
  · cases h

end Members

end StandIn

/-- The library does what settings rely on. -/
theorem SettingsLibrary.lawful_standIn :
    SettingsLibrary.standIn.Lawful where
  absent := rfl
  distinct_ofFile _ _ := StandIn.distinct_ofFile
  distinct_ofEnvironment := StandIn.distinct_ofEnvironment
  settles _ _ _ := StandIn.settles_ofEnvironment
  merged lower upper hupper := by
    have hmerged := merged_merge hupper (.table lower)
    rw [SettingTree.merge] at hmerged
    exact hmerged
  boolean_reads := StandIn.boolean_reads
  text_reads := StandIn.text_reads
  choice_reads := StandIn.choice_reads
  members_isSection _ _ _ _ := StandIn.members_isSection
  nodup_members _ _ _ _ _ := StandIn.nodup_members
  mem_members _ _ _ _ _ hkeys h _ _ hkey _ := StandIn.mem_members hkeys h hkey

end LawfulStandIn

end Datalog
