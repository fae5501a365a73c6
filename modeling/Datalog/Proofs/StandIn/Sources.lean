import Datalog.Proofs.StandIn.Merging

/-!
# The keys of settings sources

**Result.** The trees that TOML texts and environment variables stand for have distinct keys, so
that a look-up finds all that a source says of a key.

**Documents.** A document under construction has distinct keys if the tree has that it would be
finished to.  Every step sets keys with `Keyed.put`, and what it puts there has distinct keys if the
table that it puts there is one that the step has changed in turn.
-/

namespace Datalog

section Sources

open SettingTree

namespace DocumentNode

variable {node : DocumentNode} {entries found : Entries} {path : List String} {key : String}

/-- A node whose finished tree has distinct keys. -/
def Distinct (node : DocumentNode) : Prop :=
  node.tree.Distinct

/-- Entries whose finished table has distinct keys. -/
def Keys (entries : Entries) : Prop :=
  (SettingTree.table (trees entries)).Distinct

theorem trees_put
    (key : String) (node : DocumentNode) (entries : Entries) :
    trees (Keyed.put key node entries) = Keyed.put key node.tree (trees entries) := by
  induction entries with
  | nil => rfl
  | cons entry rest ih =>
      rw [Keyed.put, trees, Keyed.put]
      split
      · rfl
      · rw [trees, ih]

theorem lookup_trees
    (entries : Entries) (key : String) :
    (trees entries).lookup key = (entries.lookup key).map DocumentNode.tree := by
  induction entries with
  | nil => rfl
  | cons entry rest ih =>
      obtain ⟨first, node⟩ := entry
      rw [trees]
      by_cases heq : key = first
      · subst heq
        rw [Keyed.lookup_cons_self, Keyed.lookup_cons_self]
        rfl
      · rw [Keyed.lookup_cons_of_ne heq, Keyed.lookup_cons_of_ne heq, ih]

theorem keys_nil :
    Keys [] :=
  distinct_empty

theorem distinct_value
    {tree : SettingTree}
    (h : tree.Distinct) :
    (value tree).Distinct :=
  h

theorem distinct_table
    (h : Keys entries)
    (origin : TableOrigin) :
    (table origin entries).Distinct :=
  h

theorem Distinct.keys
    {origin : TableOrigin}
    (h : (DocumentNode.table origin entries).Distinct) :
    Keys entries :=
  h

theorem distinct_tables
    (elements : List Entries) :
    (tables elements).Distinct := by
  unfold Distinct
  rw [tree]
  exact .plain rfl

theorem Keys.put
    (h : Keys entries)
    (hnode : node.Distinct)
    (key : String) :
    Keys (Keyed.put key node entries) := by
  unfold Keys at h ⊢
  rw [trees_put]
  exact SettingTree.Distinct.put h hnode key

theorem Keys.lookup
    (h : Keys entries)
    (hlookup : entries.lookup key = some node) :
    node.Distinct :=
  SettingTree.Distinct.lookup h ((lookup_trees entries key).trans (by rw [hlookup]; rfl))

/-- What a path leads to can be changed in a document if the change gives a tree with distinct keys
wherever it finds one. -/
theorem keys_update
    {change : Option DocumentNode → Option DocumentNode}
    (hchange : ∀ old new, (∀ node, old = some node → node.Distinct) →
      change old = some new → new.Distinct)
    (h : Keys entries)
    (hupdate : update change entries path = some found) :
    Keys found := by
  fun_induction update change entries path generalizing found with
  | case1 => cases hupdate
  | case2 entries key =>
      obtain ⟨new, hnew, rfl⟩ := Option.map_eq_some_iff.1 hupdate
      exact h.put (hchange _ _ (fun node hnode => h.lookup hnode) hnew) key
  | case3 entries key path hpath hlookup ih =>
      obtain ⟨inner, hinner, rfl⟩ := Option.map_eq_some_iff.1 hupdate
      exact h.put (distinct_table (ih keys_nil hinner) _) key
  | case4 entries key path hpath origin inner hlookup ih =>
      obtain ⟨inner', hinner, rfl⟩ := Option.map_eq_some_iff.1 hupdate
      exact h.put (distinct_table (ih (h.lookup hlookup).keys hinner) _) key
  | case5 entries key path hpath last earlier hlookup ih =>
      obtain ⟨last', hlast, rfl⟩ := Option.map_eq_some_iff.1 hupdate
      exact h.put (distinct_tables _) key
  | case6 => cases hupdate

theorem distinct_headed?
    (old : Option DocumentNode) (new : DocumentNode)
    (hold : ∀ node, old = some node → node.Distinct)
    (h : headed? old = some new) :
    new.Distinct := by
  unfold headed? at h
  split at h
  · cases h
    exact distinct_table keys_nil _
  · cases h
    exact distinct_table (hold _ rfl).keys _
  · cases h

theorem distinct_headedElement?
    (old : Option DocumentNode) (new : DocumentNode)
    (_ : ∀ node, old = some node → node.Distinct)
    (h : headedElement? old = some new) :
    new.Distinct := by
  unfold headedElement? at h
  split at h
  · cases h
    exact distinct_tables _
  · cases h
    exact distinct_tables _
  · cases h

theorem keys_insertDotted?
    {tree : SettingTree}
    (htree : tree.Distinct)
    (h : Keys entries)
    (hinsert : insertDotted? tree entries path = some found) :
    Keys found := by
  fun_induction insertDotted? tree entries path generalizing found with
  | case1 => cases hinsert
  | case2 entries key hlookup =>
      cases hinsert
      exact h.put (distinct_value htree) key
  | case3 => cases hinsert
  | case4 entries key path hpath hlookup ih =>
      obtain ⟨inner, hinner, rfl⟩ := Option.map_eq_some_iff.1 hinsert
      exact h.put (distinct_table (ih keys_nil hinner) _) key
  | case5 entries key path hpath inner hlookup ih =>
      obtain ⟨inner', hinner, rfl⟩ := Option.map_eq_some_iff.1 hinsert
      exact h.put (distinct_table (ih (h.lookup hlookup).keys hinner) _) key
  | case6 entries key path hpath inner hlookup hlength ih =>
      obtain ⟨inner', hinner, rfl⟩ := Option.map_eq_some_iff.1 hinsert
      exact h.put (distinct_table (ih (h.lookup hlookup).keys hinner) _) key
  | case7 => cases hinsert
  | case8 entries key path hpath last earlier hlookup hlength ih =>
      obtain ⟨last', hlast, rfl⟩ := Option.map_eq_some_iff.1 hinsert
      exact h.put (distinct_tables _) key
  | case9 => cases hinsert
  | case10 => cases hinsert

theorem distinct_insertInto?
    {tree : SettingTree}
    (htree : tree.Distinct)
    (path : List String)
    (old : Option DocumentNode) (new : DocumentNode)
    (hold : ∀ node, old = some node → node.Distinct)
    (h : insertInto? tree path old = some new) :
    new.Distinct := by
  unfold insertInto? at h
  split at h
  · obtain ⟨inner, hinner, rfl⟩ := Option.map_eq_some_iff.1 h
    exact distinct_table (keys_insertDotted? htree (hold _ rfl).keys hinner) _
  · obtain ⟨last, hlast, rfl⟩ := Option.map_eq_some_iff.1 h
    exact distinct_tables _
  · cases h

theorem keys_assign?
    {tree : SettingTree} {heading : List String}
    (htree : tree.Distinct)
    (h : Keys entries)
    (hassign : assign? heading path tree entries = some found) :
    Keys found := by
  unfold assign? at hassign
  split at hassign
  · exact keys_insertDotted? htree h hassign
  · exact keys_update (distinct_insertInto? htree path) h hassign

theorem distinct_inlineTable?
    {pairs : List (List String × SettingTree)} {tree : SettingTree}
    (hpairs : ∀ pair ∈ pairs, pair.2.Distinct)
    (h : inlineTable? pairs = some tree) :
    tree.Distinct := by
  obtain ⟨entries, hentries, rfl⟩ := Option.map_eq_some_iff.1 h
  have hstart : Keys [] := keys_nil
  clear h
  generalize ([] : Entries) = start at hentries hstart
  refine distinct_table ?_ .heading
  induction pairs generalizing start with
  | nil =>
      cases hentries
      exact hstart
  | cons pair rest ih =>
      rw [List.foldlM_cons] at hentries
      obtain ⟨next, hnext, hrest⟩ := Option.bind_eq_some_iff.1 hentries
      exact ih (fun other hother => hpairs other (List.mem_cons_of_mem _ hother)) next hrest
        (keys_insertDotted? (hpairs pair List.mem_cons_self) hstart hnext)

end DocumentNode

namespace TomlStatement

/-- Statements that assign trees with distinct keys only. -/
def AssignsDistinct (statements : List TomlStatement) : Prop :=
  ∀ path tree, assignment path tree ∈ statements → tree.Distinct

theorem AssignsDistinct.of_cons
    {first : TomlStatement} {rest : List TomlStatement}
    (h : AssignsDistinct (first :: rest)) :
    AssignsDistinct rest :=
  fun path tree hmem => h path tree (List.mem_cons_of_mem _ hmem)

theorem keys_run?
    {entries found : DocumentNode.Entries} {last : List String} {statements : List TomlStatement}
    (hstatements : AssignsDistinct statements)
    (h : DocumentNode.Keys entries)
    (hrun : run? entries last statements = some found) :
    DocumentNode.Keys found := by
  fun_induction run? entries last statements with
  | case1 entries =>
      cases hrun
      exact h
  | case2 => cases hrun
  | case3 entries last path rest next hupdate ih =>
      exact ih hstatements.of_cons
        (DocumentNode.keys_update DocumentNode.distinct_headed? h hupdate) hrun
  | case4 => cases hrun
  | case5 entries last path rest next hupdate ih =>
      exact ih hstatements.of_cons
        (DocumentNode.keys_update DocumentNode.distinct_headedElement? h hupdate) hrun
  | case6 => cases hrun
  | case7 entries last path tree rest next hassign ih =>
      exact ih hstatements.of_cons
        (DocumentNode.keys_assign? (hstatements path tree List.mem_cons_self) h hassign) hrun

end TomlStatement

theorem Scalar.distinct_ofText?
    {text : String} {tree : SettingTree}
    (h : Scalar.ofText? text = some tree) :
    tree.Distinct := by
  unfold Scalar.ofText? at h
  split at h
  · cases h
    exact .plain rfl
  · split at h
    · cases h
      exact .plain rfl
    · split at h
      · cases h
        have htext : (SettingTree.text text).Distinct := .plain rfl
        exact distinct_empty.put htext _
      · split at h
        · cases h
          exact .plain rfl
        · obtain ⟨value, _, rfl⟩ := Option.map_eq_some_iff.1 h
          exact .plain rfl

namespace Toml

variable {depth : Nat} {tokens : List TomlToken}

theorem distinct_pairs
    {found : List (List String × SettingTree)} {rest : Rest tokens}
    (hvalue : ∀ tokens tree (rest : Rest tokens),
      value depth tokens = some (tree, rest) → tree.Distinct)
    (h : pairs depth tokens = some (found, rest)) :
    ∀ pair ∈ found, pair.2.Distinct := by
  induction hlength : tokens.length using Nat.strongRecOn generalizing tokens found with
  | ind n ih =>
      rw [pairs.eq_def] at h
      split at h
      · cases h
      · split at h
        · cases h
        · rename_i tree next hlt' hfirst
          split at h
          · cases h
          · rename_i others after hlt'' hothers
            cases h
            rw [List.forall_mem_cons]
            refine ⟨hvalue _ _ _ hfirst, ih _ ?_ hothers rfl⟩
            rw [List.length_cons] at hlt'
            omega
        · rename_i hfirst
          cases h
          rw [List.forall_mem_singleton]
          exact hvalue _ _ _ hfirst
        · cases h

theorem distinct_value
    {tree : SettingTree} {rest : Rest tokens}
    (h : value depth tokens = some (tree, rest)) :
    tree.Distinct := by
  induction depth using Nat.strongRecOn generalizing tokens tree with
  | ind depth ih =>
      rw [value.eq_def] at h
      split at h
      · obtain ⟨value, hvalue, heq⟩ := Option.map_eq_some_iff.1 h
        cases heq
        exact Scalar.distinct_ofText? hvalue
      · cases h
        exact .plain rfl
      · cases h
        exact .plain rfl
      · split at h
        · cases h
        · cases h
          exact .plain rfl
      · cases h
        exact distinct_empty
      · split at h
        · cases h
        · rename_i inner _ _ _ _ hpairs
          obtain ⟨table, htable, heq⟩ := Option.map_eq_some_iff.1 h
          cases heq
          refine DocumentNode.distinct_inlineTable? (distinct_pairs (fun _ _ _ hvalue => ?_) hpairs)
            htable
          exact ih _ (Nat.lt_succ_self _) hvalue
      · cases h

theorem distinct_statement
    {keys : List String} {tree : SettingTree} {rest : Rest tokens}
    (h : statement tokens = some (.assignment keys tree, rest)) :
    tree.Distinct := by
  unfold statement at h
  split at h
  · -- A heading is no assignment.
    rename_i found hfound
    cases h
    unfold heading at hfound
    split at hfound
    · split at hfound <;> cases hfound
    · split at hfound <;> cases hfound
    · cases hfound
  · unfold Reader.map Reader.andThen at h
    split at h
    · cases h
    · rename_i hthen
      cases h
      split at hthen
      · cases hthen
      · split at hthen
        · cases hthen
        · rename_i hvalue
          cases hthen
          exact distinct_value hvalue

theorem assignsDistinct_statements?
    {statements : List TomlStatement}
    (h : statements? tokens = some statements) :
    TomlStatement.AssignsDistinct statements := by
  fun_induction statements? tokens generalizing statements with
  | case1 =>
      cases h
      exact nofun
  | case2 rest ih => exact ih h
  | case3 tokens _ _ found _ hfound =>
      cases h
      rintro path tree hmem
      rw [← List.mem_singleton.1 hmem] at hfound
      exact distinct_statement hfound
  | case4 tokens _ _ found rest _ hfound ih =>
      obtain ⟨others, hothers, rfl⟩ := Option.map_eq_some_iff.1 h
      intro path tree hmem
      rcases List.mem_cons.1 hmem with rfl | hmem
      · exact distinct_statement hfound
      · exact ih hothers path tree hmem
  | case5 => cases h

/-- A text without a byte-order mark has the table of the statements that its tokens make up. -/
theorem parse?_of_statements?
    {text : String} {tokens : List TomlToken} {statements : List TomlStatement}
    (hmark : text.toList.head? ≠ some '\ufeff')
    (hscan : TomlToken.scan? '\n' text.toList = some tokens)
    (hstatements : statements? tokens = some statements) :
    parse? text = (TomlStatement.run? [] [] statements).map DocumentNode.trees := by
  unfold parse?
  dsimp only
  split
  · rename_i hnone
    split at hnone
    · rename_i heq
      exact absurd (congrArg List.head? heq) hmark
    · cases hscan.symm.trans hnone
  · rename_i found hfound
    split at hfound
    · rename_i heq
      exact absurd (congrArg List.head? heq) hmark
    · cases hscan.symm.trans hfound
      rw [hstatements]

theorem distinct_parse?
    {text : String} {entries : List (String × SettingTree)}
    (h : parse? text = some entries) :
    (SettingTree.table entries).Distinct := by
  unfold parse? at h
  simp only at h
  split at h
  · cases h
  · split at h
    · cases h
    · rename_i statements hstatements
      obtain ⟨found, hfound, rfl⟩ := Option.map_eq_some_iff.1 h
      exact TomlStatement.keys_run? (assignsDistinct_statements? hstatements) DocumentNode.keys_nil
        hfound

end Toml

namespace SettingTree

theorem entriesMeaning?_eq_some
    {entries values : List (String × SettingTree)}
    (h : entriesMeaning? entries = some values) :
    values.map Prod.fst = entries.map Prod.fst ∧
      ∀ value ∈ values, ∃ entry ∈ entries, meaning? entry.2 = some value.2 := by
  induction entries generalizing values with
  | nil =>
      rw [entriesMeaning?] at h
      cases h
      exact ⟨rfl, nofun⟩
  | cons entry rest ih =>
      rw [entriesMeaning?] at h
      split at h
      · rename_i first others hfirst hothers
        cases h
        obtain ⟨hkeys, hvalues⟩ := ih hothers
        refine ⟨congrArg (List.cons entry.1) hkeys, fun value hmem => ?_⟩
        rcases List.mem_cons.1 hmem with rfl | hmem
        · exact ⟨entry, List.mem_cons_self, hfirst⟩
        · obtain ⟨other, hother, hmeaning⟩ := hvalues value hmem
          exact ⟨other, List.mem_cons_of_mem _ hother, hmeaning⟩
      · cases h

theorem distinct_entriesMeaning?
    {entries values : List (String × SettingTree)}
    (hnodup : (entries.map Prod.fst).Nodup)
    (hmeaning : ∀ entry ∈ entries, ∀ value, meaning? entry.2 = some value → value.Distinct)
    (h : entriesMeaning? entries = some values) :
    (table values).Distinct := by
  obtain ⟨hkeys, hvalues⟩ := entriesMeaning?_eq_some h
  refine .table (hkeys ▸ hnodup) fun value hmem => ?_
  obtain ⟨entry, hentry, hvalue⟩ := hvalues value hmem
  exact hmeaning entry hentry value.2 hvalue

theorem distinct_meaning?
    {tree value : SettingTree}
    (h : tree.Distinct)
    (hvalue : meaning? tree = some value) :
    value.Distinct := by
  induction h generalizing value with
  | @table entries hnodup _ ih =>
      rw [meaning?] at hvalue
      obtain ⟨values, hvalues, hof⟩ := Option.bind_eq_some_iff.1 hvalue
      have hdistinct := distinct_entriesMeaning? hnodup (fun entry hentry _ => ih entry hentry)
        hvalues
      unfold ofTable? at hof
      split at hof
      · cases hof
      · cases hof
        cases hlookup : values.lookup valueKey with
        | none => exact hdistinct
        | some stood => exact hdistinct.lookup hlookup
  | @plain tree hplain =>
      rw [meaning?.eq_def] at hvalue
      split at hvalue
      · cases hplain
      · obtain ⟨values, _, rfl⟩ := Option.map_eq_some_iff.1 hvalue
        exact .plain rfl
      · cases hvalue
        exact .plain hplain

end SettingTree

namespace StandIn

theorem distinct_ofText
    {text : String} {layer : Layer}
    (h : StandIn.ofText text = .ok layer) :
    (SettingTree.table layer).Distinct := by
  unfold StandIn.ofText at h
  split at h
  · rename_i hbind
    cases h
    obtain ⟨entries, hentries, hmeaning⟩ := Option.bind_eq_some_iff.1 hbind
    obtain ⟨hnodup, hdistinct⟩ := distinct_table_iff.1 (Toml.distinct_parse? hentries)
    exact distinct_entriesMeaning? hnodup
      (fun entry hentry _ => distinct_meaning? (hdistinct entry hentry)) hmeaning
  · cases h

theorem distinct_ofFile
    {file : Option ByteArray} {layer : Layer}
    (h : StandIn.ofFile file = .ok layer) :
    (SettingTree.table layer).Distinct := by
  unfold StandIn.ofFile at h
  split at h
  · cases h
    exact distinct_empty
  · split at h
    · cases h
    · exact distinct_ofText h

/-- The table of a file that has a TOML text. -/
theorem ofFile_toUTF8
    {text : String} {entries layer : Layer}
    (hparse : Toml.parse? text = some entries)
    (hmeaning : entriesMeaning? entries = some layer) :
    StandIn.ofFile (some text.toUTF8) = .ok layer := by
  have hutf : String.fromUTF8? text.toUTF8 = some text := dif_pos text.isValidUTF8
  unfold StandIn.ofFile StandIn.ofText
  simp only [hutf, hparse, Option.bind_some, hmeaning]

end StandIn

namespace EnvironmentValue

theorem distinct_lastEntries
    {entries : List (String × SettingTree)}
    (h : ∀ entry ∈ entries, entry.2.Distinct) :
    (SettingTree.table (lastEntries entries)).Distinct := by
  unfold lastEntries
  exact List.foldlRecOn (motive := fun found => (SettingTree.table found).Distinct) entries _
    distinct_empty fun found hfound entry hentry => hfound.put (h entry hentry) entry.1

theorem distinct_plain
    (cs : List Char) :
    (plain cs).Distinct := by
  unfold plain
  split
  · exact .plain rfl
  · split
    · exact .plain rfl
    · split
      · exact .plain rfl
      · exact .plain rfl
  · exact .plain rfl

theorem distinct_scalar
    {cs : List Char} {tree : SettingTree} {rest : Remaining cs}
    (h : scalar cs = .ok (tree, rest)) :
    tree.Distinct := by
  unfold scalar at h
  split at h
  · cases h
    exact .plain rfl
  · cases h
    exact .plain rfl
  · split at h
    · cases h
    · cases h
      exact .plain rfl
  · cases h
    exact .plain rfl
  · cases h
  · cases h
    exact distinct_plain _

mutual

theorem distinct_value
    {cs : List Char} {tree : SettingTree} {rest : Remaining cs}
    (h : value cs = .ok (tree, rest)) :
    tree.Distinct := by
  rw [value.eq_def] at h
  split at h
  · split at h
    · cases h
    · cases h
      exact .plain rfl
  · split at h
    · rename_i inner hlt _
      split at h
      · cases h
      · rename_i trees after hle hentries
        cases h
        exact distinct_lastEntries (distinct_entries hentries)
    · exact distinct_scalar h
termination_by (cs.length, 0)

theorem distinct_spacedValue
    {cs : List Char} {tree : SettingTree} {rest : Remaining cs}
    (h : spacedValue cs = .ok (tree, rest)) :
    tree.Distinct := by
  rw [spacedValue.eq_def] at h
  split at h
  rename_i start hle _
  split at h
  · cases h
  · rename_i hvalue
    cases h
    exact distinct_value hvalue
termination_by (cs.length, 1)
decreasing_by
  exact Prod.Lex.right' _ (by assumption) Nat.zero_lt_one

theorem distinct_entries
    {cs : List Char} {trees : List (String × SettingTree)} {rest : Remaining cs}
    (h : entries cs = .ok (trees, rest)) :
    ∀ entry ∈ trees, entry.2.Distinct := by
  rw [entries.eq_def] at h
  split at h
  · cases h
    exact nofun
  · split at h
    · cases h
    · rename_i name start hstart _
      split at h
      · cases h
      · rename_i tree after hafter hspaced
        have htree : tree.Distinct := distinct_spacedValue hspaced
        split at h
        · rename_i next hnext _
          split at h
          · cases h
          · rename_i hothers
            cases h
            exact List.forall_mem_cons.2 ⟨htree, distinct_entries hothers⟩
        · split at h
          · cases h
            exact List.forall_mem_singleton.2 htree
          · cases h
termination_by (cs.length, 2)
decreasing_by
  · exact Prod.Lex.right' _ (by assumption) (Nat.lt_succ_self _)
  · exact Prod.Lex.left _ _ (by omega)

end

theorem distinct_ofText?
    {text : String} {tree : SettingTree}
    (h : ofText? text = some tree) :
    tree.Distinct := by
  unfold ofText? at h
  split at h
  · rename_i hspaced
    cases h
    exact distinct_spacedValue hspaced
  · cases h
  · cases h
    exact .plain rfl

end EnvironmentValue

theorem StandIn.distinct_value
    (text : String) :
    (StandIn.value text).Distinct := by
  unfold StandIn.value
  cases h : EnvironmentValue.ofText? text with
  | none => exact .plain rfl
  | some tree => exact EnvironmentValue.distinct_ofText? h

end Sources

end Datalog
