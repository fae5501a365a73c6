import Datalog.Answer
import Datalog.Proofs.Algebra.Matching

/-!
# What matching finds in a relation

**Occurrences.** The names of a list that have a property, by first occurrence, are fixed by two
facts: which names they are, and that their first places in the list ascend.

**Agreement.** A row agrees with terms if it has each constant at its column and equal values at the
columns of each other term.  Only the columns of the row count.  That is to say that it fits the
terms under some valuation.

**Results.** Matching counts the rows that agree with the terms and gives, from each of them, the
values at the first places of the variables.  An answer is yes if some row agrees, and lists these
values.
-/

namespace Datalog

section Answering

section Occurrences

/-- The names of a list with a property, each once, in the order of their first places. -/
structure FirstOccurrences (source : List String) (p : String → Prop) (names : List String) :
    Prop where
  mem_iff : ∀ name, name ∈ names ↔ name ∈ source ∧ p name
  ascending : names.Pairwise fun name other => source.idxOf name < source.idxOf other

theorem idxOf_lt_of_filter
    {l : List String} {keep : String → Bool} {a b : String}
    (ha : keep a = true)
    (hb : keep b = true)
    (h : (l.filter keep).idxOf a < (l.filter keep).idxOf b) :
    l.idxOf a < l.idxOf b := by
  induction l with
  | nil => exact h
  | cons c rest ih =>
      by_cases hca : c = a
      · subst hca
        rw [List.filter_cons_of_pos ha, List.idxOf_cons_self] at h
        have hne : c ≠ b := by
          rintro rfl
          rw [List.idxOf_cons_self] at h
          exact absurd h (Nat.lt_irrefl 0)
        rw [List.idxOf_cons_self, List.idxOf_cons_ne _ hne]
        exact Nat.succ_pos _
      · by_cases hcb : c = b
        · subst hcb
          rw [List.filter_cons_of_pos hb, List.idxOf_cons_self] at h
          exact absurd h (Nat.not_lt_zero _)
        · rw [List.idxOf_cons_ne _ hca, List.idxOf_cons_ne _ hcb]
          refine Nat.succ_lt_succ (ih ?_)
          cases hc : keep c with
          | true =>
              rw [List.filter_cons_of_pos hc, List.idxOf_cons_ne _ hca,
                List.idxOf_cons_ne _ hcb] at h
              exact Nat.lt_of_succ_lt_succ h
          | false =>
              rw [List.filter_cons_of_neg (Bool.eq_false_iff.1 hc)] at h
              exact h

theorem pairwise_eraseDups (l : List String) :
    l.eraseDups.Pairwise fun a b => l.idxOf a < l.idxOf b := by
  -- The first name is erased from what follows, and erasing keeps the order of the places.
  induction hlength : l.length using Nat.strongRecOn generalizing l with
  | ind n ih =>
      cases l with
      | nil => exact List.Pairwise.nil
      | cons a rest =>
          subst hlength
          have hothers := ih _ (Nat.lt_succ_of_le (List.length_filter_le _ rest))
            (rest.filter fun b => !b == a) rfl
          have hne (b : String) (hb : b ∈ (rest.filter fun b => !b == a).eraseDups) : b ≠ a := by
            simpa using (List.mem_filter.1 (List.mem_eraseDups.1 hb)).2
          rw [List.eraseDups_cons, List.pairwise_cons]
          refine ⟨fun b hb => ?_, hothers.imp_of_mem fun {b c} hb hc hlt => ?_⟩
          · rw [List.idxOf_cons_self, List.idxOf_cons_ne _ (hne b hb).symm]
            exact Nat.succ_pos _
          · rw [List.idxOf_cons_ne _ (hne b hb).symm, List.idxOf_cons_ne _ (hne c hc).symm]
            refine Nat.succ_lt_succ (idxOf_lt_of_filter ?_ ?_ hlt)
            · simpa using hne b hb
            · simpa using hne c hc

theorem firstOccurrences_filter (source : List String) (keep : String → Bool) :
    FirstOccurrences source (keep · = true) (source.eraseDups.filter keep) where
  mem_iff name := by rw [List.mem_filter, List.mem_eraseDups]
  ascending := (pairwise_eraseDups source).filter keep

theorem FirstOccurrences.congr
    {source names : List String} {p q : String → Prop}
    (h : FirstOccurrences source p names)
    (hpq : ∀ name, p name ↔ q name) :
    FirstOccurrences source q names where
  mem_iff name := by rw [h.mem_iff, hpq]
  ascending := h.ascending

section Counting

variable {source names other : List String} {p : String → Prop}

theorem FirstOccurrences.nodup
    (h : FirstOccurrences source p names) :
    names.Nodup := by
  refine h.ascending.imp ?_
  rintro name _ hlt rfl
  exact Nat.lt_irrefl _ hlt

/-- There is one list of first occurrences only. -/
theorem FirstOccurrences.unique
    (h : FirstOccurrences source p names)
    (h' : FirstOccurrences source p other) :
    names = other := by
  have hperm : names.Perm other :=
    (List.perm_ext_iff_of_nodup h.nodup h'.nodup).2 fun name => by rw [h.mem_iff, h'.mem_iff]
  exact hperm.eq_of_pairwise
    (fun _ _ _ _ hlt hgt => absurd hlt (Nat.lt_asymm hgt)) h.ascending h'.ascending

theorem FirstOccurrences.length_le
    (h : FirstOccurrences source p names) :
    names.length ≤ source.length :=
  h.nodup.length_le_of_subset fun name hname => ((h.mem_iff name).1 hname).1

/-- A name without the property makes the occurrences fewer. -/
theorem FirstOccurrences.length_lt
    (h : FirstOccurrences source p names)
    {name : String}
    (hmem : name ∈ source)
    (hnot : ¬ p name) :
    names.length < source.length := by
  have hsubset : names ⊆ source.erase name := by
    intro kept hkept
    obtain ⟨hin, hp⟩ := (h.mem_iff kept).1 hkept
    have hne : kept ≠ name := by
      rintro rfl
      exact hnot hp
    exact (List.mem_erase_of_ne hne).2 hin
  have hlength := h.nodup.length_le_of_subset hsubset
  rw [List.length_erase_of_mem hmem] at hlength
  have hpos := List.length_pos_of_mem hmem
  omega

end Counting

end Occurrences

/-- Gathering reads each position. -/
theorem Row.gather?_eq_some_iff_map
    {row values : Row} {indices : List Nat} :
    row.gather? indices = some values ↔ indices.map (row[·]?) = values.map some := by
  rw [gather?_eq_some_iff, ← List.forall₂_eq_eq_eq, List.forall₂_map_left_iff,
    List.forall₂_map_right_iff]

theorem OrderedSet.size_pos_iff
    {α : Type} [Ord α] {s : OrderedSet α} :
    0 < s.size ↔ ∃ a, a ∈ s := by
  rw [OrderedSet.size, List.length_pos_iff_exists_mem]
  rfl

theorem Database.isYes_answer_iff
    {db : Database} {query : Predicate} {r : Relation}
    (hr : db.relation? query.name = some r) :
    (db.answer query).isYes = true ↔ 0 < (Matching.bind r query).matched := by
  rw [Database.answer, hr]
  exact decide_eq_true_iff

namespace Matching

section Agreement

variable {terms : List String} {row : Row}

/-- A row has the constants at their columns and equal values at the columns of any other term. -/
def Agrees (terms : List String) (row : Row) : Prop :=
  ∀ i < row.length, ∀ term ∈ terms[i]?,
    if TermKind.isConstant term then
      row[i]? = some term
    else
      ∀ j < row.length, terms[j]? = some term → row[i]? = row[j]?

instance (terms : List String) (row : Row) : Decidable (Agrees terms row) :=
  inferInstanceAs (Decidable (∀ i < row.length, ∀ term ∈ terms[i]?, _))

/-- A term that is no constant and stands at one of the first `arity` places. -/
def IsVisible (arity : Nat) (terms : List String) (name : String) : Prop :=
  TermKind.isConstant name = false ∧ ∃ i < arity, terms[i]? = some name

theorem isVisible_iff
    {arity : Nat} {name : String} :
    IsVisible arity terms name ↔ name ∈ variableNames arity terms := by
  constructor
  · rintro ⟨hkind, i, hi, hname⟩
    exact mem_variableNames_of_getElem? hname hkind hi
  · intro h
    obtain ⟨hmem, hkind, hlt⟩ := mem_variableNames.1 h
    exact ⟨hkind, _, hlt, List.getElem?_idxOf hmem⟩

/-- Where there are no more terms than columns, each term that is no constant has a column. -/
theorem isVisible_of_mem
    {arity : Nat} {name : String}
    (hmem : name ∈ terms)
    (hvariable : TermKind.isConstant name = false)
    (hlength : terms.length ≤ arity) :
    IsVisible arity terms name := by
  obtain ⟨i, hi⟩ := List.getElem?_of_mem hmem
  exact ⟨hvariable, i, Nat.lt_of_lt_of_le (List.getElem?_eq_some_iff.1 hi).1 hlength, hi⟩

theorem variableNames_ne_nil_iff
    {arity : Nat} :
    variableNames arity terms ≠ [] ↔ ∃ name, IsVisible arity terms name := by
  simp only [isVisible_iff]
  exact ⟨List.exists_mem_of_ne_nil _, fun ⟨_, h⟩ => List.ne_nil_of_mem h⟩

theorem firstOccurrences_variableNames (arity : Nat) (terms : List String) :
    FirstOccurrences terms (IsVisible arity terms) (variableNames arity terms) where
  mem_iff name := by
    rw [isVisible_iff]
    exact ⟨fun h => ⟨(mem_variableNames.1 h).1, h⟩, And.right⟩
  ascending := by
    have htaken (name : String) (h : name ∈ variableNames arity terms) :
        (terms.take arity).idxOf name = terms.idxOf name := by
      have hmem : name ∈ terms.take arity :=
        (List.mem_take_iff_idxOf_lt (mem_variableNames.1 h).1).2 (mem_variableNames.1 h).2.2
      have happend : (terms.take arity ++ terms.drop arity).idxOf name =
          (terms.take arity).idxOf name := List.idxOf_append_of_mem hmem
      rw [List.take_append_drop] at happend
      exact happend.symm
    refine (pairwise_eraseDups _).imp_of_mem fun {a b} ha hb hlt => ?_
    rw [← htaken a ha, ← htaken b hb]
    refine idxOf_lt_of_filter ?_ ?_ hlt
    · simpa using (mem_variableNames.1 ha).2.1
    · simpa using (mem_variableNames.1 hb).2.1

/-- A row agrees with terms if it fits them under some valuation. -/
theorem agrees_iff_exists_fits :
    Agrees terms row ↔ ∃ v, Fits v terms row := by
  constructor
  · intro h
    refine ⟨fun name => row.getD (terms.idxOf name) "", fun i term hterm hi => ?_⟩
    have hat := h i hi term hterm
    cases hkind : TermKind.isConstant term with
    | true =>
        rw [hkind, if_pos rfl] at hat
        rw [termValue_of_isConstant hkind, hat]
    | false =>
        rw [hkind, if_neg Bool.false_ne_true] at hat
        have hname := mem_variableNames_of_getElem? hterm hkind hi
        obtain ⟨hmem, _, hlt⟩ := mem_variableNames.1 hname
        rw [termValue_of_not_isConstant hkind,
          hat (terms.idxOf term) hlt (List.getElem?_idxOf hmem)]
        exact getElem?_firstColumn hname
  · rintro ⟨v, hfits⟩ i hi term hterm
    split
    · rename_i hkind
      rw [hfits i term hterm hi, termValue_of_isConstant hkind]
    · intro j hj hterm'
      rw [hfits i term hterm hi, hfits j term hterm' hj]

/-- Selection for terms keeps the rows that agree with them. -/
theorem mem_select_iff_agrees
    {r : Relation}
    (h : r.WellFormed) :
    row ∈ (select r terms).rows ↔ row ∈ r.rows ∧ Agrees terms row := by
  rw [Relation.mem_select]
  refine and_congr_right fun hrow => ?_
  have hlength : r.arity = row.length := (h row hrow).symm
  rw [agrees_iff_exists_fits, hlength]
  constructor
  · intro hselected
    let v : String → String := fun name => row.getD (terms.idxOf name) ""
    exact ⟨v, fits_iff.2 ⟨hselected, fun name hname => getElem?_firstColumn hname⟩⟩
  · rintro ⟨v, hfits⟩
    exact (fits_iff.1 hfits).1

end Agreement

section Found

variable {r : Relation} {predicate : Predicate}

theorem matched_bind
    (h : r.WellFormed) :
    (bind r predicate).matched =
      (r.rows.filter fun row => decide (Agrees predicate.terms row)).size := by
  have hrows : (select r predicate.terms).rows =
      r.rows.filter fun row => decide (Agrees predicate.terms row) := by
    refine OrderedSet.ext_mem fun row => ?_
    rw [mem_select_iff_agrees h, OrderedSet.mem_filter, decide_eq_true_iff]
  exact congrArg OrderedSet.size hrows

/-- The rows that matching gives are the values of the agreeing rows at the first places of the
variables. -/
theorem mem_bind_iff_agrees
    (h : r.Clean)
    {row : Row} :
    row ∈ (bind r predicate).relation.rows ↔
      variableNames r.arity predicate.terms ≠ [] ∧
        ∃ source ∈ r.rows, Agrees predicate.terms source ∧
          row.map some = (variableNames r.arity predicate.terms).map
            fun name => source[predicate.terms.idxOf name]? := by
  rw [mem_bind h]
  refine and_congr_right fun _ => exists_congr fun source => ?_
  rw [mem_select_iff_agrees h.wellFormed, and_assoc, Row.gather?_eq_some_iff_map, List.map_map]
  exact and_congr_right fun _ => and_congr_right fun _ => eq_comm

/-- What matching finds in a relation with different column names, for any number of terms that are
not empty.  It counts the rows that agree with the terms.  It has a column for each term that is no
constant and stands at a column, by first occurrence.  Its rows are the values that the agreeing
rows have at the first places of these terms; without such a term there is none.  A query is
answered yes if some row agrees, and the answer lists the rows found in their order. -/
theorem bind_finds_agreeing
    {r : Relation}
    (h : r.Clean)
    {predicate : Predicate}
    (hterms : ∀ term ∈ predicate.terms, term ≠ "") :
    let found := bind r predicate
    let columns := found.relation.schema
    found.matched = (r.rows.filter fun row => decide (Agrees predicate.terms row)).size ∧
      FirstOccurrences predicate.terms (IsVisible r.arity predicate.terms) columns ∧
      (∀ row, row ∈ found.relation.rows ↔
        columns ≠ [] ∧ ∃ source ∈ r.rows, Agrees predicate.terms source ∧
          row.map some = columns.map fun name => source[predicate.terms.idxOf name]?) ∧
      ∀ db : Database, db.relation? predicate.name = some r →
        ((db.answer predicate).isYes = true ↔ ∃ row ∈ r.rows, Agrees predicate.terms row) ∧
          ∃ rows : List Row, rows.Pairwise (fun row row' => compare row row' = .lt) ∧
            (∀ row, row ∈ rows ↔ row ∈ found.relation.rows) ∧
            (db.answer predicate).bindings = rows.map (Row.render columns) := by
  intro found columns
  have hcolumns : columns = variableNames r.arity predicate.terms := schema_bind h hterms
  refine ⟨matched_bind h.wellFormed, ?_, fun row => ?_, fun db hr => ⟨?_, ?_⟩⟩
  · rw [hcolumns]
    exact firstOccurrences_variableNames r.arity predicate.terms
  · rw [hcolumns]
    exact mem_bind_iff_agrees h
  · rw [Database.isYes_answer_iff hr, matched_bind h.wellFormed, OrderedSet.size_pos_iff]
    simp only [OrderedSet.mem_filter, decide_eq_true_iff]
  · refine ⟨found.relation.rows.toList, found.relation.rows.ascending, fun row => Iff.rfl, ?_⟩
    rw [Database.answer, hr]
    rfl

/-- Variables that are called like other columns, one of them twice, and terms beyond the last
column. -/
theorem bind_finds_swapped :
    let r := ((Relation.empty "R" ["x", "y", "z"]).insert ["'1'", "'2'", "'1'"]).insert
      ["'1'", "'2'", "'3'"]
    let predicate : Predicate := ⟨"R", ["y", "x", "y", "'4'", "z"]⟩
    let found := bind r predicate
    let db := Database.empty.store r
    r.Clean ∧ (∀ term ∈ predicate.terms, term ≠ "") ∧ db.relation? "R" = some r ∧
      found.matched = 1 ∧ found.relation.schema = ["y", "x"] ∧
      FirstOccurrences predicate.terms (IsVisible 3 predicate.terms) ["y", "x"] ∧
      ((db.answer predicate).isYes = true ↔ ∃ row ∈ r.rows, Agrees predicate.terms row) := by
  intro r predicate found db
  have hr : r.Clean :=
    ⟨by decide, (((Relation.Built.empty _ _).insert _).insert _).wellFormed⟩
  have hterms : ∀ term ∈ predicate.terms, term ≠ "" := by decide
  have hdb : db.relation? "R" = some r := by
    rw [Database.relation?_store, if_pos (by decide)]
  obtain ⟨hmatched, hcolumns, _, hanswer⟩ := bind_finds_agreeing hr hterms
  exact ⟨hr, hterms, hdb, hmatched.trans (by decide), by decide, hcolumns, (hanswer db hdb).1⟩

end Found

end Matching

end Answering

end Datalog
