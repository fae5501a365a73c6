import Datalog.Row
import Datalog.Source.Token

/-!
# String literals

**Form.** A string literal is an opening apostrophe, a body in which apostrophes occur in pairs
only, and a closing apostrophe.  `Paired` is the form of the body.

**Results.** After an opening apostrophe the scanner takes the rest of a string literal and nothing
else.  A literal can be told from what follows it, if that is no apostrophe, so the rendering of a
row of literals determines the row.
-/

namespace Datalog

section StringLiteral

/-- A text in which each apostrophe stands next to a second one. -/
inductive Paired : List Char → Prop
  | nil : Paired []
  | pair {body : List Char} : Paired body → Paired ('\'' :: '\'' :: body)
  | plain {c : Char} {body : List Char} : c ≠ '\'' → Paired body → Paired (c :: body)

/-- A text that the grammar takes for a string. -/
def StringLiteral (text : String) : Prop :=
  ∃ body, Paired body ∧ text.toList = '\'' :: (body ++ ['\''])

section Scanning

/-- The scanner ends a string at the first apostrophe that has no second one next to it. -/
theorem Token.quotedTail?_eq_some
    {cs tail after : List Char}
    (h : quotedTail? cs = some (tail, after)) :
    ∃ body, Paired body ∧ tail = body ++ ['\''] ∧ cs = tail ++ after := by
  fun_induction quotedTail? cs generalizing tail after with
  | case1 => cases h
  | case2 rest ih =>
      obtain ⟨⟨tail', after'⟩, htail, heq⟩ := Option.map_eq_some_iff.1 h
      cases heq
      obtain ⟨body, hbody, rfl, hrest⟩ := ih htail
      exact ⟨_, Paired.pair hbody, rfl, by rw [hrest]; rfl⟩
  | case3 rest =>
      cases h
      exact ⟨[], Paired.nil, rfl, rfl⟩
  | case4 c rest _ hplain ih =>
      obtain ⟨⟨tail', after'⟩, htail, heq⟩ := Option.map_eq_some_iff.1 h
      cases heq
      obtain ⟨body, hbody, rfl, hrest⟩ := ih htail
      exact ⟨_, Paired.plain hplain hbody, rfl, by rw [hrest]; rfl⟩

/-- The scanner reads a body with its closing apostrophe, if no apostrophe follows. -/
theorem Paired.quotedTail?_append
    {body rest : List Char}
    (h : Paired body)
    (hrest : rest.head? ≠ some '\'') :
    Token.quotedTail? (body ++ '\'' :: rest) = some (body ++ ['\''], rest) := by
  induction h with
  | nil =>
      rw [List.nil_append, Token.quotedTail?]
      · rfl
      · rintro tail rfl
        exact hrest rfl
  | pair _ ih =>
      rw [List.cons_append, List.cons_append, Token.quotedTail?, ih]
      rfl
  | plain hc _ ih =>
      rw [List.cons_append, Token.quotedTail?, ih]
      · rfl
      · exact fun _ heq _ => hc heq
      · exact hc

/-- A string literal is what the scanner reads as one string. -/
theorem stringLiteral_iff
    {text : String} :
    StringLiteral text ↔
      ∃ tail, text.toList = '\'' :: tail ∧ Token.quotedTail? tail = some (tail, []) := by
  constructor
  · rintro ⟨body, hbody, htext⟩
    have hscan : Token.quotedTail? (body ++ ['\'']) = some (body ++ ['\''], []) :=
      hbody.quotedTail?_append nofun
    exact ⟨body ++ ['\''], htext, hscan⟩
  · rintro ⟨tail, htext, htail⟩
    obtain ⟨body, hbody, rfl, _⟩ := Token.quotedTail?_eq_some htail
    exact ⟨body, hbody, htext⟩

instance (text : String) : Decidable (StringLiteral text) :=
  match h : text.toList with
  | [] => isFalse (by rw [stringLiteral_iff, h]; rintro ⟨_, heq, _⟩; cases heq)
  | c :: tail =>
      decidable_of_iff (c = '\'' ∧ Token.quotedTail? tail = some (tail, [])) (by
        rw [stringLiteral_iff, h]
        constructor
        · rintro ⟨rfl, htail⟩
          exact ⟨tail, rfl, htail⟩
        · rintro ⟨tail', heq, htail⟩
          cases heq
          exact ⟨rfl, htail⟩)

end Scanning

section Rendering

/-- Where a body ends is seen from the apostrophe without a second one. -/
theorem Paired.append_inj
    {body body' rest rest' : List Char}
    (h : Paired body)
    (h' : Paired body')
    (hrest : rest.head? ≠ some '\'')
    (hrest' : rest'.head? ≠ some '\'')
    (heq : body ++ '\'' :: rest = body' ++ '\'' :: rest') :
    body = body' ∧ rest = rest' := by
  induction h generalizing body' with
  | nil =>
      cases h' with
      | nil => exact ⟨rfl, (List.cons.inj heq).2⟩
      | pair _ =>
          have hcontra := (List.cons.inj heq).2
          rw [hcontra] at hrest
          exact absurd rfl hrest
      | plain hc _ => exact absurd (List.cons.inj heq).1.symm hc
  | pair _ ih =>
      cases h' with
      | nil =>
          have hcontra := (List.cons.inj heq).2
          rw [← hcontra] at hrest'
          exact absurd rfl hrest'
      | pair hbody' =>
          have htail := (List.cons.inj (List.cons.inj heq).2).2
          obtain ⟨rfl, hsame⟩ := ih hbody' htail
          exact ⟨rfl, hsame⟩
      | plain hc _ => exact absurd (List.cons.inj heq).1.symm hc
  | plain hc _ ih =>
      cases h' with
      | nil => exact absurd (List.cons.inj heq).1 hc
      | pair _ => exact absurd (List.cons.inj heq).1 hc
      | plain _ hbody' =>
          obtain ⟨rfl, htail⟩ := List.cons.inj heq
          obtain ⟨rfl, hsame⟩ := ih hbody' htail
          exact ⟨rfl, hsame⟩

theorem StringLiteral.append_inj
    {text text' : String} {rest rest' : List Char}
    (h : StringLiteral text)
    (h' : StringLiteral text')
    (hrest : rest.head? ≠ some '\'')
    (hrest' : rest'.head? ≠ some '\'')
    (heq : text.toList ++ rest = text'.toList ++ rest') :
    text = text' ∧ rest = rest' := by
  obtain ⟨body, hbody, htext⟩ := h
  obtain ⟨body', hbody', htext'⟩ := h'
  rw [htext, htext', List.cons_append, List.cons_append, List.append_assoc,
    List.append_assoc] at heq
  obtain ⟨rfl, hsame⟩ := hbody.append_inj hbody' hrest hrest' (List.cons.inj heq).2
  exact ⟨String.toList_inj.1 (htext.trans htext'.symm), hsame⟩

/-- The rendering of a row from its second value on, with the separator before it. -/
def Row.renderRest (schema row : Row) : List Char :=
  match schema with
  | [] => []
  | _ :: _ => (", " ++ render schema row).toList

theorem Row.head?_renderRest
    (schema row : Row)
    {after : List Char}
    (hafter : after.head? ≠ some '\'') :
    (renderRest schema row ++ after).head? ≠ some '\'' := by
  cases schema with
  | nil => exact hafter
  | cons column rest =>
      unfold renderRest
      simp

theorem Row.toList_render_cons
    (column value : String)
    {schema row : Row}
    (h : row.length = schema.length) :
    (render (column :: schema) (value :: row)).toList =
      (column ++ "=").toList ++ (value.toList ++ renderRest schema row) := by
  cases schema with
  | nil =>
      obtain rfl := List.length_eq_zero_iff.1 h
      simp [render, renderRest]
  | cons next schema =>
      cases row with
      | nil => cases h
      | cons value' row =>
          simp [render, renderRest, String.intercalate_cons_cons, List.append_assoc]

/-- Behind the first value stand the renderings of the other columns, but for a separator. -/
theorem Row.render_append_of_renderRest
    {schema row row' : Row} {after after' : List Char}
    (h : renderRest schema row ++ after = renderRest schema row' ++ after') :
    (render schema row).toList ++ after = (render schema row').toList ++ after' := by
  cases schema with
  | nil => exact h
  | cons next schema =>
      unfold renderRest at h
      simpa only [String.toList_append, List.append_assoc, List.append_right_inj] using h

/-- A rendered row of string literals can be told from what follows it, if that is no
apostrophe. -/
theorem Row.render_append_inj
    {schema row row' : Row} {after after' : List Char}
    (hlength : row.length = schema.length)
    (hlength' : row'.length = schema.length)
    (hrow : ∀ value ∈ row, StringLiteral value)
    (hrow' : ∀ value ∈ row', StringLiteral value)
    (hafter : after.head? ≠ some '\'')
    (hafter' : after'.head? ≠ some '\'')
    (heq : (render schema row).toList ++ after = (render schema row').toList ++ after') :
    row = row' ∧ after = after' := by
  induction schema generalizing row row' with
  | nil =>
      obtain rfl := List.length_eq_zero_iff.1 hlength
      obtain rfl := List.length_eq_zero_iff.1 hlength'
      exact ⟨rfl, List.append_cancel_left heq⟩
  | cons column schema ih =>
      cases row with
      | nil => cases hlength
      | cons value row =>
          cases row' with
          | nil => cases hlength'
          | cons value' row' =>
              have hrest : row.length = schema.length := Nat.succ.inj hlength
              have hrest' : row'.length = schema.length := Nat.succ.inj hlength'
              rw [toList_render_cons column value hrest,
                toList_render_cons column value' hrest'] at heq
              simp only [List.append_assoc, List.append_right_inj] at heq
              obtain ⟨rfl, hsame⟩ :=
                (hrow value List.mem_cons_self).append_inj (hrow' value' List.mem_cons_self)
                  (head?_renderRest schema row hafter) (head?_renderRest schema row' hafter') heq
              obtain ⟨rfl, hend⟩ := ih hrest hrest'
                (fun v hv => hrow v (List.mem_cons_of_mem _ hv))
                (fun v hv => hrow' v (List.mem_cons_of_mem _ hv))
                (render_append_of_renderRest hsame)
              exact ⟨rfl, hend⟩

/-- Two rows of string literals that are rendered alike are equal. -/
theorem Row.eq_of_render_eq
    {schema row row' : Row}
    (hlength : row.length = schema.length)
    (hlength' : row'.length = schema.length)
    (hrow : ∀ value ∈ row, StringLiteral value)
    (hrow' : ∀ value ∈ row', StringLiteral value)
    (heq : render schema row = render schema row') :
    row = row' := by
  have hend : ([] : List Char).head? ≠ some '\'' := nofun
  exact (render_append_inj hlength hlength' hrow hrow' hend hend (by rw [heq])).1

end Rendering

end StringLiteral

end Datalog
