import Datalog.Reader
import Datalog.StandIn.Toml.Document
import Datalog.StandIn.Toml.Scalar
import Datalog.StandIn.Toml.Token

/-!
# The grammar of TOML

**Input.** A TOML text.

**Grammar.** A document is a sequence of lines: `[path]`, `[[path]]` or `path = value`.  A path is
bare or quoted keys with points between them.  A value is a bare value, a string, a list, which
may go over several lines, or an inline table, which may not.

**Limits.** A path has fewer than 80 keys, and lists and inline tables are fewer than 80 levels
deep.

**Result.** The entries of the document, or the fact that the text is not one.
-/

namespace Datalog

section TomlGrammar

namespace Toml

/-- The greatest number of keys of a path, and of levels of lists and inline tables. -/
def limit : Nat :=
  79

/-- A piece of a path. -/
inductive PathPart where
  | key (name : String)
  | point
deriving DecidableEq, Repr

/-- A key without quotes, given its characters last to first. -/
def bareKey (reversed : List Char) : List PathPart :=
  if reversed.isEmpty then [] else [.key (String.ofList reversed.reverse)]

/-- The pieces of a bare text, which may hold points; `reversed` is the key read so far. -/
def bareParts (reversed : List Char) : List Char → List PathPart
  | [] => bareKey reversed
  | '.' :: rest => bareKey reversed ++ .point :: bareParts [] rest
  | c :: rest => bareParts (c :: reversed) rest

/-- The keys of a path, if keys and points alternate. -/
def keys? : List PathPart → Option (List String)
  | [.key name] => some [name]
  | .key name :: .point :: rest => (keys? rest).map (name :: ·)
  | _ => none

/-- Reads a piece of a path, or several in one bare text. -/
def pathParts : Reader TomlToken (List PathPart)
  | .quoted text :: rest => some ([.key text], ⟨rest, Nat.lt_succ_self _⟩)
  | .bare text :: rest =>
      if text.toList.any fun c => c == '+' || c == ':' then
        none
      else
        some (bareParts [] text.toList, ⟨rest, Nat.lt_succ_self _⟩)
  | _ => none

/-- The keys, if they are not too many. -/
def limited? (keys : List String) : Option (List String) :=
  if keys.length ≤ limit then some keys else none

/-- Reads a path. -/
def path : Reader TomlToken (List String) :=
  Reader.filterMap (fun (first, rest) => (keys? (first ++ rest.flatten)).bind limited?)
    (Reader.thenMany pathParts pathParts)

/-- Reads a path and an equals sign. -/
def pathEquals : Reader TomlToken (List String) :=
  Reader.before path (Reader.symbol .equals)

mutual

/-- Reads a value with at most `depth` levels. -/
def value (depth : Nat) (tokens : List TomlToken) : Option (SettingTree × Rest tokens) :=
  match tokens, depth with
  | .bare text :: rest, _ =>
      (Scalar.ofText? text).map fun tree => (tree, ⟨rest, Nat.lt_succ_self _⟩)
  | .quoted text :: rest, _ => some (.text text, ⟨rest, Nat.lt_succ_self _⟩)
  | .block text :: rest, _ => some (.text text, ⟨rest, Nat.lt_succ_self _⟩)
  | .opening _ :: rest, inner + 1 =>
      match items inner rest with
      | none => none
      | some (trees, ⟨after, h⟩) => some (.list trees, ⟨after, Nat.lt_succ_of_lt h⟩)
  | .openingBrace :: .closingBrace :: rest, _ + 1 =>
      some (.table [], ⟨rest, Nat.lt_succ_of_lt (Nat.lt_succ_self _)⟩)
  | .openingBrace :: rest, inner + 1 =>
      match pairs inner rest with
      | none => none
      | some (found, ⟨after, h⟩) =>
          (DocumentNode.inlineTable? found).map fun tree => (tree, ⟨after, Nat.lt_succ_of_lt h⟩)
  | _, _ => none
termination_by (tokens.length, 0)

/-- Reads the values of a list up to its closing bracket, where a value or the bracket is due. -/
def items (depth : Nat) (tokens : List TomlToken) : Option (List SettingTree × Rest tokens) :=
  match tokens with
  | .lineEnd :: rest =>
      match items depth rest with
      | none => none
      | some (trees, ⟨after, h⟩) => some (trees, ⟨after, Nat.lt_succ_of_lt h⟩)
  | .closing _ :: rest => some ([], ⟨rest, Nat.lt_succ_self _⟩)
  | other =>
      match value depth other with
      | none => none
      | some (tree, ⟨rest, h⟩) =>
          match moreItems depth rest with
          | none => none
          | some (trees, ⟨after, h'⟩) => some (tree :: trees, ⟨after, Nat.lt_trans h' h⟩)
termination_by (tokens.length, 1)

/-- Reads the values of a list up to its closing bracket, after a value. -/
def moreItems (depth : Nat) (tokens : List TomlToken) : Option (List SettingTree × Rest tokens) :=
  match tokens with
  | .lineEnd :: rest =>
      match moreItems depth rest with
      | none => none
      | some (trees, ⟨after, h⟩) => some (trees, ⟨after, Nat.lt_succ_of_lt h⟩)
  | .comma :: rest =>
      match items depth rest with
      | none => none
      | some (trees, ⟨after, h⟩) => some (trees, ⟨after, Nat.lt_succ_of_lt h⟩)
  | .closing _ :: rest => some ([], ⟨rest, Nat.lt_succ_self _⟩)
  | _ => none
termination_by (tokens.length, 0)

/-- Reads the keys and values of an inline table up to its closing brace. -/
def pairs (depth : Nat) (tokens : List TomlToken) :
    Option (List (List String × SettingTree) × Rest tokens) :=
  match pathEquals tokens with
  | none => none
  | some (found, ⟨rest, h⟩) =>
      match value depth rest with
      | none => none
      | some (tree, ⟨.comma :: rest', h'⟩) =>
          match pairs depth rest' with
          | none => none
          | some (trees, ⟨after, h''⟩) =>
              some ((found, tree) :: trees, ⟨after, by
                simp only [List.length_cons] at h'
                omega⟩)
      | some (tree, ⟨.closingBrace :: after, h'⟩) =>
          some ([(found, tree)], ⟨after, by
            simp only [List.length_cons] at h'
            omega⟩)
      | some _ => none
termination_by (tokens.length, 1)
decreasing_by
  · exact Prod.Lex.left _ _ h
  · simp only [List.length_cons] at h'
    exact Prod.Lex.left _ _ (by omega)

end

/-- Reads a heading. -/
def heading : Reader TomlToken TomlStatement
  | .opening _ :: .opening true :: rest =>
      match path rest with
      | some (keys, ⟨.closing _ :: .closing true :: after, h⟩) =>
          some (.elementHeading keys, ⟨after, by
            simp only [List.length_cons] at h ⊢
            omega⟩)
      | _ => none
  | .opening _ :: rest =>
      match path rest with
      | some (keys, ⟨.closing _ :: after, h⟩) =>
          some (.heading keys, ⟨after, by
            simp only [List.length_cons] at h ⊢
            omega⟩)
      | _ => none
  | _ => none

/-- Reads a line of a document. -/
def statement : Reader TomlToken TomlStatement := fun tokens =>
  match heading tokens with
  | some found => some found
  | none =>
      Reader.map (fun (keys, tree) => .assignment keys tree)
        (Reader.andThen pathEquals (value limit)) tokens

/-- The statements of a document, one to a line. -/
def statements? (tokens : List TomlToken) : Option (List TomlStatement) :=
  match tokens with
  | [] => some []
  | .lineEnd :: rest => statements? rest
  | other =>
      match statement other with
      | some (found, ⟨[], _⟩) => some [found]
      | some (found, ⟨.lineEnd :: rest, _h⟩) => (statements? rest).map (found :: ·)
      | _ => none
termination_by tokens.length
decreasing_by
  · exact Nat.lt_succ_self _
  · simp only [List.length_cons] at _h
    omega

/-- The entries of the table that a TOML text describes.  A byte-order mark at its start is left
out. -/
def parse? (text : String) : Option (List (String × SettingTree)) :=
  let characters :=
    match text.toList with
    | '\ufeff' :: rest => rest
    | characters => characters
  match TomlToken.scan? '\n' characters with
  | none => none
  | some tokens =>
      match statements? tokens with
      | none => none
      | some found =>
          (TomlStatement.run? [] [] found).map DocumentNode.trees

end Toml

end TomlGrammar

end Datalog
