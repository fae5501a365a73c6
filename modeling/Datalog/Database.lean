import Datalog.Event
import Datalog.OrderedMap
import Datalog.Relation

/-!
# Databases

**Type.** A database is a map from names to relations.  `Database.Keyed` says that each relation
stands under its own name.

**Loading.** The database of a program has an empty relation for each scheme, a later scheme of
the same name replacing an earlier one.  Then each fact is inserted; a fact of an undeclared
relation or of the wrong length is skipped, and an event says so.  Inserting a fact changes no
schema, so the database of the schemes alone decides which facts are skipped.
-/

namespace Datalog

section Database

/-- Relations by name. -/
structure Database where
  byName : OrderedMap String Relation
deriving DecidableEq

namespace Database

/-- The database without relations. -/
def empty : Database :=
  ⟨∅⟩

/-- The relation stored under a name. -/
def relation? (db : Database) (name : String) : Option Relation :=
  db.byName.get? name

/-- Each relation stands under its own name. -/
def Keyed (db : Database) : Prop :=
  ∀ name r, db.relation? name = some r → r.name = name

/-- The relations in the order of their names. -/
def relations (db : Database) : List Relation :=
  db.byName.values

/-- The number of relations. -/
def size (db : Database) : Nat :=
  db.byName.size

/-- The number of rows of all relations together. -/
def factCount (db : Database) : Nat :=
  db.relations.foldr (fun r count => r.size + count) 0

/-- Whether exactly this relation is stored under its name. -/
def holds (db : Database) (r : Relation) : Bool :=
  db.relation? r.name == some r

/-- Stores a relation under its name, in place of any earlier one. -/
def store (db : Database) (r : Relation) : Database :=
  ⟨db.byName.insert r.name r⟩

@[simp] theorem relation?_store
    (db : Database) (r : Relation) (name : String) :
    (db.store r).relation? name = if name = r.name then some r else db.relation? name :=
  OrderedMap.get?_insert db.byName r.name name r

/-- Storing a relation that is held already changes nothing. -/
theorem store_eq_self_of_holds
    {db : Database} {r : Relation} (h : db.holds r = true) :
    db.store r = db := by
  have hget : db.relation? r.name = some r := by simpa [holds] using h
  exact congrArg Database.mk (OrderedMap.insert_eq_self hget)

section Loading

/-- An empty relation for each scheme. -/
def ofSchemes (schemes : List Predicate) : Database :=
  schemes.foldl (fun db scheme => db.store (Relation.empty scheme.name scheme.terms)) empty

/-- Inserts a fact into the relation it names, if there is one and the length is right. -/
def loadFact (db : Database) (fact : Predicate) : Database :=
  match db.relation? fact.name with
  | none => db
  | some r => db.store (r.insert fact.terms)

/-- Why a fact is skipped, if it is. -/
def factEvent? (db : Database) (fact : Predicate) : Option Event :=
  match db.relation? fact.name with
  | none => some (.undeclaredFact fact.name)
  | some r =>
      if fact.terms.length = r.arity then
        none
      else
        some (.factArity fact.name r.arity fact.terms.length)

/-- The schemes and facts of a program. -/
def ofProgram (program : Program) : Database :=
  program.facts.foldl loadFact (ofSchemes program.schemes)

/-- The events of loading a program: one for each skipped fact. -/
def loadingEvents (program : Program) : List Event :=
  program.facts.filterMap (ofSchemes program.schemes).factEvent?

end Loading

end Database

end Database

end Datalog
