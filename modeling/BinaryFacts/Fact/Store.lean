import BinaryFacts.OrderedMap
import BinaryFacts.Fact.Value

/-!
# Fact stores

The relations handed to one rule program. A relation is created by its first insertion and only
grows: the rows after `insert` are the rows before it followed by the new ones (`rows_insert`).
-/

namespace BinaryFacts

structure FactStore where
  /-- The rule program that the facts are for. -/
  program : String
  relations : OrderedMap String (List Row) := .empty
deriving DecidableEq, Inhabited

namespace FactStore

/-- A store without relations. -/
def new (program : String) : FactStore := { program }

/-- Appends `rows` to a relation, creating it even where there are none to append. -/
def insert (store : FactStore) (relation : String) (rows : List Row) : FactStore :=
  { store with relations := store.relations.alter relation [] (· ++ rows) }

def insertRow (store : FactStore) (relation : String) (row : Row) : FactStore :=
  store.insert relation [row]

def relation? (store : FactStore) (relation : String) : Option (List Row) :=
  store.relations.get? relation

/-- The rows of a relation, none where it was never created. -/
def rows (store : FactStore) (relation : String) : List Row :=
  (store.relation? relation).getD []

def contains (store : FactStore) (relation : String) : Bool :=
  store.relations.contains relation

def count (store : FactStore) (relation : String) : Nat :=
  (store.rows relation).length

def names (store : FactStore) : List String := store.relations.keys

/-- The number of rows of each relation, in the order of names. -/
def summary (store : FactStore) : List (String × Nat) :=
  store.relations.entries.map fun (name, rows) => (name, rows.length)

@[simp]
theorem rows_new (program relation : String) : (new program).rows relation = [] := rfl

@[simp]
theorem program_insert (store : FactStore) (relation : String) (rows : List Row) :
    (store.insert relation rows).program = store.program := rfl

theorem relation?_insert (store : FactStore) (relation other : String) (rows : List Row) :
    (store.insert relation rows).relation? other =
      if other = relation then some (store.rows relation ++ rows) else store.relation? other := by
  simp [relation?, insert, OrderedMap.alter, OrderedMap.get?_insert, FactStore.rows]

@[simp]
theorem rows_insert (store : FactStore) (relation other : String) (rows : List Row) :
    (store.insert relation rows).rows other =
      store.rows other ++ if other = relation then rows else [] := by
  rw [FactStore.rows, relation?_insert]
  split
  · next h => simp [h]
  · simp [FactStore.rows]

/-- Stores of one program with the same relations are equal. -/
theorem ext_relation? {s t : FactStore} (hprogram : s.program = t.program)
    (h : ∀ name, s.relation? name = t.relation? name) : s = t := by
  cases s
  cases t
  cases hprogram
  congr
  exact OrderedMap.ext_get? h

end FactStore

end BinaryFacts
