import BinaryFacts.Text.Quoted
import BinaryFacts.Binary.Basic
import BinaryFacts.Rules.Engine

/-!
# Loaders

A loader appends relations of a binary to a store. A composite loader runs several in order, and is
a loader again, so that composites nest.
-/

namespace BinaryFacts

abbrev Loader := Binary → FactStore → FactStore

structure CompositeLoader where
  /-- The rule program that the facts are for. -/
  name : String
  loaders : List Loader := []

namespace CompositeLoader

def populate (composite : CompositeLoader) : Loader := fun binary store =>
  composite.loaders.foldl (fun store loader => loader binary store) store

/-- Populates a fresh store of the composite's own program, if the engine knows it. -/
def load? (composite : CompositeLoader) (engine : RuleEngine) (binary : Binary) :
    Option FactStore :=
  (engine.instantiate? composite.name).map (composite.populate binary)

/-- The display of a composite: its name and the number of its loaders. -/
def display (composite : CompositeLoader) : String :=
  "CompositeLoader \x7b name: " ++ Text.quoted composite.name ++ ", loaders: " ++
    Text.decimal composite.loaders.length ++ " \x7d"

@[simp]
theorem populate_nil (name : String) (binary : Binary) (store : FactStore) :
    (CompositeLoader.mk name []).populate binary store = store := rfl

@[simp]
theorem populate_cons (name : String) (loader : Loader) (loaders : List Loader) (binary : Binary)
    (store : FactStore) :
    (CompositeLoader.mk name (loader :: loaders)).populate binary store =
      (CompositeLoader.mk name loaders).populate binary (loader binary store) := rfl

end CompositeLoader

end BinaryFacts
