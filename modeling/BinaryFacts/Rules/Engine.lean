import BinaryFacts.Fact.Store

/-!
# Rule engines

An engine hands out an empty store for a program that it knows, and evaluates a store's program by
appending derived relations. A run that fails keeps what it had appended.
-/

namespace BinaryFacts

inductive EngineError where
  | unknownProgram (name : String)
  | evaluation (program reason : String)
deriving DecidableEq

def EngineError.message : EngineError → String
  | unknownProgram name => "no rule program registered under '" ++ name ++ "'"
  | evaluation program reason => "rule program '" ++ program ++ "' failed: " ++ reason

/-- The evaluation of a program on its store. -/
abbrev Rules := EStateM EngineError FactStore Unit

structure RuleEngine where
  instantiate? : String → Option FactStore
  run : Rules

/-- Programs by name. -/
structure RuleBook where
  programs : OrderedMap String Rules := .empty

namespace RuleBook

def empty : RuleBook := {}

/-- Puts a program under a name in place of one that is there. -/
def register (book : RuleBook) (name : String) (rules : Rules) : RuleBook :=
  { book with programs := book.programs.insert name rules }

/-- Registers a program that derives nothing. -/
def registerEmpty (book : RuleBook) (name : String) : RuleBook := book.register name (pure ())

def names (book : RuleBook) : List String := book.programs.keys

def instantiate? (book : RuleBook) (name : String) : Option FactStore :=
  if book.programs.contains name then some (.new name) else none

def run (book : RuleBook) : Rules := do
  let store ← get
  match book.programs.get? store.program with
  | some rules => rules
  | none => throw (.unknownProgram store.program)

/-- The engine that knows the programs of the book. -/
def engine (book : RuleBook) : RuleEngine :=
  { instantiate? := book.instantiate?, run := book.run }

theorem run_engine (book : RuleBook) (store : FactStore) :
    book.engine.run store = (book.programs.get? store.program).elim
      (throw (.unknownProgram store.program) : Rules) id store := by
  have hget : ∀ rules : FactStore → Rules,
      EStateM.bind EStateM.get rules store = rules store store := fun _ => rfl
  change book.run store = _
  unfold run
  refine (hget _).trans ?_
  cases book.programs.get? store.program <;> rfl

end RuleBook

end BinaryFacts
