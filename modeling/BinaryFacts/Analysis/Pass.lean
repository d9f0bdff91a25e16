import BinaryFacts.Target.Registry

/-!
# Analysis passes

A pass may load facts and run a rule program on them, and may then transform the binary by what the
program derived. A transform that fails keeps the changes it had made.
-/

namespace BinaryFacts

/-- Why a stage of a pass fails. -/
inductive PassError where
  | target (error : TargetError)
  | engineInstantiationFailed (program : String)
  | engine (error : EngineError)
  | malformedRelation (relation reason : String)
  | missingPrevious (pass : String)
deriving DecidableEq

def PassError.message : PassError → String
  | target error => error.message
  | engineInstantiationFailed program =>
    "rule program '" ++ program ++ "' could not be instantiated"
  | engine error => error.message
  | malformedRelation relation reason => "malformed relation " ++ relation ++ ": " ++ reason
  | missingPrevious pass => "no result from '" ++ pass ++ "' was provided"

/-- What passes work with. -/
structure AnalysisContext where
  disassemble : Disassembler
  engine : RuleEngine
  targets : TargetRegistry

/-- What a pass hands to later passes. -/
structure PassResult where
  pass : String
  /-- The submitted facts and the relations derived from them. -/
  facts : Option FactStore := none
  warnings : List String := []
deriving DecidableEq, Inhabited

namespace PassResult

def rows (result : PassResult) (relation : String) : List Row :=
  match result.facts with
  | some store => store.rows relation
  | none => []

def warn (result : PassResult) (text : String) : PassResult :=
  { result with warnings := result.warnings ++ [text] }

end PassResult

/-- Fills the result of a pass from the binary and the result of an earlier pass. -/
abbrev LoadStage :=
  AnalysisContext → Binary → Option PassResult → PassResult → Except PassError PassResult

/-- Changes the binary by the result of its pass. -/
abbrev TransformStage := AnalysisContext → PassResult → EStateM PassError Binary PassResult

structure AnalysisPass where
  name : String
  /-- The rule program that the pass drives. -/
  ruleset : String
  /-- A pass that has to run earlier. -/
  dependency : Option String := none
  load : Option LoadStage := none
  transform : Option TransformStage := none

namespace AnalysisPass

def instantiate (context : AnalysisContext) (program : String) : Except PassError FactStore :=
  match context.engine.instantiate? program with
  | some store => .ok store
  | none => .error (.engineInstantiationFailed program)

/-- Evaluates the store's program. The facts of a failing run are lost. -/
def evaluate (context : AnalysisContext) (store : FactStore) : Except PassError FactStore :=
  match context.engine.run store with
  | .ok _ store => .ok store
  | .error error _ => .error (.engine error)

/-- Submits the blocks, the edges and the symbols with an address. -/
def submitGraph (binary : Binary) (store : FactStore) : FactStore :=
  store
    |>.insert "block" (binary.codeBlocks.values.map fun block =>
        [.unsigned block.address, .unsigned block.size])
    |>.insert "cfg_edge" (binary.flowEdges.map fun edge =>
        [.unsigned edge.source, .unsigned edge.target, .symbol edge.kind])
    |>.insert "symbol" (binary.symbols.filterMap fun symbol =>
        symbol.address.map fun address => [.unsigned address, .symbol symbol.name])

/-! ### Reading derived rows -/

def malformed {α : Type} (relation reason : String) : Except PassError α :=
  .error (.malformedRelation relation reason)

def expectArity (relation : String) (row : Row) (arity : Nat) : Except PassError Unit :=
  if row.length = arity then .ok ()
  else malformed relation ("expected " ++ Text.decimal arity ++ " columns, found " ++
    Text.decimal row.length)

def addressAt (relation : String) (row : Row) (column : Nat) : Except PassError UInt64 :=
  match row[column]?.bind Value.unsigned? with
  | some address => .ok address
  | none => malformed relation ("column " ++ Text.decimal column ++ " is not an address")

def symbolAt (relation : String) (row : Row) (column : Nat) : Except PassError String :=
  match row[column]?.bind Value.symbol? with
  | some name => .ok name
  | none => malformed relation ("column " ++ Text.decimal column ++ " is not a symbol")

/-- A row of one address. -/
def readAddress (relation : String) (row : Row) : Except PassError UInt64 := do
  expectArity relation row 1
  addressAt relation row 0

/-- A row of two addresses. -/
def readPair (relation : String) (row : Row) : Except PassError (UInt64 × UInt64) := do
  expectArity relation row 2
  return (← addressAt relation row 0, ← addressAt relation row 1)

/-- A row of an address and a name. -/
def readSymbol (relation : String) (row : Row) : Except PassError (UInt64 × String) := do
  expectArity relation row 2
  return (← addressAt relation row 0, ← symbolAt relation row 1)

/-- A row of two addresses and the kind of the edge between them. -/
def readEdge (relation : String) (row : Row) : Except PassError FlowEdge := do
  expectArity relation row 3
  return {
    source := ← addressAt relation row 0
    target := ← addressAt relation row 1
    kind := ← symbolAt relation row 2 }

end AnalysisPass

end BinaryFacts
