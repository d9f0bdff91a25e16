import BinaryFacts.Analysis.Pass

/-!
# The built-in passes

Disassembly derives blocks, edges and symbols. No-return analysis cuts the edges behind calls that
never return. Function inference groups blocks into functions.
-/

namespace BinaryFacts.AnalysisPass

/-! ### Disassembly -/

/-- Extracts the binary's facts with the loaders of its target and evaluates their program. -/
def loadDisassembly : LoadStage := fun context binary _ result => do
  let pipeline ← (context.targets.pipeline context.disassemble binary.descriptor).mapError .target
  match pipeline.load? context.engine binary with
  | none => .error (.engineInstantiationFailed pipeline.name)
  | some store =>
    let result :=
      if store.count "instruction" = 0 then
        result.warn ("no instructions decoded for " ++ binary.name)
      else result
    let store ← evaluate context store
    return { result with facts := some store }

structure Disassembled where
  blocks : List (UInt64 × UInt64)
  edges : List FlowEdge
  symbols : List (UInt64 × String)
deriving DecidableEq

/-- Reads all derived rows, relation by relation. -/
def Disassembled.ofResult (result : PassResult) : Except PassError Disassembled := do
  let blocks ← (result.rows "block_information").mapM (readPair "block_information")
  let edges ← (result.rows "cfg_edge").mapM (readEdge "cfg_edge")
  let symbols ← (result.rows "inferred_symbol").mapM (readSymbol "inferred_symbol")
  return { blocks, edges, symbols }

def Disassembled.apply (found : Disassembled) (binary : Binary) : Binary :=
  let binary := found.blocks.foldl (fun b (address, size) => b.addCodeBlock address size) binary
  let binary := found.edges.foldl Binary.addFlowEdge binary
  found.symbols.foldl (fun b (address, name) => b.addSymbol (.function name address)) binary

/-- Changes the binary once all rows have been read. -/
def transformDisassembly : TransformStage := fun _ result => do
  match Disassembled.ofResult result with
  | .error error => throw error
  | .ok found =>
    modify found.apply
    return result

def disassembly : AnalysisPass :=
  { name := "disassembly"
    ruleset := "disasm"
    load := some loadDisassembly
    transform := some transformDisassembly }

/-! ### No-return analysis -/

def noReturnRuleset : String := "no_return_analysis"

def loadNoReturn : LoadStage := fun context binary _ result => do
  let store ← instantiate context noReturnRuleset
  let store ← evaluate context (submitGraph binary store)
  return { result with facts := some store }

/-- Cuts edges row by row, up to the first row that cannot be read. -/
def cutRows : List Row → EStateM PassError Binary Unit
  | [] => return ()
  | row :: rows => do
    match readAddress "no_return_call" row with
    | .error error => throw error
    | .ok block =>
      modify fun binary => (binary.cutFallthrough block).2
      cutRows rows

def transformNoReturn : TransformStage := fun _ result => do
  cutRows (result.rows "no_return_call")
  return result

def noReturn : AnalysisPass :=
  { name := "no return analysis"
    ruleset := noReturnRuleset
    dependency := some "disassembly"
    load := some loadNoReturn
    transform := some transformNoReturn }

/-! ### Function inference -/

def functionRuleset : String := "function_inference"

def submitEntryPoint (binary : Binary) (store : FactStore) : FactStore :=
  match binary.entryPoint with
  | some entry => store.insertRow "entry_point" [.unsigned entry]
  | none => store

/-- Submits the graph, the entry point and the calls that an earlier pass found not to return. -/
def loadFunctions : LoadStage := fun context binary previous result => do
  match previous with
  | none => .error (.missingPrevious "no return analysis")
  | some previous =>
    let store ← instantiate context functionRuleset
    let store := submitEntryPoint binary (submitGraph binary store)
    let store ← evaluate context
      (store.insert "no_return_call" (previous.rows "no_return_call"))
    return { result with facts := some store }

structure InferredFunctions where
  entries : List UInt64
  /-- Blocks with the entries of their functions. -/
  members : List (UInt64 × UInt64)
deriving DecidableEq

def InferredFunctions.ofResult (result : PassResult) : Except PassError InferredFunctions := do
  let entries ← (result.rows "function_entry").mapM (readAddress "function_entry")
  let members ← (result.rows "in_function").mapM (readPair "in_function")
  return { entries, members }

/-- Adds a function, and a symbol for its entry unless there is one. -/
def enterFunction (binary : Binary) (entry : UInt64) : Binary :=
  let binary := binary.addFunction entry
  if (binary.symbolAt? entry).isSome then binary
  else binary.addSymbol (.function ("FUN_" ++ Text.hexadecimal entry.toNat) entry)

def InferredFunctions.apply (found : InferredFunctions) (binary : Binary) : Binary :=
  let binary := found.entries.foldl enterFunction binary
  found.members.foldl (fun b (block, entry) => b.assignBlock entry block) binary

def transformFunctions : TransformStage := fun _ result => do
  match InferredFunctions.ofResult result with
  | .error error => throw error
  | .ok found =>
    modify found.apply
    return result

def functionInference : AnalysisPass :=
  { name := "function inference"
    ruleset := functionRuleset
    dependency := some "no return analysis"
    load := some loadFunctions
    transform := some transformFunctions }

/-- The built-in passes in the order of their dependencies. -/
def builtin : List AnalysisPass := [disassembly, noReturn, functionInference]

def ofName? (name : String) : Option AnalysisPass := builtin.find? (·.name == name)

end BinaryFacts.AnalysisPass
