import BinaryFacts.Text.Quoted
import BinaryFacts.Analysis.Pass

/-!
# Pass pipelines

Passes that run in order on one binary. Each one gets the result of the pass that it depends on, or
of the pass just before it. Dependencies are checked before anything runs, and the first stage that
fails ends the run.
-/

namespace BinaryFacts

/-- How far a pass has come in the last run. -/
inductive PassState where
  | pending
  | loaded
  | transformed
  | done
deriving DecidableEq, Inhabited

def PassState.name : PassState → String
  | pending => "Pending"
  | loaded => "Loaded"
  | transformed => "Transformed"
  | done => "Done"

inductive PassStage where
  | load
  | transform
deriving DecidableEq, Inhabited

namespace PassStage

def name : PassStage → String
  | load => "Load"
  | transform => "Transform"

def display : PassStage → String
  | load => "load"
  | transform => "transform"

end PassStage

inductive PipelineError where
  | missingDependency (pass dependency : String)
  | stageFailed (pass : String) (stage : PassStage) (source : PassError)
deriving DecidableEq

def PipelineError.message : PipelineError → String
  | missingDependency pass dependency =>
    "pass '" ++ pass ++ "' depends on '" ++ dependency ++ "', which does not run before it"
  | stageFailed pass stage source =>
    "pass '" ++ pass ++ "' failed during " ++ stage.display ++ ": " ++ source.message

structure PassReport where
  name : String
  ruleset : String
  state : PassState
  result : PassResult
deriving DecidableEq, Inhabited

/-- What a successful run reports. -/
structure PipelineReport where
  pipeline : String
  passes : List PassReport
deriving DecidableEq, Inhabited

namespace PipelineReport

/-- The first result of a pass. -/
def result? (report : PipelineReport) (pass : String) : Option PassResult :=
  (report.passes.find? (·.name == pass)).map (·.result)

/-- All warnings, each with its pass. -/
def warnings (report : PipelineReport) : List (String × String) :=
  report.passes.flatMap fun pass => pass.result.warnings.map fun text => (pass.name, text)

end PipelineReport

namespace AnalysisPass

/-- The result that a pass gets, from the reports of the passes before it. -/
def previous? (pass : AnalysisPass) (reports : List PassReport) : Option PassResult :=
  match pass.dependency with
  | some dependency => (reports.find? (·.name == dependency)).map (·.result)
  | none => reports.getLast?.map (·.result)

/-- The first pass whose dependency is not among the names before it. -/
def missing? (earlier : List String) : List AnalysisPass → Option PipelineError
  | [] => none
  | pass :: rest =>
    match pass.dependency with
    | some dependency =>
      if dependency ∈ earlier then missing? (earlier ++ [pass.name]) rest
      else some (.missingDependency pass.name dependency)
    | none => missing? (earlier ++ [pass.name]) rest

end AnalysisPass

/-- The state of a binary and of some passes after they ran, or the stage that failed. -/
structure PipelineRun where
  states : List PassState
  binary : Binary
  outcome : Except PipelineError (List PassReport)

namespace PipelineRun

/-- A run that ends here, with `rest` passes left as they are. -/
def failed (state : PassState) (rest : List AnalysisPass) (binary : Binary)
    (error : PipelineError) : PipelineRun :=
  { states := state :: rest.map fun _ => .pending, binary, outcome := .error error }

/-- Puts a pass that is done in front of a run. -/
def afterDone (run : PipelineRun) : PipelineRun := { run with states := .done :: run.states }

end PipelineRun

namespace AnalysisPass

def runLoad (pass : AnalysisPass) (context : AnalysisContext) (binary : Binary)
    (previous : Option PassResult) : Except PassError PassResult :=
  match pass.load with
  | some stage => stage context binary previous { pass := pass.name }
  | none => .ok { pass := pass.name }

def runTransform (pass : AnalysisPass) (context : AnalysisContext) (result : PassResult) :
    EStateM PassError Binary PassResult :=
  match pass.transform with
  | some stage => stage context result
  | none => pure result

def report (pass : AnalysisPass) (result : PassResult) : PassReport :=
  { name := pass.name, ruleset := pass.ruleset, state := .done, result }

/-- Runs passes in order, after those that made `reports`. -/
def runAll (context : AnalysisContext) (reports : List PassReport) (binary : Binary) :
    List AnalysisPass → PipelineRun
  | [] => { states := [], binary, outcome := .ok reports }
  | pass :: rest =>
    match pass.runLoad context binary (pass.previous? reports) with
    | .error error => .failed .pending rest binary (.stageFailed pass.name .load error)
    | .ok result =>
      match pass.runTransform context result binary with
      | .error error binary =>
        .failed .loaded rest binary (.stageFailed pass.name .transform error)
      | .ok result binary =>
        (runAll context (reports ++ [pass.report result]) binary rest).afterDone

end AnalysisPass

structure PassPipeline where
  name : String
  /-- The passes with the states that the last run left them in. -/
  entries : List (AnalysisPass × PassState) := []

namespace PassPipeline

def passes (pipeline : PassPipeline) : List AnalysisPass := pipeline.entries.map Prod.fst

def size (pipeline : PassPipeline) : Nat := pipeline.entries.length

def add (pipeline : PassPipeline) (pass : AnalysisPass) : PassPipeline :=
  { pipeline with entries := pipeline.entries ++ [(pass, .pending)] }

def states (pipeline : PassPipeline) : List (String × PassState) :=
  pipeline.entries.map fun (pass, state) => (pass.name, state)

/-- The first dependency that no earlier pass meets. -/
def validate (pipeline : PassPipeline) : Option PipelineError :=
  AnalysisPass.missing? [] pipeline.passes

/-- Gives the passes the states of a run. -/
def withStates (pipeline : PassPipeline) (states : List PassState) : PassPipeline :=
  { pipeline with entries := pipeline.passes.zip states }

/-- Runs all passes on a binary. -/
def run (pipeline : PassPipeline) (context : AnalysisContext) (binary : Binary) :
    PassPipeline × Binary × Except PipelineError PipelineReport :=
  match pipeline.validate with
  | some error =>
    (pipeline.withStates (pipeline.passes.map fun _ => .pending), binary, .error error)
  | none =>
    let run := AnalysisPass.runAll context [] binary pipeline.passes
    (pipeline.withStates run.states, run.binary,
      run.outcome.map fun passes => { pipeline := pipeline.name, passes })

/-- The display of a pipeline: its name, and its passes with their states. -/
def display (pipeline : PassPipeline) : String :=
  let entries := pipeline.states.map fun (name, state) =>
    "(" ++ Text.quoted name ++ ", " ++ state.name ++ ")"
  "PassPipeline \x7b name: " ++ Text.quoted pipeline.name ++ ", passes: [" ++
    String.intercalate ", " entries ++ "] \x7d"

end PassPipeline

theorem AnalysisPass.length_states_runAll (context : AnalysisContext) (reports : List PassReport)
    (binary : Binary) (passes : List AnalysisPass) :
    (runAll context reports binary passes).states.length = passes.length := by
  induction passes generalizing reports binary with
  | nil => rfl
  | cons pass rest ih =>
    rw [runAll]
    split
    · simp [PipelineRun.failed]
    · split
      · simp [PipelineRun.failed]
      · simp [PipelineRun.afterDone, ih]

/-- No run changes the passes of a pipeline. -/
theorem PassPipeline.passes_run (pipeline : PassPipeline) (context : AnalysisContext)
    (binary : Binary) : (pipeline.run context binary).1.passes = pipeline.passes := by
  unfold run
  split
  · simp [withStates, passes, List.map_fst_zip]
  · simp [withStates, passes, List.map_fst_zip, AnalysisPass.length_states_runAll]

end BinaryFacts
