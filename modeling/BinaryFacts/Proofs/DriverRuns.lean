import BinaryFacts.Proofs.FailingRuns
import Mathlib.Data.List.Basic
import Mathlib.Data.List.Induction

/-!
# Runs of a pipeline, call by call

A run as the calls of stages that it makes: what each stage is given and what it answers, from which
the next call and the end of the run follow. A run calls the stages of its passes in order, up to
the first that fails, and calls none if a dependency is missing. The states that it leaves follow
from where it ends, whatever was added to the pipeline and run before.
-/

namespace BinaryFacts

/-- A call of a stage: the place of its pass, what the stage was given, and its answer. -/
inductive StageCall where
  | load (position : Nat) (binary : Binary) (previous : Option PassResult)
      (answer : Except PassError PassResult)
  | transform (position : Nat) (result : PassResult) (binary : Binary)
      (answer : EStateM.Result PassError Binary PassResult)

namespace StageCall

/-- The place of the pass and the stage of it that is called. -/
def target : StageCall → Nat × PassStage
  | load position .. => (position, .load)
  | transform position .. => (position, .transform)

def loadFailure? : Except PassError PassResult → Option PassError
  | .ok _ => none
  | .error error => some error

def transformFailure? : EStateM.Result PassError Binary PassResult → Option PassError
  | .ok .. => none
  | .error error _ => some error

def error? : StageCall → Option PassError
  | load _ _ _ answer => loadFailure? answer
  | transform _ _ _ answer => transformFailure? answer

end StageCall

/-- The state that a pass is left in when a stage of it fails. -/
def PassStage.leaves : PassStage → PassState
  | load => .pending
  | transform => .loaded

namespace AnalysisPass

/-! ### Calls -/

section

variable (context : AnalysisContext) (position : Nat) (pass : AnalysisPass)

/-- The call of the load stage of a pass and its answer. Without such a stage the result is that of
a pass that has found nothing. -/
inductive Loads (binary : Binary) (previous : Option PassResult) :
    List StageCall → Except PassError PassResult → Prop
  | absent (habsent : pass.load = none) : Loads binary previous [] (.ok { pass := pass.name })
  | called {stage : LoadStage} {answer : Except PassError PassResult}
      (hstage : pass.load = some stage)
      (hanswer : stage context binary previous { pass := pass.name } = answer) :
      Loads binary previous [.load position binary previous answer] answer

/-- The call of the transform stage of a pass on the result that it has loaded, and its answer. -/
inductive Transforms (result : PassResult) (binary : Binary) :
    List StageCall → EStateM.Result PassError Binary PassResult → Prop
  | absent (habsent : pass.transform = none) : Transforms result binary [] (.ok result binary)
  | called {stage : TransformStage} {answer : EStateM.Result PassError Binary PassResult}
      (hstage : pass.transform = some stage) (hanswer : stage context result binary = answer) :
      Transforms result binary [.transform position result binary answer] answer

end

/-- The calls of passes that run one behind the other, and how the run ends. A stage that fails is
the last one to be called. A pass that is done hands its result and the binary to the next one. -/
inductive Runs (context : AnalysisContext) :
    Nat → List PassReport → Binary → List AnalysisPass → List StageCall → PipelineRun → Prop
  | ended (position : Nat) (reports : List PassReport) (binary : Binary) :
      Runs context position reports binary [] []
        { states := [], binary, outcome := .ok reports }
  | loadFailed {position : Nat} {reports : List PassReport} {binary : Binary}
      {pass : AnalysisPass} {loading : List StageCall} {source : PassError}
      (hload : Loads context position pass binary (pass.previous? reports) loading (.error source))
      (later : List AnalysisPass) :
      Runs context position reports binary (pass :: later) loading
        { states := .pending :: later.map fun _ => .pending
          binary, outcome := .error (.stageFailed pass.name .load source) }
  | transformFailed {position : Nat} {reports : List PassReport} {binary left : Binary}
      {pass : AnalysisPass} {loading transforming : List StageCall} {result : PassResult}
      {source : PassError}
      (hload : Loads context position pass binary (pass.previous? reports) loading (.ok result))
      (htransform : Transforms context position pass result binary transforming
        (.error source left)) (later : List AnalysisPass) :
      Runs context position reports binary (pass :: later) (loading ++ transforming)
        { states := .loaded :: later.map fun _ => .pending
          binary := left, outcome := .error (.stageFailed pass.name .transform source) }
  | passed {position : Nat} {reports : List PassReport} {binary changed : Binary}
      {pass : AnalysisPass} {later : List AnalysisPass}
      {loading transforming calls : List StageCall} {result final : PassResult} {run : PipelineRun}
      (hload : Loads context position pass binary (pass.previous? reports) loading (.ok result))
      (htransform : Transforms context position pass result binary transforming
        (.ok final changed))
      (hlater : Runs context (position + 1)
        (reports ++ [⟨pass.name, pass.ruleset, .done, final⟩]) changed later calls run) :
      Runs context position reports binary (pass :: later) (loading ++ transforming ++ calls)
        { run with states := .done :: run.states }

variable {context : AnalysisContext} {position : Nat} {pass : AnalysisPass} {binary : Binary}
  {previous : Option PassResult} {result : PassResult} {calls : List StageCall}

lemma exists_loads (context : AnalysisContext) (position : Nat) (pass : AnalysisPass)
    (binary : Binary) (previous : Option PassResult) :
    ∃ calls, Loads context position pass binary previous calls
      (pass.runLoad context binary previous) := by
  unfold runLoad
  cases hstage : pass.load with
  | none => exact ⟨[], .absent hstage⟩
  | some stage => exact ⟨_, .called hstage rfl⟩

lemma exists_transforms (context : AnalysisContext) (position : Nat) (pass : AnalysisPass)
    (result : PassResult) (binary : Binary) :
    ∃ calls, Transforms context position pass result binary calls
      (pass.runTransform context result binary) := by
  unfold runTransform
  cases hstage : pass.transform with
  | none => exact ⟨[], .absent hstage⟩
  | some stage => exact ⟨_, .called hstage rfl⟩

/-- The run of passes is made of calls of their stages. -/
lemma exists_runs (context : AnalysisContext) (position : Nat) (reports : List PassReport)
    (binary : Binary) (passes : List AnalysisPass) :
    ∃ calls, Runs context position reports binary passes calls
      (runAll context reports binary passes) := by
  induction passes generalizing position reports binary with
  | nil => exact ⟨[], .ended position reports binary⟩
  | cons pass rest ih =>
    obtain ⟨loading, hload⟩ := exists_loads context position pass binary (pass.previous? reports)
    rw [runAll]
    generalize pass.runLoad context binary (pass.previous? reports) = answer at hload
    cases answer with
    | error source => exact ⟨loading, .loadFailed hload rest⟩
    | ok result =>
      obtain ⟨transforming, htransform⟩ := exists_transforms context position pass result binary
      dsimp only
      generalize pass.runTransform context result binary = answer at htransform
      cases answer with
      | error source left => exact ⟨_, .transformFailed hload htransform rest⟩
      | ok final changed =>
        obtain ⟨calls, hlater⟩ := ih (position + 1) (reports ++ [pass.report final]) changed
        exact ⟨_, .passed hload htransform hlater⟩

/-! ### Order -/

def has (pass : AnalysisPass) : PassStage → Bool
  | .load => pass.load.isSome
  | .transform => pass.transform.isSome

def stageTargets (pass : AnalysisPass) (position : Nat) (stage : PassStage) :
    List (Nat × PassStage) :=
  if pass.has stage then [(position, stage)] else []

/-- The stages of passes, the first of them at a place, in the order of registration. -/
def planned (position : Nat) : List AnalysisPass → List (Nat × PassStage)
  | [] => []
  | pass :: rest =>
    pass.stageTargets position .load ++ pass.stageTargets position .transform ++
      planned (position + 1) rest

/-- What calls are made of a stage that a pass may have, given whether it fails. -/
structure CallsStage (pass : AnalysisPass) (position : Nat) (stage : PassStage)
    (calls : List StageCall) (failure : Option PassError) : Prop where
  targets : calls.map StageCall.target = pass.stageTargets position stage
  succeeded : failure = none → ∀ call ∈ calls, call.error? = none
  failed : ∀ source, failure = some source →
    ∃ call, calls = [call] ∧ call.target = (position, stage) ∧ call.error? = some source

lemma Loads.callsStage {answer : Except PassError PassResult}
    (h : Loads context position pass binary previous calls answer) :
    CallsStage pass position .load calls (StageCall.loadFailure? answer) := by
  cases h with
  | absent habsent =>
    refine ⟨?_, fun _ => List.forall_mem_nil _, nofun⟩
    rw [stageTargets, has, habsent]
    rfl
  | called hstage hanswer =>
    have htargets : pass.stageTargets position .load = [(position, .load)] := by
      rw [stageTargets, has, hstage]
      rfl
    cases answer with
    | ok result => exact ⟨htargets.symm, fun _ => List.forall_mem_singleton.mpr rfl, nofun⟩
    | error source =>
      refine ⟨htargets.symm, nofun, fun source' h => ⟨_, rfl, rfl, h⟩⟩

lemma Transforms.callsStage {answer : EStateM.Result PassError Binary PassResult}
    (h : Transforms context position pass result binary calls answer) :
    CallsStage pass position .transform calls (StageCall.transformFailure? answer) := by
  cases h with
  | absent habsent =>
    refine ⟨?_, fun _ => List.forall_mem_nil _, nofun⟩
    rw [stageTargets, has, habsent]
    rfl
  | called hstage hanswer =>
    have htargets : pass.stageTargets position .transform = [(position, .transform)] := by
      rw [stageTargets, has, hstage]
      rfl
    cases answer with
    | ok final changed => exact ⟨htargets.symm, fun _ => List.forall_mem_singleton.mpr rfl, nofun⟩
    | error source left =>
      refine ⟨htargets.symm, nofun, fun source' h => ⟨_, rfl, rfl, h⟩⟩

/-- How a run of passes ends, the first of them at a place and behind the reports: all their stages
were called and succeeded, or those up to one that failed. -/
inductive EndsInOrder (position : Nat) (reports : List PassReport) (passes : List AnalysisPass) :
    List StageCall → PipelineRun → Prop where
  | succeeded {calls : List StageCall} {made : List PassReport} {left : Binary}
      (hplanned : calls.map StageCall.target = planned position passes)
      (hcalls : ∀ call ∈ calls, call.error? = none)
      (hmade : made.map (fun report => (report.name, report.ruleset, report.state)) =
        passes.map fun pass => (pass.name, pass.ruleset, .done)) :
      EndsInOrder position reports passes calls
        { states := passes.map fun _ => .done, binary := left, outcome := .ok (reports ++ made) }
  | failed (earlier : List AnalysisPass) {before : List StageCall} {pass : AnalysisPass}
      {later : List AnalysisPass} {last : StageCall} {stage : PassStage} {source : PassError}
      {left : Binary} (hpasses : passes = earlier ++ pass :: later)
      (hbefore : ∀ call ∈ before, call.error? = none) (hlast : last.error? = some source)
      (htarget : last.target = (position + earlier.length, stage))
      (hplanned : (before ++ [last]).map StageCall.target <+: planned position passes) :
      EndsInOrder position reports passes (before ++ [last])
        { states := earlier.map (fun _ => .done) ++ stage.leaves :: later.map fun _ => .pending
          binary := left, outcome := .error (.stageFailed pass.name stage source) }

/-- A pass that is done comes before passes that end in order behind it. -/
lemma EndsInOrder.afterDone {reports : List PassReport} {rest : List AnalysisPass}
    {loading transforming : List StageCall} {run : PipelineRun}
    (hloading : CallsStage pass position .load loading none)
    (htransforming : CallsStage pass position .transform transforming none)
    (h : EndsInOrder (position + 1) (reports ++ [⟨pass.name, pass.ruleset, .done, result⟩]) rest
      calls run) :
    EndsInOrder position reports (pass :: rest) (loading ++ transforming ++ calls)
      { run with states := .done :: run.states } := by
  have hdone : ∀ call ∈ loading ++ transforming, call.error? = none :=
    List.forall_mem_append.mpr ⟨hloading.succeeded rfl, htransforming.succeeded rfl⟩
  cases h with
  | @succeeded _ made left hplanned hcalls hmade =>
    rw [List.append_assoc reports]
    refine .succeeded ?_ (List.forall_mem_append.mpr ⟨hdone, hcalls⟩) (congrArg (_ :: ·) hmade)
    rw [planned, List.map_append, List.map_append, hloading.targets, htransforming.targets,
      hplanned]
  | @failed earlier before failing later last stage source left hpasses hbefore hlast htarget
      hplanned =>
    rw [← List.append_assoc]
    refine .failed (pass :: earlier) (congrArg (pass :: ·) hpasses)
      (List.forall_mem_append.mpr ⟨hdone, hbefore⟩) hlast ?_ ?_
    · rw [htarget, List.length_cons, Nat.add_assoc, Nat.add_comm 1]
    · rw [planned, List.append_assoc _ before, List.map_append, List.map_append, hloading.targets,
        htransforming.targets]
      exact (List.prefix_append_right_inj _).mpr hplanned

lemma Runs.endsInOrder {reports : List PassReport} {passes : List AnalysisPass}
    {run : PipelineRun} (h : Runs context position reports binary passes calls run) :
    EndsInOrder position reports passes calls run := by
  induction h with
  | ended position reports binary =>
    have hends : EndsInOrder position reports [] []
        { states := [], binary, outcome := .ok (reports ++ []) } :=
      .succeeded rfl (List.forall_mem_nil _) rfl
    rwa [List.append_nil] at hends
  | @loadFailed position reports binary pass loading source hload later =>
    obtain ⟨htargets, -, hfailed⟩ := hload.callsStage
    obtain ⟨call, rfl, htarget, herror⟩ := hfailed _ rfl
    have hplanned : [call.target] <+: planned position (pass :: later) := by
      rw [planned, List.append_assoc, ← htargets]
      exact List.prefix_append _ _
    exact @EndsInOrder.failed position reports _ [] [] pass later call _ _ _ rfl
      (List.forall_mem_nil _) herror htarget hplanned
  | @transformFailed position reports binary left pass loading transforming result source hload
      htransform later =>
    obtain ⟨htargets, hsucceeded, -⟩ := hload.callsStage
    obtain ⟨htargets', -, hfailed⟩ := htransform.callsStage
    obtain ⟨call, rfl, htarget, herror⟩ := hfailed _ rfl
    have hplanned : (loading ++ [call]).map StageCall.target <+:
        planned position (pass :: later) := by
      rw [planned, ← htargets, ← htargets', ← List.map_append]
      exact List.prefix_append _ _
    exact .failed [] rfl (hsucceeded rfl) herror htarget hplanned
  | passed hload htransform hlater ih => exact ih.afterDone hload.callsStage htransform.callsStage

/-! ### Dependencies -/

/-- Whether every pass comes behind the pass that it depends on, if it declares one. -/
def DependenciesMet (passes : List AnalysisPass) : Prop :=
  ∀ earlier pass later, passes = earlier ++ pass :: later →
    ∀ dependency, pass.dependency = some dependency → ∃ met ∈ earlier, met.name = dependency

/-- The first pass whose dependency does not come before it. -/
def FirstUnmet (passes : List AnalysisPass) (pass : AnalysisPass) (dependency : String) : Prop :=
  ∃ earlier later, passes = earlier ++ pass :: later ∧ DependenciesMet earlier ∧
    pass.dependency = some dependency ∧ ∀ other ∈ earlier, other.name ≠ dependency

lemma dependenciesMet_nil : DependenciesMet [] := by
  intro earlier pass later hsplit
  cases earlier <;> cases hsplit

lemma DependenciesMet.append_singleton {earlier : List AnalysisPass} {pass : AnalysisPass}
    (h : DependenciesMet earlier)
    (hpass : ∀ dependency, pass.dependency = some dependency →
      ∃ met ∈ earlier, met.name = dependency) : DependenciesMet (earlier ++ [pass]) := by
  intro before other later hsplit
  rcases List.eq_nil_or_concat' later with rfl | ⟨later, last, rfl⟩
  · obtain ⟨rfl, hlast⟩ := List.append_inj' hsplit rfl
    cases hlast
    exact hpass
  · rw [← List.cons_append, ← List.append_assoc] at hsplit
    obtain ⟨hbefore, -⟩ := List.append_inj' hsplit rfl
    exact h before other later hbefore

/-- Dependencies are looked up among the names of the passes seen so far. -/
lemma missing?_map_name (seen rest : List AnalysisPass) (hseen : DependenciesMet seen) :
    (missing? (seen.map (·.name)) rest = none ∧ DependenciesMet (seen ++ rest)) ∨
      ∃ pass dependency, FirstUnmet (seen ++ rest) pass dependency ∧
        missing? (seen.map (·.name)) rest = some (.missingDependency pass.name dependency) := by
  induction rest generalizing seen with
  | nil =>
    rw [List.append_nil]
    exact .inl ⟨rfl, hseen⟩
  | cons pass rest ih =>
    have hlater := ih (seen ++ [pass])
    rw [List.append_assoc, List.singleton_append, List.map_append, List.map_singleton] at hlater
    rw [missing?]
    cases hdependency : pass.dependency with
    | none =>
      apply hlater
      apply hseen.append_singleton
      intro dependency h
      rw [hdependency] at h
      cases h
    | some dependency =>
      dsimp only
      by_cases hmet : dependency ∈ seen.map (·.name)
      · rw [if_pos hmet]
        apply hlater
        apply hseen.append_singleton
        intro other h
        rw [hdependency] at h
        cases h
        exact List.mem_map.mp hmet
      · rw [if_neg hmet]
        refine .inr ⟨pass, dependency, ⟨seen, rest, rfl, hseen, hdependency, ?_⟩, rfl⟩
        intro other hother hname
        exact hmet (List.mem_map.mpr ⟨other, hother, hname⟩)

end AnalysisPass

/-! ### States -/

/-- The states of passes that ran in order: some done, then at most one that was left in the middle,
then pending ones. -/
def HasRunForm (states : List PassState) : Prop :=
  ∃ done middle pending,
    states = List.replicate done .done ++ middle ++ List.replicate pending .pending ∧
      middle ∈ [[], [PassState.pending], [PassState.loaded]]

lemma HasRunForm.append_pending {states : List PassState} (h : HasRunForm states) :
    HasRunForm (states ++ [.pending]) := by
  obtain ⟨done, middle, pending, rfl, hmiddle⟩ := h
  refine ⟨done, middle, pending + 1, ?_, hmiddle⟩
  rw [List.replicate_succ', List.append_assoc]

lemma hasRunForm_pending (passes : List AnalysisPass) :
    HasRunForm (passes.map fun _ => .pending) :=
  ⟨0, [], passes.length, List.map_const' .., List.mem_cons_self⟩

lemma AnalysisPass.EndsInOrder.hasRunForm {position : Nat} {reports : List PassReport}
    {passes : List AnalysisPass} {calls : List StageCall} {run : PipelineRun}
    (h : EndsInOrder position reports passes calls run) : HasRunForm run.states := by
  cases h with
  | succeeded => exact ⟨passes.length, [], 0, by simp, List.mem_cons_self⟩
  | @failed earlier before pass later last stage =>
    refine ⟨earlier.length, [stage.leaves], later.length, by simp, ?_⟩
    cases stage <;> decide

/-! ### Calls on a pipeline -/

/-- What callers do with a pipeline. -/
inductive PipelineCall where
  | add (pass : AnalysisPass)
  | run (context : AnalysisContext) (binary : Binary)

def PipelineCall.added? : PipelineCall → Option AnalysisPass
  | add pass => some pass
  | run .. => none

namespace PassPipeline

def stateList (pipeline : PassPipeline) : List PassState := pipeline.entries.map Prod.snd

def call (pipeline : PassPipeline) : PipelineCall → PassPipeline
  | .add pass => pipeline.add pass
  | .run context binary => (pipeline.run context binary).1

/-- The pipeline that calls on a new one lead to. -/
def afterCalls (name : String) (calls : List PipelineCall) : PassPipeline :=
  calls.foldl call { name }

/-- How a run goes: no stage is called if a dependency is missing, and otherwise the passes run one
behind the other and end in order. -/
def RunsAs (pipeline : PassPipeline) (context : AnalysisContext) (binary : Binary)
    (calls : List StageCall) (run : PipelineRun) : Prop :=
  (∃ pass dependency, AnalysisPass.FirstUnmet pipeline.passes pass dependency ∧ calls = [] ∧
    run =
      { states := pipeline.passes.map fun _ => .pending
        binary
        outcome := .error (.missingDependency pass.name dependency) }) ∨
  (AnalysisPass.DependenciesMet pipeline.passes ∧
    AnalysisPass.Runs context 0 [] binary pipeline.passes calls run ∧
    AnalysisPass.EndsInOrder 0 [] pipeline.passes calls run)

/-- What a run leaves of the pipeline, and what it answers. -/
structure Leaves (pipeline : PassPipeline) (context : AnalysisContext) (binary : Binary)
    (run : PipelineRun) : Prop where
  states : (pipeline.run context binary).1.stateList = run.states
  answer : (pipeline.run context binary).2 = (run.binary,
    run.outcome.map fun passes => { pipeline := pipeline.name, passes })

lemma stateList_withStates {pipeline : PassPipeline} {states : List PassState}
    (h : states.length = pipeline.passes.length) :
    (pipeline.withStates states).stateList = states :=
  List.map_snd_zip (Nat.le_of_eq h)

lemma exists_runsAs (pipeline : PassPipeline) (context : AnalysisContext) (binary : Binary) :
    ∃ calls run, pipeline.RunsAs context binary calls run ∧
      pipeline.Leaves context binary run := by
  rcases AnalysisPass.missing?_map_name [] pipeline.passes AnalysisPass.dependenciesMet_nil with
    ⟨hvalid, hmet⟩ | ⟨pass, dependency, hfirst, hmissing⟩
  · obtain ⟨calls, hruns⟩ := AnalysisPass.exists_runs context 0 [] binary pipeline.passes
    refine ⟨calls, _, .inr ⟨hmet, hruns, hruns.endsInOrder⟩, ?_⟩
    constructor
    · rw [run_of_valid hvalid]
      exact stateList_withStates (AnalysisPass.length_states_runAll ..)
    · rw [run_of_valid hvalid]
  · refine ⟨[], _, .inl ⟨pass, dependency, hfirst, rfl, rfl⟩, ?_⟩
    constructor
    · rw [run_of_missing hmissing]
      exact stateList_withStates (List.length_map ..)
    · rw [run_of_missing hmissing]
      rfl

lemma hasRunForm_run (pipeline : PassPipeline) (context : AnalysisContext) (binary : Binary) :
    HasRunForm (pipeline.run context binary).1.stateList := by
  obtain ⟨calls, run, hruns, hleaves⟩ := pipeline.exists_runsAs context binary
  rw [hleaves.states]
  rcases hruns with ⟨pass, dependency, -, -, rfl⟩ | ⟨-, -, hends⟩
  · exact hasRunForm_pending pipeline.passes
  · exact hends.hasRunForm

lemma name_run (pipeline : PassPipeline) (context : AnalysisContext) (binary : Binary) :
    (pipeline.run context binary).1.name = pipeline.name := by
  unfold run
  split <;> rfl

lemma afterCalls_append (name : String) (calls : List PipelineCall) (last : PipelineCall) :
    afterCalls name (calls ++ [last]) = (afterCalls name calls).call last := by
  unfold afterCalls
  rw [List.foldl_append]
  rfl

/-- What holds of a pipeline after any calls: its name, its passes and the form of their states. -/
lemma afterCalls_form (name : String) (calls : List PipelineCall) :
    let pipeline := afterCalls name calls
    pipeline.name = name ∧ pipeline.passes = calls.filterMap PipelineCall.added? ∧
      HasRunForm pipeline.stateList := by
  induction calls using List.reverseRecOn with
  | nil => exact ⟨rfl, rfl, hasRunForm_pending []⟩
  | append_singleton calls last ih =>
    obtain ⟨hname, hpasses, hform⟩ := ih
    rw [afterCalls_append, List.filterMap_append]
    cases last with
    | add pass =>
      refine ⟨hname, ?_, ?_⟩
      · change ((afterCalls name calls).entries ++ [(pass, PassState.pending)]).map Prod.fst = _
        rw [List.map_append]
        exact congrArg (· ++ [pass]) hpasses
      · change HasRunForm
          (((afterCalls name calls).entries ++ [(pass, PassState.pending)]).map Prod.snd)
        rw [List.map_append]
        exact hform.append_pending
    | run context binary =>
      refine ⟨(name_run _ context binary).trans hname, ?_, hasRunForm_run _ context binary⟩
      change ((afterCalls name calls).run context binary).1.passes = _
      rw [passes_run, hpasses]
      exact (List.append_nil _).symm

end PassPipeline

/-- A pipeline as a state machine, after any calls that add passes to it and run it. -/
theorem pipeline_runs_in_order (name : String) (calls : List PipelineCall) :
    let pipeline := PassPipeline.afterCalls name calls
    pipeline.name = name ∧ pipeline.passes = calls.filterMap PipelineCall.added? ∧
      pipeline.stateList.length = pipeline.passes.length ∧ HasRunForm pipeline.stateList ∧
      ∀ context binary, ∃ made run, pipeline.RunsAs context binary made run ∧
        pipeline.Leaves context binary run := by
  intro pipeline
  obtain ⟨hname, hpasses, hform⟩ := PassPipeline.afterCalls_form name calls
  have hlength : pipeline.stateList.length = pipeline.passes.length := by
    unfold PassPipeline.stateList PassPipeline.passes
    rw [List.length_map, List.length_map]
  exact ⟨hname, hpasses, hlength, hform, pipeline.exists_runsAs⟩

end BinaryFacts
