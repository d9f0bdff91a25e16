import BinaryFacts.Analysis.Config
import BinaryFacts.Proofs.CutEdges
import BinaryFacts.Proofs.DriverRuns

/-!
# Configurations that run

A configuration is accepted if it names known passes only and each of them comes behind the pass
that it needs. Passes of an accepted pipeline find the results that they need whenever they load.
-/

namespace BinaryFacts

open AnalysisPass

namespace PipelineConfig

def knownNames : List String := ["disassembly", "no return analysis", "function inference"]

/-- The passes that need an earlier one, each with the one that it needs. -/
def needs : List (String × String) :=
  [("no return analysis", "disassembly"), ("function inference", "no return analysis")]

/-- Whether every name comes somewhere behind the one that it needs. -/
def Ordered (names : List String) : Prop :=
  ∀ earlier name later, names = earlier ++ name :: later →
    ∀ required, (name, required) ∈ needs → required ∈ earlier

structure Runnable (names : List String) : Prop where
  known : ∀ name ∈ names, name ∈ knownNames
  ordered : Ordered names

/-- Why a list of names is refused: its first unknown name, wherever that stands, or else the first
name that does not come behind the one that it needs. -/
inductive Refused (names : List String) : PlanError → Prop where
  | unknown (earlier later : List String) {name : String}
      (hsplit : names = earlier ++ name :: later) (hearlier : ∀ other ∈ earlier, other ∈ knownNames)
      (hname : name ∉ knownNames) : Refused names (.unknownPass name)
  | unmet (earlier later : List String) {name required : String}
      (hknown : ∀ other ∈ names, other ∈ knownNames) (hsplit : names = earlier ++ name :: later)
      (hearlier : Ordered earlier) (hneeds : (name, required) ∈ needs)
      (hmissing : required ∉ earlier) :
      Refused names (.pipeline (.missingDependency name required))

/-- Whether a pipeline is made of the passes that a configuration names, in their order. -/
structure Describes (config : PipelineConfig) (pipeline : PassPipeline) : Prop where
  name : pipeline.name = config.name
  passes : pipeline.passes.map (·.name) = config.passes
  builtin : ∀ pass ∈ pipeline.passes, pass ∈ AnalysisPass.builtin

/-! ### Orders of names -/

lemma Ordered.of_isPrefix {names shorter : List String} (h : Ordered names)
    (hbegins : shorter <+: names) : Ordered shorter := by
  obtain ⟨rest, rfl⟩ := hbegins
  intro earlier name later hsplit
  apply h earlier name (later ++ rest)
  rw [hsplit, List.append_assoc, List.cons_append]

lemma Runnable.of_isPrefix {names shorter : List String} (h : Runnable names)
    (hbegins : shorter <+: names) : Runnable shorter :=
  ⟨fun name hname => h.known name (hbegins.subset hname), h.ordered.of_isPrefix hbegins⟩

/-- Two places in a list are the same, or the item of one lies before the other. -/
lemma places_cases {α : Type} {earlier earlier' later later' : List α} {item item' : α}
    (h : earlier ++ item :: later = earlier' ++ item' :: later') :
    (earlier = earlier' ∧ item = item') ∨ (∃ between, earlier' = earlier ++ item :: between) ∨
      ∃ between, earlier = earlier' ++ item' :: between := by
  rcases List.append_eq_append_iff.mp h with ⟨between, hearlier, hrest⟩ | ⟨between, hearlier, hrest⟩
  · cases between with
    | nil => exact .inl ⟨by rw [hearlier, List.append_nil], (List.cons.inj hrest).1⟩
    | cons first between =>
      obtain ⟨rfl, -⟩ := List.cons.inj hrest
      exact .inr (.inl ⟨between, hearlier⟩)
  · cases between with
    | nil => exact .inl ⟨by rw [hearlier, List.append_nil], (List.cons.inj hrest).1.symm⟩
    | cons first between =>
      obtain ⟨rfl, -⟩ := List.cons.inj hrest
      exact .inr (.inr ⟨between, hearlier⟩)

lemma needs_unique {name required other : String} (h : (name, required) ∈ needs)
    (hother : (name, other) ∈ needs) : required = other := by
  simp only [needs, List.mem_cons, Prod.mk.injEq, List.not_mem_nil, or_false] at h hother
  rcases h with ⟨rfl, rfl⟩ | ⟨rfl, rfl⟩ <;> simpa [eq_comm] using hother

lemma Refused.not_runnable {names : List String} {error : PlanError} (h : Refused names error) :
    ¬ Runnable names := by
  rintro ⟨hknown, hordered⟩
  cases h with
  | unknown earlier later hsplit hearlier hname =>
    refine hname (hknown _ ?_)
    rw [hsplit]
    exact List.mem_append_right earlier List.mem_cons_self
  | unmet earlier later _ hsplit hearlier hneeds hmissing =>
    exact hmissing (hordered earlier _ later hsplit _ hneeds)

lemma Refused.unique {names : List String} {error error' : PlanError} (h : Refused names error)
    (h' : Refused names error') : error = error' := by
  cases h with
  | unknown earlier later hsplit hearlier hname =>
    cases h' with
    | unknown earlier' later' hsplit' hearlier' hname' =>
      rcases places_cases (hsplit.symm.trans hsplit') with ⟨-, rfl⟩ | ⟨between, rfl⟩ | ⟨between, rfl⟩
      · rfl
      · exact absurd (hearlier' _ (by simp)) hname
      · exact absurd (hearlier _ (by simp)) hname'
    | unmet earlier' later' hknown =>
      refine absurd (hknown _ ?_) hname
      rw [hsplit]
      exact List.mem_append_right earlier List.mem_cons_self
  | unmet earlier later hknown hsplit hearlier hneeds hmissing =>
    cases h' with
    | unknown earlier' later' hsplit' _ hname' =>
      refine absurd (hknown _ ?_) hname'
      rw [hsplit']
      exact List.mem_append_right earlier' List.mem_cons_self
    | unmet earlier' later' _ hsplit' hearlier' hneeds' hmissing' =>
      rcases places_cases (hsplit.symm.trans hsplit') with ⟨-, rfl⟩ | ⟨between, rfl⟩ | ⟨between, rfl⟩
      · rw [needs_unique hneeds hneeds']
      · exact absurd (hearlier' earlier _ between rfl _ hneeds) hmissing
      · exact absurd (hearlier earlier' _ between rfl _ hneeds') hmissing'

/-! ### From names to passes -/

lemma findPass_cases (name : String) :
    (name ∈ knownNames ∧ ∃ pass ∈ builtin, pass.name = name ∧ findPass name = .ok pass) ∨
      (name ∉ knownNames ∧ findPass name = .error (.unknownPass name)) := by
  have hnames : builtin.map (·.name) = knownNames := rfl
  unfold findPass ofName?
  cases hfind : builtin.find? (·.name == name) with
  | some pass =>
    have hpass := List.mem_of_find?_eq_some hfind
    have hname : pass.name = name := by simpa using List.find?_some hfind
    refine .inl ⟨?_, pass, hpass, hname, rfl⟩
    rw [← hnames, ← hname]
    exact List.mem_map_of_mem hpass
  | none =>
    refine .inr ⟨?_, rfl⟩
    rw [← hnames]
    intro hmem
    obtain ⟨pass, hpass, hname⟩ := List.mem_map.mp hmem
    exact List.find?_eq_none.mp hfind pass hpass (beq_iff_eq.mpr hname)

/-- Names are looked up from the first to the last, and the first unknown one ends it. -/
lemma mapM_findPass_cases (names : List String) :
    (∃ passes, names.mapM findPass = .ok passes ∧ passes.map (·.name) = names ∧
      (∀ pass ∈ passes, pass ∈ builtin) ∧ ∀ name ∈ names, name ∈ knownNames) ∨
    ∃ earlier name later, names = earlier ++ name :: later ∧
      (∀ other ∈ earlier, other ∈ knownNames) ∧ name ∉ knownNames ∧
      names.mapM findPass = .error (.unknownPass name) := by
  induction names with
  | nil => exact .inl ⟨[], rfl, rfl, by simp, by simp⟩
  | cons name rest ih =>
    rw [List.mapM_cons]
    rcases findPass_cases name with ⟨hknown, pass, hpass, hname, hfind⟩ | ⟨hunknown, hfind⟩
    · rw [hfind]
      rcases ih with ⟨passes, hrest, hnames, hbuiltin, hall⟩ |
        ⟨earlier, first, later, rfl, hearlier, hfirst, hrest⟩
      · rw [hrest]
        refine .inl ⟨pass :: passes, rfl, ?_, ?_, ?_⟩
        · rw [List.map_cons, hname, hnames]
        · exact List.forall_mem_cons.mpr ⟨hpass, hbuiltin⟩
        · exact List.forall_mem_cons.mpr ⟨hknown, hall⟩
      · rw [hrest]
        refine .inr ⟨name :: earlier, first, later, rfl, ?_, hfirst, rfl⟩
        exact List.forall_mem_cons.mpr ⟨hknown, hearlier⟩
    · rw [hfind]
      exact .inr ⟨[], name, rest, rfl, by simp, hunknown, rfl⟩

lemma mem_needs_iff {pass : AnalysisPass} (h : pass ∈ builtin) {required : String} :
    (pass.name, required) ∈ needs ↔ pass.dependency = some required := by
  rcases List.mem_cons.mp h with rfl | h
  · simp [needs, disassembly]
  rcases List.mem_cons.mp h with rfl | h
  · simp [needs, noReturn, eq_comm]
  · obtain rfl := List.mem_singleton.mp h
    simp [needs, functionInference, eq_comm]

lemma ordered_map_name {passes : List AnalysisPass} (hbuiltin : ∀ pass ∈ passes, pass ∈ builtin)
    (h : DependenciesMet passes) : Ordered (passes.map (·.name)) := by
  intro earlier name later hsplit required hneeds
  obtain ⟨before, rest, rfl, rfl, hrest⟩ := List.map_eq_append_iff.mp hsplit
  obtain ⟨pass, after, rfl, rfl, rfl⟩ := List.map_eq_cons_iff.mp hrest
  have hpass := hbuiltin pass (List.mem_append_right before List.mem_cons_self)
  obtain ⟨met, hmet, rfl⟩ := h before pass after rfl required ((mem_needs_iff hpass).mp hneeds)
  exact List.mem_map_of_mem hmet

lemma refused_of_firstUnmet {passes : List AnalysisPass}
    (hbuiltin : ∀ pass ∈ passes, pass ∈ builtin)
    (hknown : ∀ name ∈ passes.map (·.name), name ∈ knownNames) {pass : AnalysisPass}
    {dependency : String} (h : FirstUnmet passes pass dependency) :
    Refused (passes.map (·.name)) (.pipeline (.missingDependency pass.name dependency)) := by
  obtain ⟨earlier, later, rfl, hearlier, hdependency, hmissing⟩ := h
  have hpass := hbuiltin pass (List.mem_append_right earlier List.mem_cons_self)
  refine .unmet (earlier.map (·.name)) (later.map (·.name)) hknown List.map_append ?_
    ((mem_needs_iff hpass).mpr hdependency) ?_
  · exact ordered_map_name (fun other hother => hbuiltin other (List.mem_append_left _ hother))
      hearlier
  · intro hmem
    obtain ⟨other, hother, hname⟩ := List.mem_map.mp hmem
    exact hmissing other hother hname

/-- The pipeline of some passes under the name of a configuration. -/
def pipelineOf (config : PipelineConfig) (passes : List AnalysisPass) : PassPipeline :=
  { name := config.name, entries := passes.map fun pass => (pass, .pending) }

lemma passes_pipelineOf (config : PipelineConfig) (passes : List AnalysisPass) :
    (config.pipelineOf passes).passes = passes := by
  change (passes.map fun pass => (pass, PassState.pending)).map Prod.fst = passes
  rw [List.map_map]
  exact List.map_id passes

lemma build_of_mapM {config : PipelineConfig} {passes : List AnalysisPass}
    (h : config.passes.mapM findPass = .ok passes) :
    config.build = match missing? [] passes with
      | some error => .error (.pipeline error)
      | none => .ok (config.pipelineOf passes) := by
  have hvalidate : (config.pipelineOf passes).validate = missing? [] passes := by
    rw [PassPipeline.validate, passes_pipelineOf]
  rw [← hvalidate, build, h]
  rfl

/-- A configuration is either built into the pipeline that it describes or refused. -/
lemma build_cases (config : PipelineConfig) :
    (∃ pipeline, config.build = .ok pipeline ∧ config.Describes pipeline ∧
      pipeline.validate = none ∧ DependenciesMet pipeline.passes ∧ Runnable config.passes) ∨
    ∃ error, config.build = .error error ∧ Refused config.passes error := by
  rcases mapM_findPass_cases config.passes with ⟨passes, hfound, hnames, hbuiltin, hknown⟩ |
    ⟨earlier, name, later, hsplit, hearlier, hname, hfound⟩
  · have hpasses := config.passes_pipelineOf passes
    rw [build_of_mapM hfound]
    rcases missing?_map_name [] passes dependenciesMet_nil with
      ⟨hmissing, hmet⟩ | ⟨pass, dependency, hfirst, hmissing⟩
    · rw [List.map_nil] at hmissing
      rw [hmissing]
      refine .inl ⟨_, rfl, ⟨rfl, ?_, ?_⟩, ?_, ?_, hknown, ?_⟩
      · rw [hpasses, hnames]
      · rwa [hpasses]
      · rwa [PassPipeline.validate, hpasses]
      · rwa [hpasses]
      · rw [← hnames]
        exact ordered_map_name hbuiltin hmet
    · rw [List.map_nil] at hmissing
      rw [hmissing]
      rw [← hnames] at hknown ⊢
      exact .inr ⟨_, rfl, refused_of_firstUnmet hbuiltin hknown hfirst⟩
  · rw [build, hfound]
    exact .inr ⟨_, rfl, .unknown earlier later hsplit hearlier hname⟩

lemma of_build {config : PipelineConfig} {pipeline : PassPipeline}
    (h : config.build = .ok pipeline) :
    config.Describes pipeline ∧ pipeline.validate = none ∧ DependenciesMet pipeline.passes ∧
      Runnable config.passes := by
  rcases config.build_cases with ⟨built, hbuilt, hall⟩ | ⟨error, herror, _⟩
  · rw [h] at hbuilt
    cases hbuilt
    exact hall
  · rw [h] at herror
    cases herror

lemma build_eq_error_iff {config : PipelineConfig} {error : PlanError} :
    config.build = .error error ↔ Refused config.passes error := by
  rcases config.build_cases with ⟨built, hbuilt, -, -, -, hrunnable⟩ | ⟨found, hfound, hrefused⟩
  · rw [hbuilt]
    exact iff_of_false (fun h => by cases h) fun hrefused => hrefused.not_runnable hrunnable
  · rw [hfound, Except.error.injEq]
    constructor
    · rintro rfl
      exact hrefused
    · exact hrefused.unique

lemma exists_build_iff {config : PipelineConfig} :
    (∃ pipeline, config.build = .ok pipeline) ↔ Runnable config.passes := by
  constructor
  · rintro ⟨pipeline, h⟩
    exact (of_build h).2.2.2
  · intro hrunnable
    rcases config.build_cases with ⟨pipeline, h, -⟩ | ⟨error, -, hrefused⟩
    · exact ⟨pipeline, h⟩
    · exact absurd hrunnable hrefused.not_runnable

end PipelineConfig

namespace AnalysisPass

/-! ### Results that passes need -/

/-- Whether a computation does not fail for want of an earlier result. -/
def LacksNoResult {α : Type} (stage : Except PassError α) : Prop :=
  ∀ name, stage ≠ .error (.missingPrevious name)

namespace LacksNoResult

variable {α β : Type}

lemma ok (value : α) : LacksNoResult (.ok value) := by
  intro name h
  cases h

lemma bind {stage : Except PassError α} {next : α → Except PassError β}
    (hstage : LacksNoResult stage) (hnext : ∀ value, LacksNoResult (next value)) :
    LacksNoResult (stage >>= next) := by
  cases stage with
  | ok value => exact hnext value
  | error error =>
    intro name h
    cases h
    exact hstage name rfl

lemma mapM {read : α → Except PassError β} (h : ∀ item, LacksNoResult (read item))
    (items : List α) : LacksNoResult (items.mapM read) := by
  induction items with
  | nil => exact ok []
  | cons item rest ih =>
    rw [List.mapM_cons]
    exact (h item).bind fun first => ih.bind fun others => ok (first :: others)

lemma malformed (relation reason : String) :
    LacksNoResult (AnalysisPass.malformed relation reason : Except PassError α) := by
  intro name h
  cases h

end LacksNoResult

lemma lacksNoResult_expectArity (relation : String) (row : Row) (arity : Nat) :
    LacksNoResult (expectArity relation row arity) := by
  unfold expectArity
  split
  · exact .ok ()
  · exact .malformed _ _

lemma lacksNoResult_addressAt (relation : String) (row : Row) (column : Nat) :
    LacksNoResult (addressAt relation row column) := by
  unfold addressAt
  split
  · exact .ok _
  · exact .malformed _ _

lemma lacksNoResult_symbolAt (relation : String) (row : Row) (column : Nat) :
    LacksNoResult (symbolAt relation row column) := by
  unfold symbolAt
  split
  · exact .ok _
  · exact .malformed _ _

lemma lacksNoResult_readAddress (relation : String) (row : Row) :
    LacksNoResult (readAddress relation row) :=
  (lacksNoResult_expectArity relation row 1).bind fun _ => lacksNoResult_addressAt relation row 0

lemma lacksNoResult_readPair (relation : String) (row : Row) :
    LacksNoResult (readPair relation row) :=
  (lacksNoResult_expectArity relation row 2).bind fun _ =>
    (lacksNoResult_addressAt relation row 0).bind fun _ =>
      (lacksNoResult_addressAt relation row 1).bind fun _ => .ok _

lemma lacksNoResult_readSymbol (relation : String) (row : Row) :
    LacksNoResult (readSymbol relation row) :=
  (lacksNoResult_expectArity relation row 2).bind fun _ =>
    (lacksNoResult_addressAt relation row 0).bind fun _ =>
      (lacksNoResult_symbolAt relation row 1).bind fun _ => .ok _

lemma lacksNoResult_readEdge (relation : String) (row : Row) :
    LacksNoResult (readEdge relation row) :=
  (lacksNoResult_expectArity relation row 3).bind fun _ =>
    (lacksNoResult_addressAt relation row 0).bind fun _ =>
      (lacksNoResult_addressAt relation row 1).bind fun _ =>
        (lacksNoResult_symbolAt relation row 2).bind fun _ => .ok _

lemma lacksNoResult_disassembled (result : PassResult) :
    LacksNoResult (Disassembled.ofResult result) :=
  (LacksNoResult.mapM (lacksNoResult_readPair _) _).bind fun _ =>
    (LacksNoResult.mapM (lacksNoResult_readEdge _) _).bind fun _ =>
      (LacksNoResult.mapM (lacksNoResult_readSymbol _) _).bind fun _ => .ok _

lemma lacksNoResult_inferredFunctions (result : PassResult) :
    LacksNoResult (InferredFunctions.ofResult result) :=
  (LacksNoResult.mapM (lacksNoResult_readAddress _) _).bind fun _ =>
    (LacksNoResult.mapM (lacksNoResult_readPair _) _).bind fun _ => .ok _

lemma lacksNoResult_instantiate (context : AnalysisContext) (program : String) :
    LacksNoResult (instantiate context program) := by
  intro name h
  unfold instantiate at h
  split at h <;> cases h

lemma lacksNoResult_evaluate (context : AnalysisContext) (store : FactStore) :
    LacksNoResult (evaluate context store) := by
  intro name h
  unfold evaluate at h
  split at h <;> cases h

/-- A pass that is handed the result that it needs does not fail for want of one when it loads. -/
lemma lacksNoResult_runLoad {pass : AnalysisPass} (hpass : pass ∈ builtin)
    (context : AnalysisContext) (binary : Binary) {previous : Option PassResult}
    (hprevious : pass.dependency.isSome → previous.isSome) :
    LacksNoResult (pass.runLoad context binary previous) := by
  rcases List.mem_cons.mp hpass with rfl | hpass
  · change LacksNoResult (loadDisassembly context binary previous _)
    refine LacksNoResult.bind ?_ fun pipeline => ?_
    · intro name h
      cases hpipeline : context.targets.pipeline context.disassemble binary.descriptor <;>
        rw [hpipeline] at h <;> cases h
    · cases pipeline.load? context.engine binary with
      | none =>
        intro name h
        cases h
      | some store => exact (lacksNoResult_evaluate context store).bind fun _ => .ok _
  rcases List.mem_cons.mp hpass with rfl | hpass
  · exact (lacksNoResult_instantiate context _).bind fun store =>
      (lacksNoResult_evaluate context _).bind fun _ => .ok _
  · obtain rfl := List.mem_singleton.mp hpass
    obtain ⟨previous, rfl⟩ := Option.isSome_iff_exists.mp (hprevious rfl)
    exact (lacksNoResult_instantiate context _).bind fun store =>
      (lacksNoResult_evaluate context _).bind fun _ => .ok _

/-- No transform asks for the result of another pass. -/
lemma lacksNoResult_runTransform {pass : AnalysisPass} (hpass : pass ∈ builtin)
    {context : AnalysisContext} {result : PassResult} {binary left : Binary} {error : PassError}
    (h : pass.runTransform context result binary = .error error left) (name : String) :
    error ≠ .missingPrevious name := by
  rintro rfl
  rcases List.mem_cons.mp hpass with rfl | hpass
  · exact lacksNoResult_disassembled result name (changesBy_disassembly.of_error h)
  rcases List.mem_cons.mp hpass with rfl | hpass
  · exact LacksNoResult.mapM (lacksNoResult_readAddress _) _ name (changesBy_noReturn.of_error h)
  · obtain rfl := List.mem_singleton.mp hpass
    exact lacksNoResult_inferredFunctions result name (changesBy_functions.of_error h)

/-- Passes report under their names, behind the reports that are there. -/
lemma Completes.exists_append {context : AnalysisContext} {passes : List AnalysisPass}
    {reports made : List PassReport} {binary left : Binary}
    (h : Completes context passes reports binary made left) :
    ∃ added, made = reports ++ added ∧ added.map (·.name) = passes.map (·.name) := by
  induction h with
  | nil => exact ⟨[], (List.append_nil _).symm, rfl⟩
  | @cons pass rest reports made binary changed left loaded result hload htransform hrest ih =>
    obtain ⟨added, rfl, hnames⟩ := ih
    exact ⟨pass.report result :: added, List.append_assoc .., congrArg (pass.name :: ·) hnames⟩

/-- A dependency that is done has a report. -/
lemma isSome_previous? {pass : AnalysisPass} {before : List AnalysisPass}
    {made : List PassReport} (hmade : made.map (·.name) = before.map (·.name))
    (hmet : ∀ dependency, pass.dependency = some dependency →
      ∃ met ∈ before, met.name = dependency) (h : pass.dependency.isSome) :
    (pass.previous? made).isSome := by
  obtain ⟨dependency, hdependency⟩ := Option.isSome_iff_exists.mp h
  obtain ⟨met, hmem, hname⟩ := hmet dependency hdependency
  have hreported : dependency ∈ made.map (·.name) := by
    rw [hmade, ← hname]
    exact List.mem_map_of_mem hmem
  obtain ⟨report, hreport, hreportName⟩ := List.mem_map.mp hreported
  unfold previous?
  rw [hdependency, Option.isSome_map, List.find?_isSome]
  exact ⟨report, hreport, beq_iff_eq.mpr hreportName⟩

end AnalysisPass

/-- A run of passes whose dependencies are met only fails at a stage, and never for want of a
result. -/
lemma PassPipeline.error_of_run {pipeline : PassPipeline}
    (hbuiltin : ∀ pass ∈ pipeline.passes, pass ∈ builtin) (hvalid : pipeline.validate = none)
    (hmet : DependenciesMet pipeline.passes) {context : AnalysisContext} {binary : Binary}
    {error : PipelineError} (h : (pipeline.run context binary).2.2 = .error error) :
    ∃ pass stage source, error = .stageFailed pass stage source ∧
      ∀ name, source ≠ .missingPrevious name := by
  obtain ⟨before, pass, after, made, kept, state, left, hpasses, hbefore, hfails, -⟩ :=
    runAll_error (outcome_runAll_of_run hvalid h)
  have hpass : pass ∈ builtin := by
    apply hbuiltin
    rw [hpasses]
    exact List.mem_append_right before List.mem_cons_self
  obtain ⟨_, rfl, hmade⟩ :=
    (completes_of_runAll (congrArg PipelineRun.outcome hbefore)).exists_append
  cases hfails with
  | load hload =>
    have hprevious := isSome_previous? hmade (hmet before pass after hpasses)
    exact ⟨pass.name, .load, _, rfl, fun name hsource =>
      lacksNoResult_runLoad hpass context kept hprevious name (hsource ▸ hload)⟩
  | transform hload htransform =>
    exact ⟨pass.name, .transform, _, rfl, lacksNoResult_runTransform hpass htransform⟩

/-- A configuration is accepted exactly if it is runnable, with its passes in order, and what it is
refused for is fixed otherwise. Beginnings of accepted configurations are accepted. However often a
pipeline has run, it lacks neither a dependency nor the result of one. -/
theorem accepted_configs_are_runnable (config : PipelineConfig) :
    ((∃ pipeline, config.build = .ok pipeline) ↔ PipelineConfig.Runnable config.passes) ∧
    (∀ error, config.build = .error error ↔ PipelineConfig.Refused config.passes error) ∧
    ∀ pipeline, config.build = .ok pipeline →
      config.Describes pipeline ∧
      (∀ passes, passes <+: config.passes →
        ∃ shorter, { config with passes }.build = .ok shorter) ∧
      ∀ used : PassPipeline, used.passes = pipeline.passes → ∀ context binary error,
        (used.run context binary).2.2 = .error error →
          ∃ pass stage source, error = .stageFailed pass stage source ∧
            ∀ name, source ≠ .missingPrevious name := by
  refine ⟨PipelineConfig.exists_build_iff, fun error => PipelineConfig.build_eq_error_iff, ?_⟩
  intro pipeline hbuild
  obtain ⟨hdescribes, hvalid, hmet, hrunnable⟩ := PipelineConfig.of_build hbuild
  refine ⟨hdescribes, ?_, ?_⟩
  · intro passes hbegins
    exact PipelineConfig.exists_build_iff.mpr (hrunnable.of_isPrefix hbegins)
  · -- earlier runs leave their mark on the states of passes only
    intro used hused context binary error herror
    have husedValid : used.validate = none := by
      rw [PassPipeline.validate, hused]
      exact hvalid
    rw [← hused] at hmet
    refine PassPipeline.error_of_run ?_ husedValid hmet herror
    rw [hused]
    exact hdescribes.builtin

/-- Names of known passes, one of them twice. -/
def repeatingConfig : PipelineConfig :=
  { name := "repeating"
    passes := ["disassembly", "no return analysis", "function inference", "no return analysis"] }

/-- An unknown name behind one that comes too early. -/
def earlyConfig : PipelineConfig :=
  { name := "early", passes := ["function inference", "inference"] }

theorem accepted_configs_are_runnable_repeating :
    PipelineConfig.Refused earlyConfig.passes (.unknownPass "inference") ∧
      PipelineConfig.Runnable repeatingConfig.passes ∧
      ["disassembly"] <+: repeatingConfig.passes ∧
      ∃ pipeline shorter, repeatingConfig.build = .ok pipeline ∧
        repeatingConfig.Describes pipeline ∧
        { repeatingConfig with passes := ["disassembly"] }.build = .ok shorter ∧
        let error := PipelineError.stageFailed "no return analysis" .transform
          (.malformedRelation "no_return_call" "column 0 is not an address")
        (pipeline.run tearingContext tornBinary).2.2 = .error error ∧
          ∃ pass stage source, error = .stageFailed pass stage source ∧
            ∀ name, source ≠ .missingPrevious name := by
  obtain ⟨hrunnable, -, hbuilt⟩ := accepted_configs_are_runnable repeatingConfig
  obtain ⟨-, hrefused, -⟩ := accepted_configs_are_runnable earlyConfig
  have hbegins : ["disassembly"] <+: repeatingConfig.passes := List.prefix_append ["disassembly"] _
  obtain ⟨pipeline, hbuild, herror⟩ : ∃ pipeline, repeatingConfig.build = .ok pipeline ∧
      (pipeline.run tearingContext tornBinary).2.2 =
        .error (.stageFailed "no return analysis" .transform
          (.malformedRelation "no_return_call" "column 0 is not an address")) := ⟨_, rfl, rfl⟩
  obtain ⟨hdescribes, hshorter, hruns⟩ := hbuilt pipeline hbuild
  obtain ⟨shorter, hshort⟩ := hshorter ["disassembly"] hbegins
  exact ⟨(hrefused _).mp rfl, hrunnable.mp ⟨pipeline, hbuild⟩, hbegins, pipeline, shorter, hbuild,
    hdescribes, hshort, herror, hruns pipeline rfl tearingContext tornBinary _ herror⟩

end BinaryFacts
