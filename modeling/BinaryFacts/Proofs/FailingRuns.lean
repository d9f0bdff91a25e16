import BinaryFacts.Analysis.Builtin
import BinaryFacts.Analysis.Pipeline
import Mathlib.Tactic.Lemma

/-!
# Failing runs

What a run that fails leaves of a binary. Disassembly and function inference read all derived rows
before their first change. The no-return analysis changes the binary row by row, so that a
malformed row comes after the changes of the rows before it.
-/

namespace BinaryFacts

namespace Binary

def leavesOneOf (blocks : List UInt64) (edge : FlowEdge) : Bool :=
  blocks.any (isFallthroughFrom · edge)

/-- The binary without the edges by which control falls through out of the blocks. -/
def cutAll (binary : Binary) (blocks : List UInt64) : Binary :=
  { binary with flowEdges := binary.flowEdges.filter (!leavesOneOf blocks ·) }

lemma cutAll_nil (binary : Binary) : binary.cutAll [] = binary := by
  have hall : binary.flowEdges.filter (!leavesOneOf [] ·) = binary.flowEdges :=
    List.filter_eq_self.mpr fun _ _ => rfl
  rw [cutAll, hall]

lemma cutAll_cons (binary : Binary) (block : UInt64) (blocks : List UInt64) :
    binary.cutAll (block :: blocks) = (binary.cutFallthrough block).2.cutAll blocks := by
  unfold cutAll cutFallthrough
  dsimp only
  rw [List.filter_filter]
  congr 2
  funext edge
  rw [leavesOneOf, List.any_cons, Bool.not_or, Bool.and_comm]
  rfl

lemma leavesOneOf_iff {blocks : List UInt64} {edge : FlowEdge} :
    leavesOneOf blocks edge = true ↔ edge.kind = "fallthrough" ∧ edge.source ∈ blocks := by
  simp only [leavesOneOf, isFallthroughFrom, List.any_eq_true, Bool.and_eq_true, beq_iff_eq]
  constructor
  · rintro ⟨block, hblock, rfl, hkind⟩
    exact ⟨hkind, hblock⟩
  · rintro ⟨hkind, hblock⟩
    exact ⟨edge.source, hblock, rfl, hkind⟩

lemma cutAll_eq_self_iff {binary : Binary} {blocks : List UInt64} :
    binary.cutAll blocks = binary ↔
      ¬ ∃ edge ∈ binary.flowEdges, edge.kind = "fallthrough" ∧ edge.source ∈ blocks := by
  constructor
  · rintro h ⟨edge, hedge, hcut⟩
    have hsame : binary.flowEdges.filter (!leavesOneOf blocks ·) = binary.flowEdges :=
      congrArg flowEdges h
    have hkept := List.filter_eq_self.mp hsame edge hedge
    rw [leavesOneOf_iff.mpr hcut] at hkept
    exact absurd hkept (by decide)
  · intro h
    have hsame : binary.flowEdges.filter (!leavesOneOf blocks ·) = binary.flowEdges := by
      apply List.filter_eq_self.mpr
      intro edge hedge
      rw [Bool.not_eq_true', ← Bool.not_eq_true, leavesOneOf_iff]
      exact fun hcut => h ⟨edge, hedge, hcut⟩
    rw [cutAll, hsame]

end Binary

namespace AnalysisPass

/-! ### Stages -/

def readThenApply {α : Type} (read : PassResult → Except PassError α)
    (apply : α → Binary → Binary) : TransformStage := fun _ result binary =>
  match read result with
  | .error error => .error error binary
  | .ok found => .ok result (apply found binary)

lemma transformDisassembly_eq :
    transformDisassembly = readThenApply Disassembled.ofResult Disassembled.apply := by
  funext context result binary
  unfold transformDisassembly readThenApply
  cases Disassembled.ofResult result <;> rfl

lemma transformFunctions_eq :
    transformFunctions = readThenApply InferredFunctions.ofResult InferredFunctions.apply := by
  funext context result binary
  unfold transformFunctions readThenApply
  cases InferredFunctions.ofResult result <;> rfl

lemma readThenApply_error {α : Type} {read : PassResult → Except PassError α}
    {apply : α → Binary → Binary} {context : AnalysisContext} {result : PassResult}
    {binary left : Binary} {error : PassError}
    (h : readThenApply read apply context result binary = .error error left) : left = binary := by
  unfold readThenApply at h
  cases hread : read result with
  | error reason =>
    rw [hread] at h
    cases h
    rfl
  | ok found =>
    rw [hread] at h
    cases h

/-- The blocks that the rows name, up to the first row that cannot be read. -/
def leadingBlocks : List Row → List UInt64
  | [] => []
  | row :: rows =>
    match readAddress "no_return_call" row with
    | .error _ => []
    | .ok block => block :: leadingBlocks rows

/-- If a row cannot be read, the edges behind the rows before it are cut all the same. -/
lemma cutRows_eq (rows : List Row) (binary : Binary) :
    cutRows rows binary = match rows.mapM (readAddress "no_return_call") with
      | .ok blocks => .ok () (binary.cutAll blocks)
      | .error error => .error error (binary.cutAll (leadingBlocks rows)) := by
  induction rows generalizing binary with
  | nil => exact congrArg (EStateM.Result.ok ()) binary.cutAll_nil.symm
  | cons row rows ih =>
    rw [cutRows, leadingBlocks, List.mapM_cons]
    cases readAddress "no_return_call" row with
    | error reason =>
      -- the failing row itself cuts nothing
      exact congrArg (EStateM.Result.error reason) binary.cutAll_nil.symm
    | ok block =>
      change cutRows rows (binary.cutFallthrough block).2 = _
      rw [ih]
      cases rows.mapM (readAddress "no_return_call") with
      | error reason =>
        exact congrArg (EStateM.Result.error reason) (binary.cutAll_cons block _).symm
      | ok blocks => exact congrArg (EStateM.Result.ok ()) (binary.cutAll_cons block blocks).symm

def readCalls (result : PassResult) : Except PassError (List UInt64) :=
  (result.rows "no_return_call").mapM (readAddress "no_return_call")

lemma transformNoReturn_eq (context : AnalysisContext) (result : PassResult) (binary : Binary) :
    transformNoReturn context result binary = match readCalls result with
      | .ok calls => .ok result (binary.cutAll calls)
      | .error error =>
        .error error (binary.cutAll (leadingBlocks (result.rows "no_return_call"))) := by
  change EStateM.bind _ _ binary = _
  rw [EStateM.bind, cutRows_eq, readCalls]
  cases (result.rows "no_return_call").mapM (readAddress "no_return_call") <;> rfl

lemma transformNoReturn_error {context : AnalysisContext} {result : PassResult}
    {binary left : Binary} {error : PassError}
    (h : transformNoReturn context result binary = .error error left) :
    left = binary.cutAll (leadingBlocks (result.rows "no_return_call")) := by
  rw [transformNoReturn_eq] at h
  split at h
  · cases h
  · cases h
    rfl

/-- Whether a transform succeeds just if its rows can be read, and then changes the binary by what
it read and hands its result on. -/
def ChangesBy {α : Type} (stage : TransformStage) (read : PassResult → Except PassError α)
    (change : α → Binary → Binary) : Prop :=
  ∀ context result binary, match read result with
    | .ok found => stage context result binary = .ok result (change found binary)
    | .error error => ∃ left, stage context result binary = .error error left

section ChangesBy

variable {α : Type} {stage : TransformStage} {read : PassResult → Except PassError α}
  {change : α → Binary → Binary} {context : AnalysisContext} {loaded result : PassResult}
  {binary left : Binary}

lemma ChangesBy.of_ok (h : ChangesBy stage read change)
    (hstage : stage context loaded binary = .ok result left) :
    ∃ found, read loaded = .ok found ∧ result = loaded ∧ left = change found binary := by
  have hchange := h context loaded binary
  cases hread : read loaded with
  | error error =>
    rw [hread] at hchange
    obtain ⟨_, hfails⟩ := hchange
    rw [hfails] at hstage
    cases hstage
  | ok found =>
    rw [hread] at hchange
    dsimp only at hchange
    rw [hchange] at hstage
    cases hstage
    exact ⟨found, rfl, rfl, rfl⟩

lemma ChangesBy.of_error {error : PassError} (h : ChangesBy stage read change)
    (hstage : stage context loaded binary = .error error left) : read loaded = .error error := by
  have hchange := h context loaded binary
  cases hread : read loaded with
  | error reason =>
    rw [hread] at hchange
    obtain ⟨_, hfails⟩ := hchange
    rw [hfails] at hstage
    cases hstage
    rfl
  | ok found =>
    rw [hread] at hchange
    dsimp only at hchange
    rw [hchange] at hstage
    cases hstage

lemma changesBy_readThenApply (read : PassResult → Except PassError α)
    (change : α → Binary → Binary) : ChangesBy (readThenApply read change) read change := by
  intro context result binary
  unfold readThenApply
  cases read result with
  | error error => exact ⟨binary, rfl⟩
  | ok found => rfl

end ChangesBy

lemma changesBy_disassembly :
    ChangesBy disassembly.runTransform Disassembled.ofResult Disassembled.apply := by
  change ChangesBy transformDisassembly _ _
  rw [transformDisassembly_eq]
  exact changesBy_readThenApply _ _

lemma changesBy_noReturn :
    ChangesBy noReturn.runTransform readCalls fun calls binary => binary.cutAll calls := by
  change ChangesBy transformNoReturn _ _
  intro context result binary
  rw [transformNoReturn_eq]
  cases readCalls result with
  | error error => exact ⟨_, rfl⟩
  | ok calls => rfl

lemma changesBy_functions :
    ChangesBy functionInference.runTransform InferredFunctions.ofResult
      InferredFunctions.apply := by
  change ChangesBy transformFunctions _ _
  rw [transformFunctions_eq]
  exact changesBy_readThenApply _ _

/-! ### Runs -/

lemma missing?_eq_some {earlier : List String} {passes : List AnalysisPass} {error : PipelineError}
    (h : missing? earlier passes = some error) :
    ∃ pass dependency, error = .missingDependency pass dependency := by
  induction passes generalizing earlier with
  | nil => cases h
  | cons pass rest ih =>
    unfold missing? at h
    split at h
    · split at h
      · exact ih h
      · cases h
        exact ⟨_, _, rfl⟩
    · exact ih h

/-- How a pass fails after passes that made the reports: the error, the state that the pass is left
in and the binary. -/
inductive Fails (context : AnalysisContext) (pass : AnalysisPass) (reports : List PassReport)
    (binary : Binary) : PipelineError → PassState → Binary → Prop where
  | load {error : PassError}
      (hload : pass.runLoad context binary (pass.previous? reports) = .error error) :
      Fails context pass reports binary (.stageFailed pass.name .load error) .pending binary
  | transform {result : PassResult} {error : PassError} {left : Binary}
      (hload : pass.runLoad context binary (pass.previous? reports) = .ok result)
      (htransform : pass.runTransform context result binary = .error error left) :
      Fails context pass reports binary (.stageFailed pass.name .transform error) .loaded left

lemma Fails.state_ne_done {context : AnalysisContext} {pass : AnalysisPass}
    {reports : List PassReport} {binary left : Binary} {error : PipelineError} {state : PassState}
    (h : Fails context pass reports binary error state left) : state ≠ .done := by
  cases h <;> exact PassState.noConfusion

/-- A failing run goes through some passes, then one pass fails, and the rest does not start. -/
lemma runAll_error {context : AnalysisContext} {reports : List PassReport} {binary : Binary}
    {passes : List AnalysisPass} {error : PipelineError}
    (h : (runAll context reports binary passes).outcome = .error error) :
    ∃ before pass after made kept state left,
      passes = before ++ pass :: after ∧
      runAll context reports binary before =
        { states := List.replicate before.length .done, binary := kept, outcome := .ok made } ∧
      Fails context pass made kept error state left ∧
      runAll context reports binary passes =
        { states := List.replicate before.length .done ++ state :: after.map fun _ => .pending
          binary := left, outcome := .error error } := by
  induction passes generalizing reports binary with
  | nil => cases h
  | cons pass rest ih =>
    rw [runAll] at h ⊢
    cases hload : pass.runLoad context binary (pass.previous? reports) with
    | error reason =>
      rw [hload] at h
      cases h
      exact ⟨[], pass, rest, reports, binary, .pending, binary, rfl, rfl, .load hload, rfl⟩
    | ok result =>
      rw [hload] at h
      dsimp only at h ⊢
      cases htransform : pass.runTransform context result binary with
      | error reason left =>
        rw [htransform] at h
        cases h
        exact ⟨[], pass, rest, reports, binary, .loaded, left, rfl, rfl,
          .transform hload htransform, rfl⟩
      | ok result' changed =>
        rw [htransform] at h
        obtain ⟨before, failing, after, made, kept, state, left, rfl, hbefore, hfails, hrun⟩ :=
          ih h
        refine ⟨pass :: before, failing, after, made, kept, state, left, rfl, ?_, hfails, ?_⟩
        · rw [runAll, hload]
          dsimp only
          rw [htransform]
          dsimp only
          rw [hbefore]
          rfl
        · dsimp only
          rw [hrun]
          rfl

def noReturnRows (context : AnalysisContext) (binary : Binary) : List Row :=
  match noReturn.runLoad context binary none with
  | .ok result => result.rows "no_return_call"
  | .error _ => []

/-- Whether a stage failed after it had changed the binary: the transform of the no-return analysis,
if control falls through out of a block that one of the leading rows names. -/
def Tears (context : AnalysisContext) (binary : Binary) (error : PipelineError) : Prop :=
  (∃ source, error = .stageFailed noReturn.name .transform source) ∧
    ∃ edge ∈ binary.flowEdges, edge.kind = "fallthrough" ∧
      edge.source ∈ leadingBlocks (noReturnRows context binary)

lemma Fails.left_eq_iff {context : AnalysisContext} {pass : AnalysisPass}
    {reports : List PassReport} {binary left : Binary} {error : PipelineError} {state : PassState}
    (h : Fails context pass reports binary error state left) (hbuiltin : pass ∈ builtin) :
    left = binary ↔ ¬ Tears context binary error := by
  have hother : ∀ source, pass.name ≠ noReturn.name →
      ¬ Tears context binary (.stageFailed pass.name .transform source) := by
    rintro source hname ⟨⟨_, herror⟩, _⟩
    exact hname (PipelineError.stageFailed.inj herror).1
  cases h with
  | load hload =>
    refine iff_of_true rfl ?_
    rintro ⟨⟨_, herror⟩, _⟩
    exact absurd (PipelineError.stageFailed.inj herror).2.1 (by decide)
  | @transform result reason _ hload htransform =>
    rcases List.mem_cons.mp hbuiltin with rfl | hbuiltin
    · have hkept : transformDisassembly context result binary = .error reason left := htransform
      rw [transformDisassembly_eq] at hkept
      exact iff_of_true (readThenApply_error hkept) (hother reason (by decide))
    rcases List.mem_cons.mp hbuiltin with rfl | hbuiltin
    · have hrows : noReturnRows context binary = result.rows "no_return_call" := by
        unfold noReturnRows
        rw [show noReturn.runLoad context binary none = .ok result from hload]
      have hleft : transformNoReturn context result binary = .error reason left := htransform
      rw [transformNoReturn_error hleft, Binary.cutAll_eq_self_iff, ← hrows]
      constructor
      · rintro hnone ⟨_, hcut⟩
        exact hnone hcut
      · intro hwhole hcut
        exact hwhole ⟨⟨_, rfl⟩, hcut⟩
    · obtain rfl := List.mem_singleton.mp hbuiltin
      have hkept : transformFunctions context result binary = .error reason left := htransform
      rw [transformFunctions_eq] at hkept
      exact iff_of_true (readThenApply_error hkept) (hother reason (by decide))

end AnalysisPass

namespace PassPipeline

def doneCount (pipeline : PassPipeline) : Nat := (pipeline.entries.map Prod.snd).count .done

/-- Whether `kept` is the binary right after the last pass that is done in a run. -/
def IsLastDone (pipeline : PassPipeline) (context : AnalysisContext) (binary kept : Binary) : Prop :=
  let count := (pipeline.run context binary).1.doneCount
  ∃ reports, AnalysisPass.runAll context [] binary (pipeline.passes.take count) =
    { states := List.replicate count .done, binary := kept, outcome := .ok reports }

lemma doneCount_withStates (pipeline : PassPipeline) {states : List PassState}
    (h : states.length = pipeline.passes.length) :
    (pipeline.withStates states).doneCount = states.count .done := by
  unfold doneCount withStates
  rw [List.map_snd_zip (Nat.le_of_eq h)]

variable {pipeline : PassPipeline} {context : AnalysisContext} {binary kept : Binary}

lemma run_of_missing {missing : PipelineError} (h : pipeline.validate = some missing) :
    pipeline.run context binary =
      (pipeline.withStates (pipeline.passes.map fun _ => .pending), binary, .error missing) := by
  rw [run, h]

lemma run_of_valid (h : pipeline.validate = none) :
    pipeline.run context binary =
      (pipeline.withStates (AnalysisPass.runAll context [] binary pipeline.passes).states,
        (AnalysisPass.runAll context [] binary pipeline.passes).binary,
        (AnalysisPass.runAll context [] binary pipeline.passes).outcome.map
          fun passes => { pipeline := pipeline.name, passes }) := by
  rw [run, h]

lemma outcome_runAll_of_run {error : PipelineError} (hvalid : pipeline.validate = none)
    (h : (pipeline.run context binary).2.2 = .error error) :
    (AnalysisPass.runAll context [] binary pipeline.passes).outcome = .error error := by
  rw [run_of_valid hvalid] at h
  cases hout : (AnalysisPass.runAll context [] binary pipeline.passes).outcome with
  | error reason =>
    rw [hout] at h
    exact congrArg Except.error (Except.error.inj h)
  | ok reports =>
    rw [hout] at h
    cases h

lemma isLastDone_of_missing {missing : PipelineError} (h : pipeline.validate = some missing) :
    pipeline.IsLastDone context binary binary := by
  have hcount : (pipeline.run context binary).1.doneCount = 0 := by
    rw [run_of_missing h, pipeline.doneCount_withStates (List.length_map ..)]
    exact List.count_eq_zero.mpr (by simp)
  unfold IsLastDone
  rw [hcount]
  exact ⟨[], rfl⟩

lemma isLastDone_of_states {before after : List AnalysisPass} {pass : AnalysisPass}
    {made : List PassReport} {state : PassState} (hvalid : pipeline.validate = none)
    (hpasses : pipeline.passes = before ++ pass :: after)
    (hbefore : AnalysisPass.runAll context [] binary before =
      { states := List.replicate before.length .done, binary := kept, outcome := .ok made })
    (hstates : (AnalysisPass.runAll context [] binary pipeline.passes).states =
      List.replicate before.length .done ++ state :: after.map fun _ => .pending)
    (hstate : state ≠ .done) : pipeline.IsLastDone context binary kept := by
  have hcount : (pipeline.run context binary).1.doneCount = before.length := by
    rw [run_of_valid hvalid, pipeline.doneCount_withStates (AnalysisPass.length_states_runAll ..),
      hstates, List.count_append, List.count_replicate_self, List.count_cons_of_ne hstate,
      List.count_eq_zero.mpr (by simp), Nat.add_zero]
  unfold IsLastDone
  dsimp only
  rw [hcount, hpasses, List.take_left]
  exact ⟨made, hbefore⟩

end PassPipeline

/-- A failing run leaves the binary as the last pass that is done left it, unless the no-return
analysis fails behind a change. The pipeline may repeat passes and may have run before. -/
theorem failing_run_keeps_last_done_iff (pipeline : PassPipeline)
    (hbuiltin : ∀ pass ∈ pipeline.passes, pass ∈ AnalysisPass.builtin) (context : AnalysisContext)
    (binary : Binary) (error : PipelineError)
    (herror : (pipeline.run context binary).2.2 = .error error) :
    ∃ kept, pipeline.IsLastDone context binary kept ∧
      ((pipeline.run context binary).2.1 = kept ↔ ¬ AnalysisPass.Tears context kept error) := by
  cases hvalid : pipeline.validate with
  | some missing =>
    rw [PassPipeline.run_of_missing hvalid] at herror ⊢
    obtain rfl := Except.error.inj herror
    obtain ⟨pass, dependency, rfl⟩ := AnalysisPass.missing?_eq_some hvalid
    refine ⟨binary, PassPipeline.isLastDone_of_missing hvalid, iff_of_true rfl ?_⟩
    -- a missing dependency is no failure of a stage
    rintro ⟨⟨_, hstage⟩, _⟩
    cases hstage
  | none =>
    obtain ⟨before, pass, after, made, kept, state, left, hpasses, hbefore, hfails, hrun⟩ :=
      AnalysisPass.runAll_error (PassPipeline.outcome_runAll_of_run hvalid herror)
    have hpass : pass ∈ AnalysisPass.builtin := by
      apply hbuiltin
      rw [hpasses]
      exact List.mem_append_right before List.mem_cons_self
    refine ⟨kept, ?_, ?_⟩
    · apply PassPipeline.isLastDone_of_states hvalid hpasses hbefore _ hfails.state_ne_done
      rw [hrun]
    · rw [PassPipeline.run_of_valid hvalid, hrun]
      exact hfails.left_eq_iff hpass

/-! ### A run that tears a binary -/

/-- Rules that derive two blocks with an edge between them, and then a call that does not return
and a malformed one. -/
def tearingRules : RuleBook :=
  RuleBook.empty
    |>.register "disasm_mips32" (modify fun store => store
        |>.insert "block_information" [[.unsigned 4096, .unsigned 4], [.unsigned 4100, .unsigned 4]]
        |>.insert "cfg_edge" [[.unsigned 4096, .unsigned 4100, .symbol "fallthrough"]])
    |>.register "no_return_analysis" (modify fun store => store
        |>.insert "no_return_call" [[.unsigned 4096], [.symbol "bad"]])

def tearingContext : AnalysisContext :=
  { disassemble := fun _ _ _ => none, engine := tearingRules.engine, targets := .builtin }

def tornBinary : Binary := .raw (List.replicate 8 0) .mips32 .big 4096

def tearingPipeline : PassPipeline :=
  { name := "p"
    entries := [(AnalysisPass.disassembly, .pending), (AnalysisPass.noReturn, .pending)] }

theorem failing_run_keeps_last_done_iff_tearing :
    (∀ pass ∈ tearingPipeline.passes, pass ∈ AnalysisPass.builtin) ∧
      (tearingPipeline.run tearingContext tornBinary).2.2 =
        .error (.stageFailed "no return analysis" .transform
          (.malformedRelation "no_return_call" "column 0 is not an address")) ∧
      ∃ kept, tearingPipeline.IsLastDone tearingContext tornBinary kept ∧
        ((tearingPipeline.run tearingContext tornBinary).2.1 = kept ↔
          ¬ AnalysisPass.Tears tearingContext kept
            (.stageFailed "no return analysis" .transform
              (.malformedRelation "no_return_call" "column 0 is not an address"))) := by
  have hbuiltin : ∀ pass ∈ tearingPipeline.passes, pass ∈ AnalysisPass.builtin := by
    intro pass hpass
    rcases List.mem_cons.mp hpass with rfl | hpass
    · exact List.mem_cons_self
    · rw [List.mem_singleton.mp hpass]
      exact List.mem_cons_of_mem _ List.mem_cons_self
  refine ⟨hbuiltin, rfl, ?_⟩
  exact failing_run_keeps_last_done_iff tearingPipeline hbuiltin tearingContext tornBinary _ rfl

/-- The edge goes although the no-return analysis fails, because the malformed row comes second. -/
theorem tearing_run_changes_binary :
    ∃ kept, tearingPipeline.IsLastDone tearingContext tornBinary kept ∧
      kept.flowEdges = [⟨4096, 4100, "fallthrough"⟩] ∧
      (tearingPipeline.run tearingContext tornBinary).2.1.flowEdges = [] ∧
      (tearingPipeline.run tearingContext tornBinary).2.1 ≠ kept ∧
      (tearingPipeline.run tearingContext tornBinary).2.2 =
        .error (.stageFailed "no return analysis" .transform
          (.malformedRelation "no_return_call" "column 0 is not an address")) := by
  let kept := (AnalysisPass.runAll tearingContext [] tornBinary [AnalysisPass.disassembly]).binary
  have hkept : kept.flowEdges = [⟨4096, 4100, "fallthrough"⟩] := by decide +kernel
  have hleft : (tearingPipeline.run tearingContext tornBinary).2.1.flowEdges = [] := by
    decide +kernel
  refine ⟨kept, ⟨_, rfl⟩, hkept, hleft, ?_, rfl⟩
  intro hsame
  rw [← hsame, hleft] at hkept
  cases hkept

end BinaryFacts
