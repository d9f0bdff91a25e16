import BinaryFacts.Proofs.AcceptedConfigs

/-!
# Results of dependencies

A pass is handed the first result that its dependency made in the run. Where the dependency ran
again in between, its latest result may be another one, and then the pass works with calls that do
not belong to the graph that it sees.
-/

namespace BinaryFacts

open AnalysisPass

namespace AnalysisPass

/-- Whether a pass makes a result when it runs behind other passes. -/
def Makes (context : AnalysisContext) (binary : Binary) (before : List AnalysisPass)
    (pass : AnalysisPass) (result : PassResult) : Prop :=
  ∃ made kept loaded changed, Completes context before [] binary made kept ∧
    pass.runLoad context kept (pass.previous? made) = .ok loaded ∧
    pass.runTransform context loaded kept = .ok result changed

/-- The result of the first of some passes that has a name. -/
def FirstMade (context : AnalysisContext) (binary : Binary) (before : List AnalysisPass)
    (name : String) (result : PassResult) : Prop :=
  ∃ earlier pass later, before = earlier ++ pass :: later ∧ pass.name = name ∧
    (∀ other ∈ earlier, other.name ≠ name) ∧ Makes context binary earlier pass result

/-- The result of the last of some passes that has a name. -/
def LatestMade (context : AnalysisContext) (binary : Binary) (before : List AnalysisPass)
    (name : String) (result : PassResult) : Prop :=
  ∃ earlier pass later, before = earlier ++ pass :: later ∧ pass.name = name ∧
    (∀ other ∈ later, other.name ≠ name) ∧ Makes context binary earlier pass result

/-- The report of a pass is where the pass is, and tells what the pass made there. -/
lemma Completes.report_at {context : AnalysisContext} {earlier later : List AnalysisPass}
    {pass : AnalysisPass} {binary left : Binary} {made : List PassReport}
    (h : Completes context (earlier ++ pass :: later) [] binary made left) :
    ∃ before result after, made = before ++ pass.report result :: after ∧
      before.map (·.name) = earlier.map (·.name) ∧ after.map (·.name) = later.map (·.name) ∧
      Makes context binary earlier pass result := by
  obtain ⟨before, kept, hearlier, hrest⟩ := h.append
  obtain ⟨_, rfl, hbefore⟩ := hearlier.exists_append
  cases hrest with
  | @cons _ _ _ _ _ changed _ loaded result hload htransform hlater =>
    obtain ⟨after, rfl, hafter⟩ := hlater.exists_append
    exact ⟨_, result, after, List.append_assoc .., hbefore, hafter, _, kept, loaded, changed,
      hearlier, hload, htransform⟩

lemma exists_first {passes : List AnalysisPass} {name : String}
    (h : ∃ pass ∈ passes, pass.name = name) :
    ∃ earlier pass later, passes = earlier ++ pass :: later ∧ pass.name = name ∧
      ∀ other ∈ earlier, other.name ≠ name := by
  have hfound : (passes.find? (·.name == name)).isSome := by simpa using h
  obtain ⟨pass, hpass⟩ := Option.isSome_iff_exists.mp hfound
  obtain ⟨hname, earlier, later, hsplit, hearlier⟩ := List.find?_eq_some_iff_append.mp hpass
  exact ⟨earlier, pass, later, hsplit, by simpa using hname, by simpa using hearlier⟩

lemma exists_last {passes : List AnalysisPass} {name : String}
    (h : ∃ pass ∈ passes, pass.name = name) :
    ∃ earlier pass later, passes = earlier ++ pass :: later ∧ pass.name = name ∧
      ∀ other ∈ later, other.name ≠ name := by
  have hreversed : ∃ pass ∈ passes.reverse, pass.name = name := by simpa using h
  obtain ⟨later, pass, earlier, hsplit, hname, hlater⟩ := exists_first hreversed
  refine ⟨earlier.reverse, pass, later.reverse, ?_, hname, by simpa using hlater⟩
  rw [← List.reverse_reverse passes, hsplit]
  simp

variable {context : AnalysisContext} {binary left : Binary} {passes : List AnalysisPass}
  {made : List PassReport} {name : String}

lemma Completes.exists_firstMade (h : Completes context passes [] binary made left)
    (hname : ∃ pass ∈ passes, pass.name = name) :
    ∃ first, FirstMade context binary passes name first ∧
      (made.find? (·.name == name)).map (·.result) = some first := by
  obtain ⟨earlier, pass, later, rfl, rfl, hearlier⟩ := exists_first hname
  obtain ⟨before, first, after, rfl, hbefore, -, hmakes⟩ := h.report_at
  refine ⟨first, ⟨earlier, pass, later, rfl, rfl, hearlier, hmakes⟩, ?_⟩
  have hnone : before.find? (·.name == pass.name) = none := by
    rw [List.find?_eq_none]
    intro report hreport hsame
    have hmem : report.name ∈ earlier.map (·.name) := by
      rw [← hbefore]
      exact List.mem_map_of_mem hreport
    obtain ⟨other, hother, hotherName⟩ := List.mem_map.mp hmem
    exact hearlier other hother (hotherName.trans (beq_iff_eq.mp hsame))
  have hthis : ((pass.report first).name == pass.name) = true := beq_self_eq_true pass.name
  rw [List.find?_append, hnone, Option.none_or, List.find?_cons, hthis]
  rfl

lemma Completes.exists_latestMade (h : Completes context passes [] binary made left)
    (hname : ∃ pass ∈ passes, pass.name = name) :
    ∃ latest, LatestMade context binary passes name latest := by
  obtain ⟨earlier, pass, later, rfl, hpass, hlater⟩ := exists_last hname
  obtain ⟨_, latest, _, _, _, _, hmakes⟩ := h.report_at
  exact ⟨latest, earlier, pass, later, rfl, hpass, hlater, hmakes⟩

lemma Completes.unique {reports made' : List PassReport} {left' : Binary}
    (h : Completes context passes reports binary made left)
    (h' : Completes context passes reports binary made' left') : made = made' ∧ left = left' := by
  induction h with
  | nil =>
    cases h'
    exact ⟨rfl, rfl⟩
  | cons hload htransform hrest ih =>
    cases h' with
    | cons hload' htransform' hrest' =>
      rw [hload] at hload'
      obtain rfl := Except.ok.inj hload'
      rw [htransform] at htransform'
      obtain ⟨rfl, rfl⟩ := EStateM.Result.ok.inj htransform'
      exact ih hrest'

lemma Makes.unique {pass : AnalysisPass} {result result' : PassResult}
    (h : Makes context binary passes pass result) (h' : Makes context binary passes pass result') :
    result = result' := by
  obtain ⟨made, kept, loaded, changed, hcompletes, hload, htransform⟩ := h
  obtain ⟨made', kept', loaded', changed', hcompletes', hload', htransform'⟩ := h'
  obtain ⟨rfl, rfl⟩ := hcompletes.unique hcompletes'
  rw [hload] at hload'
  obtain rfl := Except.ok.inj hload'
  rw [htransform] at htransform'
  exact (EStateM.Result.ok.inj htransform').1

/-- A pass that ran once made its first and its latest result at the same place. -/
lemma FirstMade.eq_latest {first latest : PassResult}
    (hfirst : FirstMade context binary passes name first)
    (hlatest : LatestMade context binary passes name latest)
    (honce : (passes.map (·.name)).count name = 1) : first = latest := by
  obtain ⟨earlier, pass, later, rfl, rfl, hearlier, hmakes⟩ := hfirst
  obtain ⟨earlier', pass', later', hsplit, hname, -, hmakes'⟩ := hlatest
  rcases PipelineConfig.places_cases hsplit with ⟨rfl, rfl⟩ | ⟨between, rfl⟩ | ⟨between, rfl⟩
  · exact hmakes.unique hmakes'
  · -- the name would stand at both places
    rw [hsplit] at honce
    simp only [List.map_append, List.map_cons, List.count_append, hname,
      List.count_cons_self] at honce
    omega
  · exact absurd hname (hearlier pass' (by simp))

end AnalysisPass

/-- What a pass of an accepted pipeline is handed: without a dependency the result of the pass just
before it, and otherwise the first result that its dependency made. That is the latest one if the
dependency ran once, and otherwise only if both results are equal. Function inference submits the
calls of the result that it is handed. -/
theorem first_result_is_handed_on (config : PipelineConfig) (pipeline : PassPipeline)
    (hbuild : config.build = .ok pipeline) (before after : List AnalysisPass) (pass : AnalysisPass)
    (hpasses : pipeline.passes = before ++ pass :: after) (context : AnalysisContext)
    (binary : Binary) (made : List PassReport)
    (hmade : (runAll context [] binary before).outcome = .ok made) :
    (pass.dependency = none →
      before = [] ∧ pass.previous? made = none ∨
        ∃ earlier last result, before = earlier ++ [last] ∧
          Makes context binary earlier last result ∧ pass.previous? made = some result) ∧
    ∀ dependency, pass.dependency = some dependency →
      ∃ first latest, FirstMade context binary before dependency first ∧
        LatestMade context binary before dependency latest ∧ pass.previous? made = some first ∧
        (pass.previous? made = some latest ↔ first = latest) ∧
        ((before.map (·.name)).count dependency = 1 → first = latest) ∧
        ∀ fresh, pass = functionInference →
          context.engine.instantiate? functionRuleset = some fresh →
          let kept := (runAll context [] binary before).binary
          ∃ store,
            (∀ other, pass.HandsOver context kept (pass.previous? made) other ↔ other = store) ∧
            Shows kept (first.rows "no_return_call") fresh store ∧
            (Shows kept (latest.rows "no_return_call") fresh store ↔
              first.rows "no_return_call" = latest.rows "no_return_call") := by
  have hcompletes := completes_of_runAll hmade
  constructor
  · intro hnone
    rcases List.eq_nil_or_concat' before with rfl | ⟨earlier, last, rfl⟩
    · cases hcompletes
      refine .inl ⟨rfl, ?_⟩
      rw [previous?, hnone]
      rfl
    · obtain ⟨reports, result, rest, rfl, -, hrest, hmakes⟩ := hcompletes.report_at
      obtain rfl := List.map_eq_nil_iff.mp hrest
      refine .inr ⟨earlier, last, result, rfl, hmakes, ?_⟩
      rw [previous?, hnone, List.getLast?_append]
      rfl
  · intro dependency hdependency
    obtain ⟨-, -, hmet, -⟩ := PipelineConfig.of_build hbuild
    have hname := hmet before pass after hpasses dependency hdependency
    obtain ⟨first, hfirst, hfind⟩ := hcompletes.exists_firstMade hname
    obtain ⟨latest, hlatest⟩ := hcompletes.exists_latestMade hname
    have hprevious : pass.previous? made = some first := by
      rw [previous?, hdependency]
      exact hfind
    refine ⟨first, latest, hfirst, hlatest, hprevious, ?_, hfirst.eq_latest hlatest, ?_⟩
    · rw [hprevious, Option.some.injEq]
    · rintro fresh rfl hfresh kept
      have hshows := shows_functionFacts kept (first.rows "no_return_call") fresh
      rw [hprevious]
      refine ⟨_, handsOver_functionFacts_iff hfresh kept first, hshows, ?_⟩
      constructor
      · intro hlatestShows
        exact List.append_cancel_left (hshows.calls.symm.trans hlatestShows.calls)
      · intro hsame
        rw [← hsame]
        exact hshows

/-! ### An analysis that runs twice -/

/-- Rules that derive three blocks through which control falls, then calls in the blocks that
control falls into, and then functions at these calls. -/
def fallingRules : RuleBook :=
  RuleBook.empty
    |>.register "disasm_mips32" (modify fun store => store
        |>.insert "block_information" [[.unsigned 4096, .unsigned 4], [.unsigned 4100, .unsigned 4],
          [.unsigned 4104, .unsigned 4]]
        |>.insert "cfg_edge" [[.unsigned 4096, .unsigned 4100, .symbol "fallthrough"],
          [.unsigned 4100, .unsigned 4104, .symbol "fallthrough"]])
    |>.register "no_return_analysis" (modify fun store =>
        store.insert "no_return_call" ((store.rows "cfg_edge").map fun row => row[1]?.toList))
    |>.register "function_inference" (modify fun store =>
        store.insert "function_entry" (store.rows "no_return_call"))

def fallingContext : AnalysisContext :=
  { disassemble := fun _ _ _ => none, engine := fallingRules.engine, targets := .builtin }

def threeBlocks : Binary := .raw (List.replicate 12 0) .mips32 .big 4096

def analyzeTwice : PipelineConfig :=
  { name := "p"
    passes := ["disassembly", "no return analysis", "no return analysis", "function inference"] }

theorem first_result_is_handed_on_twice :
    ∃ pipeline made,
      analyzeTwice.build = .ok pipeline ∧
      pipeline.passes = [] ++ disassembly :: [noReturn, noReturn, functionInference] ∧
      pipeline.passes = [disassembly, noReturn, noReturn] ++ functionInference :: [] ∧
      (runAll fallingContext [] threeBlocks []).outcome = .ok [] ∧
      (runAll fallingContext [] threeBlocks [disassembly, noReturn, noReturn]).outcome = .ok made ∧
      disassembly.dependency = none ∧ disassembly.previous? [] = none ∧
      functionInference.dependency = some noReturn.name ∧
      fallingContext.engine.instantiate? functionRuleset = some (.new functionRuleset) ∧
      let before := [disassembly, noReturn, noReturn]
      ∃ first latest, FirstMade fallingContext threeBlocks before noReturn.name first ∧
        LatestMade fallingContext threeBlocks before noReturn.name latest ∧
        (functionInference.previous? made = some latest ↔ first = latest) ∧
        ∃ store, Shows (runAll fallingContext [] threeBlocks before).binary
          (first.rows "no_return_call") (.new functionRuleset) store := by
  obtain ⟨pipeline, hbuild, hpasses⟩ : ∃ pipeline, analyzeTwice.build = .ok pipeline ∧
      pipeline.passes = [disassembly, noReturn, noReturn] ++ functionInference :: [] :=
    ⟨_, rfl, rfl⟩
  obtain ⟨made, hmade⟩ : ∃ made,
      (runAll fallingContext [] threeBlocks [disassembly, noReturn, noReturn]).outcome =
        .ok made := ⟨_, rfl⟩
  obtain ⟨hfree, -⟩ := first_result_is_handed_on analyzeTwice pipeline hbuild []
    [noReturn, noReturn, functionInference] disassembly hpasses fallingContext threeBlocks [] rfl
  obtain ⟨-, hbound⟩ := first_result_is_handed_on analyzeTwice pipeline hbuild
    [disassembly, noReturn, noReturn] [] functionInference hpasses fallingContext threeBlocks made
    hmade
  have hnone : disassembly.previous? [] = none := by
    rcases hfree rfl with ⟨-, hnone⟩ | ⟨earlier, last, _, hsplit, -⟩
    · exact hnone
    · cases earlier <;> cases hsplit
  obtain ⟨first, latest, hfirst, hlatest, -, hiff, -, hstore⟩ := hbound noReturn.name rfl
  obtain ⟨store, -, hshows, -⟩ := hstore (.new functionRuleset) rfl rfl
  exact ⟨pipeline, made, hbuild, hpasses, hpasses, rfl, hmade, rfl, hnone, rfl, rfl, first, latest,
    hfirst, hlatest, hiff, store, hshows⟩

/-- The first analysis finds a call in the last block and cuts the edge that led there, so that the
second one does not find it. Function inference is handed the call all the same. -/
theorem latest_result_is_not_handed_on :
    ∃ pipeline made first latest,
      analyzeTwice.build = .ok pipeline ∧
      pipeline.passes = [disassembly, noReturn, noReturn] ++ functionInference :: [] ∧
      (runAll fallingContext [] threeBlocks [disassembly, noReturn, noReturn]).outcome = .ok made ∧
      FirstMade fallingContext threeBlocks [disassembly, noReturn, noReturn] noReturn.name first ∧
      LatestMade fallingContext threeBlocks [disassembly, noReturn, noReturn] noReturn.name latest ∧
      first.rows "no_return_call" = [[.unsigned 4100], [.unsigned 4104]] ∧
      latest.rows "no_return_call" = [[.unsigned 4100]] ∧
      functionInference.dependency = some noReturn.name ∧
      functionInference.previous? made = some first ∧
      functionInference.previous? made ≠ some latest ∧
      (pipeline.run fallingContext threeBlocks).2.1.functions.keys = [4100, 4104] := by
  obtain ⟨pipeline, hbuild, hpasses, hfunctions⟩ : ∃ pipeline,
      analyzeTwice.build = .ok pipeline ∧
        pipeline.passes = [disassembly, noReturn, noReturn] ++ functionInference :: [] ∧
        (pipeline.run fallingContext threeBlocks).2.1.functions.keys = [4100, 4104] :=
    ⟨_, rfl, rfl, by decide +kernel⟩
  obtain ⟨made, first, hmade, hprevious, hfirst, hfirstRows⟩ : ∃ made first,
      (runAll fallingContext [] threeBlocks [disassembly, noReturn, noReturn]).outcome = .ok made ∧
        functionInference.previous? made = some first ∧
        Makes fallingContext threeBlocks [disassembly] noReturn first ∧
        first.rows "no_return_call" = [[.unsigned 4100], [.unsigned 4104]] :=
    ⟨_, _, rfl, rfl, ⟨_, _, _, _, completes_of_runAll rfl, rfl, rfl⟩, rfl⟩
  obtain ⟨latest, hlatest, hlatestRows⟩ : ∃ latest,
      Makes fallingContext threeBlocks [disassembly, noReturn] noReturn latest ∧
        latest.rows "no_return_call" = [[.unsigned 4100]] :=
    ⟨_, ⟨_, _, _, _, completes_of_runAll rfl, rfl, rfl⟩, rfl⟩
  refine ⟨pipeline, made, first, latest, hbuild, hpasses, hmade, ?_, ?_, hfirstRows, hlatestRows,
    rfl, hprevious, ?_, hfunctions⟩
  · refine ⟨[disassembly], noReturn, [noReturn], rfl, rfl, ?_, hfirst⟩
    exact List.forall_mem_singleton.mpr (by decide)
  · exact ⟨[disassembly, noReturn], noReturn, [], rfl, rfl, by simp, hlatest⟩
  · rw [hprevious, ne_eq, Option.some.injEq]
    rintro rfl
    rw [hfirstRows] at hlatestRows
    cases hlatestRows

end BinaryFacts
