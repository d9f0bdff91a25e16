import BinaryFacts.Analysis.Config
import BinaryFacts.Proofs.LastingChanges
import BinaryFacts.Proofs.LoaderOrder

/-!
# Analysis of an analyzed binary

If the programs of an engine append fixed rows, then whatever a pass loads from a binary it loads
from any other one of the same target. A second run thus repeats the changes of the first, and they
lead back to where it ended.
-/

namespace BinaryFacts

/-! ### Engines whose programs append fixed rows -/

/-- Whether every program appends rows of its own to its store, or fails, whatever the store
holds. -/
def RuleEngine.AppendsFixed (engine : RuleEngine) : Prop :=
  ∀ program, ∃ derived : Except EngineError (List (String × List Row)),
    ∀ store : FactStore, store.program = program →
      match derived with
      | .ok found => engine.run store = .ok () (store.insertAll found)
      | .error error => ∃ left, engine.run store = .error error left

namespace AnalysisPass

/-- Stores of one program fare alike, and agree where they agreed before. -/
lemma evaluate_alike {context : AnalysisContext} (hfixed : context.engine.AppendsFixed)
    {store other derived : FactStore} (hprogram : other.program = store.program)
    (h : evaluate context store = .ok derived) :
    ∃ derived', evaluate context other = .ok derived' ∧ ∀ relation,
      other.rows relation = store.rows relation →
        derived'.rows relation = derived.rows relation := by
  obtain ⟨outcome, houtcome⟩ := hfixed store.program
  have hstore := houtcome store rfl
  have hother := houtcome other hprogram
  unfold evaluate at h ⊢
  cases outcome with
  | error error =>
    obtain ⟨left, hleft⟩ := hstore
    rw [hleft] at h
    cases h
  | ok found =>
    dsimp only at hstore hother
    rw [hstore] at h
    cases h
    rw [hother]
    obtain ⟨added, hadded⟩ := FactStore.Appends.insertAll found
    refine ⟨_, rfl, ?_⟩
    intro relation hsame
    rw [hadded.rows, hadded.rows, hsame]

/-- Whether the engine is run on a store when a pass loads, with nothing but warnings besides. -/
def Evaluates (context : AnalysisContext) (pass : AnalysisPass) (binary : Binary)
    (previous : Option PassResult) (store : FactStore) : Prop :=
  ∃ warnings, pass.runLoad context binary previous = (evaluate context store).map
    fun derived => { pass := pass.name, facts := some derived, warnings }

/-- Whether a pass that loads from one binary loads from any other of the same target, with the same
rows in some relations. -/
def LoadsAlike (context : AnalysisContext) (pass : AnalysisPass) (relations : List String) : Prop :=
  ∀ binary other previous previous' loaded, other.descriptor = binary.descriptor →
    (pass.dependency.isSome → previous'.isSome) →
    pass.runLoad context binary previous = .ok loaded →
      ∃ loaded', pass.runLoad context other previous' = .ok loaded' ∧
        ∀ relation ∈ relations, loaded'.rows relation = loaded.rows relation

variable {context : AnalysisContext} {binary : Binary} {previous : Option PassResult}
  {loaded : PassResult}

lemma Evaluates.alike {pass : AnalysisPass} {other : Binary} {previous' : Option PassResult}
    {store store' : FactStore} {relations : List String}
    (h : Evaluates context pass binary previous store)
    (h' : Evaluates context pass other previous' store') (hfixed : context.engine.AppendsFixed)
    (hload : pass.runLoad context binary previous = .ok loaded)
    (hprogram : store'.program = store.program)
    (hrows : ∀ relation ∈ relations, store'.rows relation = store.rows relation) :
    ∃ loaded', pass.runLoad context other previous' = .ok loaded' ∧
      ∀ relation ∈ relations, loaded'.rows relation = loaded.rows relation := by
  obtain ⟨warnings, hrun⟩ := h
  obtain ⟨warnings', hrun'⟩ := h'
  rw [hrun] at hload
  rw [hrun']
  cases hderived : evaluate context store with
  | error error =>
    rw [hderived] at hload
    cases hload
  | ok derived =>
    rw [hderived] at hload
    cases hload
    obtain ⟨derived', hderived', hsame⟩ := evaluate_alike hfixed hprogram hderived
    rw [hderived']
    exact ⟨_, rfl, fun relation hrelation => hsame relation (hrows relation hrelation)⟩

/-! ### Loads -/

def disassemblyWarnings (binary : Binary) (store : FactStore) : List String :=
  if store.count "instruction" = 0 then ["no instructions decoded for " ++ binary.name] else []

lemma runLoad_disassembly (context : AnalysisContext) (binary : Binary)
    (previous : Option PassResult) :
    disassembly.runLoad context binary previous =
      match context.targets.get? binary.descriptor with
      | none => .error (.target (.unsupported binary.descriptor))
      | some spec =>
        match context.engine.instantiate? spec.program with
        | none => .error (.engineInstantiationFailed spec.program)
        | some fresh =>
          let store := (spec.assemble context.disassemble).populate binary fresh
          (evaluate context store).map fun derived =>
            { pass := disassembly.name, facts := some derived,
              warnings := disassemblyWarnings binary store } := by
  change loadDisassembly context binary previous _ = _
  unfold loadDisassembly TargetRegistry.pipeline disassemblyWarnings
  cases context.targets.get? binary.descriptor with
  | none => rfl
  | some spec =>
    have hload : (spec.assemble context.disassemble).load? context.engine binary =
        (context.engine.instantiate? spec.program).map
          ((spec.assemble context.disassemble).populate binary) := rfl
    simp only [Except.mapError, bind, Except.bind, hload]
    cases context.engine.instantiate? spec.program with
    | none => rfl
    | some fresh =>
      dsimp only [Option.map_some]
      cases evaluate context ((spec.assemble context.disassemble).populate binary fresh) with
      | error error => rfl
      | ok derived =>
        dsimp only [Except.map]
        split <;> rfl

lemma disassembly_evaluates (h : disassembly.runLoad context binary previous = .ok loaded) :
    ∃ (spec : TargetSpec) (fresh : FactStore), ∀ other previous',
      other.descriptor = binary.descriptor → Evaluates context disassembly other previous'
        ((spec.assemble context.disassemble).populate other fresh) := by
  rw [runLoad_disassembly] at h
  cases hspec : context.targets.get? binary.descriptor with
  | none =>
    rw [hspec] at h
    cases h
  | some spec =>
    rw [hspec] at h
    dsimp only at h
    cases hfresh : context.engine.instantiate? spec.program with
    | none =>
      rw [hfresh] at h
      cases h
    | some fresh =>
      refine ⟨spec, fresh, ?_⟩
      intro other previous' htarget
      refine ⟨disassemblyWarnings other
        ((spec.assemble context.disassemble).populate other fresh), ?_⟩
      rw [runLoad_disassembly, htarget, hspec]
      dsimp only
      rw [hfresh]

lemma noReturn_evaluates (h : noReturn.runLoad context binary previous = .ok loaded) :
    ∃ fresh, ∀ other previous',
      Evaluates context noReturn other previous' (submitGraph other fresh) := by
  change loadNoReturn context binary previous _ = _ at h
  unfold loadNoReturn instantiate at h
  cases hfresh : context.engine.instantiate? noReturnRuleset with
  | none =>
    rw [hfresh] at h
    cases h
  | some fresh =>
    refine ⟨fresh, ?_⟩
    intro other previous'
    refine ⟨[], ?_⟩
    change loadNoReturn context other previous' _ = _
    unfold loadNoReturn instantiate
    rw [hfresh]
    change (evaluate context (submitGraph other fresh) >>= fun derived => _) = _
    cases evaluate context (submitGraph other fresh) <;> rfl

lemma functionInference_evaluates
    (h : functionInference.runLoad context binary previous = .ok loaded) :
    ∃ fresh, ∀ other (previous' : PassResult),
      Evaluates context functionInference other (some previous')
        (functionFacts other (previous'.rows "no_return_call") fresh) := by
  change loadFunctions context binary previous _ = _ at h
  unfold loadFunctions instantiate at h
  cases previous with
  | none => cases h
  | some given =>
    cases hfresh : context.engine.instantiate? functionRuleset with
    | none =>
      rw [hfresh] at h
      cases h
    | some fresh =>
      exact ⟨fresh, fun other previous' => ⟨[], runLoad_functionInference hfresh other previous'⟩⟩

/-- No loader appends to the relations that disassembly reads. -/
lemma loadsAlike_disassembly (hfixed : context.engine.AppendsFixed) :
    LoadsAlike context disassembly ["block_information", "cfg_edge", "inferred_symbol"] := by
  intro binary other previous previous' loaded htarget _ hload
  obtain ⟨spec, fresh, hevaluates⟩ := disassembly_evaluates hload
  refine (hevaluates binary previous rfl).alike (hevaluates other previous' htarget) hfixed hload
    ?_ ?_
  · rw [spec.program_populate, spec.program_populate]
  · intro relation hrelation
    have hread : relation ∉ spec.kinds.flatMap LoaderKind.relations := by
      revert relation
      unfold TargetSpec.kinds
      cases spec.container <;> simp [LoaderKind.relations]
    rw [spec.rows_populate _ hread, spec.rows_populate _ hread]

lemma loadsAlike_noReturn (hfixed : context.engine.AppendsFixed) :
    LoadsAlike context noReturn ["no_return_call"] := by
  intro binary other previous previous' loaded _ _ hload
  obtain ⟨fresh, hevaluates⟩ := noReturn_evaluates hload
  refine (hevaluates binary previous).alike (hevaluates other previous') hfixed hload rfl ?_
  intro relation hrelation
  rw [List.mem_singleton.mp hrelation]
  simp [submitGraph]

lemma program_functionFacts (binary : Binary) (calls : List Row) (fresh : FactStore) :
    (functionFacts binary calls fresh).program = fresh.program := by
  unfold functionFacts submitEntryPoint
  cases binary.entryPoint <;> rfl

lemma loadsAlike_functionInference (hfixed : context.engine.AppendsFixed) :
    LoadsAlike context functionInference ["function_entry", "in_function"] := by
  intro binary other previous previous' loaded _ hprevious hload
  obtain ⟨given', rfl⟩ := Option.isSome_iff_exists.mp (hprevious rfl)
  cases previous with
  | none => cases hload
  | some given =>
    obtain ⟨fresh, hevaluates⟩ := functionInference_evaluates hload
    refine (hevaluates binary given).alike (hevaluates other given') hfixed hload ?_ ?_
    · rw [program_functionFacts, program_functionFacts]
    · intro relation hrelation
      simp only [List.mem_cons, List.not_mem_nil, or_false] at hrelation
      rcases hrelation with rfl | rfl <;>
        simp [functionFacts, rows_submitEntryPoint, submitGraph]

/-! ### Runs -/

/-- Whether a pass changes every binary of a target in one way, once it has the result that it may
need. -/
def Acts (context : AnalysisContext) (pass : AnalysisPass) (target : TargetDescriptor)
    (change : Binary → Binary) : Prop :=
  ∀ binary previous, binary.descriptor = target → (pass.dependency.isSome → previous.isSome) →
    ∃ result, pass.runLoad context binary previous = .ok result ∧
      pass.runTransform context result binary = .ok result (change binary)

variable {result : PassResult} {left : Binary}

/-- A pass that loads alike from all binaries of a target changes them alike. -/
lemma acts_of_loadsAlike {α : Type} {pass : AnalysisPass} {relations : List String}
    {read : PassResult → Except PassError α} {change : α → Binary → Binary}
    (halike : LoadsAlike context pass relations)
    (hread : ∀ loaded loaded', (∀ relation ∈ relations,
      loaded'.rows relation = loaded.rows relation) → read loaded' = read loaded)
    (hchanges : ChangesBy pass.runTransform read change)
    (hload : pass.runLoad context binary previous = .ok loaded)
    (htransform : pass.runTransform context loaded binary = .ok result left) :
    ∃ found, Acts context pass binary.descriptor (change found) ∧ left = change found binary := by
  obtain ⟨found, hfound, -, rfl⟩ := hchanges.of_ok htransform
  refine ⟨found, ?_, rfl⟩
  intro other previous' htarget hprevious
  obtain ⟨loaded', hload', hrows⟩ := halike binary other previous previous' loaded htarget
    hprevious hload
  have hchange := hchanges context loaded' other
  rw [hread loaded loaded' hrows, hfound] at hchange
  exact ⟨loaded', hload', hchange⟩

lemma acts_disassembly (hfixed : context.engine.AppendsFixed)
    (hload : disassembly.runLoad context binary previous = .ok loaded)
    (htransform : disassembly.runTransform context loaded binary = .ok result left) :
    ∃ found : Disassembled, Acts context disassembly binary.descriptor found.apply ∧
      left = found.apply binary := by
  refine acts_of_loadsAlike (loadsAlike_disassembly hfixed) ?_ changesBy_disassembly hload
    htransform
  intro loaded loaded' hrows
  unfold Disassembled.ofResult
  rw [hrows _ (by simp), hrows _ (by simp), hrows _ (by simp)]

lemma acts_noReturn (hfixed : context.engine.AppendsFixed)
    (hload : noReturn.runLoad context binary previous = .ok loaded)
    (htransform : noReturn.runTransform context loaded binary = .ok result left) :
    ∃ calls, Acts context noReturn binary.descriptor (·.cutAll calls) ∧
      left = binary.cutAll calls := by
  refine acts_of_loadsAlike (loadsAlike_noReturn hfixed) ?_ changesBy_noReturn hload htransform
  intro loaded loaded' hrows
  unfold readCalls
  rw [hrows _ (by simp)]

lemma acts_functionInference (hfixed : context.engine.AppendsFixed)
    (hload : functionInference.runLoad context binary previous = .ok loaded)
    (htransform : functionInference.runTransform context loaded binary = .ok result left) :
    ∃ found : InferredFunctions, Acts context functionInference binary.descriptor found.apply ∧
      left = found.apply binary := by
  refine acts_of_loadsAlike (loadsAlike_functionInference hfixed) ?_ changesBy_functions hload
    htransform
  intro loaded loaded' hrows
  unfold InferredFunctions.ofResult
  rw [hrows _ (by simp), hrows _ (by simp)]

/-- A second run of the built-in passes ends where the first one did. -/
lemma Completes.again (hfixed : context.engine.AppendsFixed) {made : List PassReport}
    (h : Completes context builtin [] binary made left) :
    ∃ made', Completes context builtin [] left made' left := by
  cases h with | cons hload htransform hrest =>
  obtain ⟨found, hfirst, rfl⟩ := acts_disassembly hfixed hload htransform
  cases hrest with | cons hload htransform hrest =>
  obtain ⟨calls, hsecond, rfl⟩ := acts_noReturn hfixed hload htransform
  cases hrest with | cons hload htransform hrest =>
  obtain ⟨inferred, hthird, rfl⟩ := acts_functionInference hfixed hload htransform
  cases hrest
  have htarget : ∀ other, (found.apply other).descriptor = other.descriptor := fun other =>
    Binary.descriptor_eq_of_image (evolves_disassembled found other).image
  obtain ⟨hcut, hinferred⟩ := results_again found calls inferred binary
  generalize hleft : inferred.apply ((found.apply binary).cutAll calls) = left at hcut hinferred
  have hsame : left.descriptor = binary.descriptor := by
    rw [← hleft]
    exact (Binary.descriptor_eq_of_image (evolves_inferredFunctions inferred _).image).trans
      (htarget binary)
  have hdisassembled : (found.apply left).descriptor = (found.apply binary).descriptor := by
    rw [htarget, htarget, hsame]
  have hcalled : ((found.apply left).cutAll calls).descriptor =
      ((found.apply binary).cutAll calls).descriptor := by
    rw [hcut, hsame]
    exact (htarget binary).symm
  obtain ⟨disassembled, hload₁, htransform₁⟩ := hfirst left none hsame (fun h => h)
  obtain ⟨called, hload₂, htransform₂⟩ :=
    hsecond (found.apply left) (some disassembled) hdisassembled (fun _ => rfl)
  obtain ⟨entered, hload₃, htransform₃⟩ :=
    hthird ((found.apply left).cutAll calls) (some called) hcalled (fun _ => rfl)
  change noReturn.runTransform context called _ = .ok called ((found.apply left).cutAll calls)
    at htransform₂
  -- the binaries of the two runs differ between disassembly and the cut only
  rw [hcut] at htransform₂ hload₃ htransform₃
  rw [hinferred] at htransform₃
  exact ⟨_, .cons hload₁ htransform₁ (.cons hload₂ htransform₂ (.cons hload₃ htransform₃
    (.nil _ _)))⟩

end AnalysisPass

open AnalysisPass

lemma PassPipeline.run_of_completes {pipeline : PassPipeline} {context : AnalysisContext}
    {binary left : Binary} {passes : List PassReport} (hvalid : pipeline.validate = none)
    (h : Completes context pipeline.passes [] binary passes left) :
    pipeline.run context binary =
      (pipeline.withStates (pipeline.passes.map fun _ => .done), left,
        .ok { pipeline := pipeline.name, passes }) := by
  rw [run_of_valid hvalid, h.runAll_eq]
  rfl

/-- If the programs append fixed rows, a run of all built-in passes on a binary that such a run left
succeeds and leaves it as it is. Each transform, run once more with its result, does nothing. -/
theorem analysis_again_changes_nothing :
    (∀ context : AnalysisContext, context.engine.AppendsFixed →
      ∀ pipeline, PipelineConfig.standard.build = .ok pipeline →
        ∀ binary report, (pipeline.run context binary).2.2 = .ok report →
          let left := (pipeline.run context binary).2.1
          ∀ again : PassPipeline, again.passes = pipeline.passes →
            ∃ passes, again.run context left =
              (again.withStates (again.passes.map fun _ => .done), left,
                .ok { pipeline := again.name, passes })) ∧
    ∀ pass ∈ builtin, ∀ context result, Repeatable (pass.runTransform context result) := by
  refine ⟨?_, fun pass hpass => repeatable_of_mem_builtin hpass⟩
  intro context hfixed pipeline hbuild binary report hreport left again hagain
  have hpasses : pipeline.passes = builtin := by
    cases hbuild
    rfl
  have hcompletes := PassPipeline.completes_of_run hreport
  rw [hpasses] at hcompletes hagain
  obtain ⟨made, hmade⟩ := hcompletes.again hfixed
  have hvalid : again.validate = none := by
    rw [PassPipeline.validate, hagain]
    rfl
  refine ⟨made, PassPipeline.run_of_completes hvalid ?_⟩
  rw [hagain]
  exact hmade

/-! ### Books of fixed programs -/

/-- Whether every program of a book appends rows of its own. -/
def RuleBook.Fixed (book : RuleBook) : Prop :=
  ∀ name rules, book.programs.get? name = some rules →
    ∃ found, ∀ store : FactStore, rules store = .ok () (store.insertAll found)

namespace RuleBook

lemma fixed_empty : empty.Fixed := by
  intro name rules h
  cases h

lemma Fixed.register {book : RuleBook} (h : book.Fixed) (name : String)
    (found : List (String × List Row)) :
    (book.register name (modify (·.insertAll found))).Fixed := by
  intro other rules hrules
  change (book.programs.insert name _).get? other = some rules at hrules
  rw [OrderedMap.get?_insert] at hrules
  split at hrules
  · cases hrules
    exact ⟨found, fun _ => rfl⟩
  · exact h other rules hrules

lemma Fixed.appendsFixed {book : RuleBook} (h : book.Fixed) : book.engine.AppendsFixed := by
  intro program
  cases hrules : book.programs.get? program with
  | none =>
    refine ⟨.error (.unknownProgram program), ?_⟩
    rintro store rfl
    rw [run_engine, hrules]
    exact ⟨store, rfl⟩
  | some rules =>
    obtain ⟨found, hfound⟩ := h program rules hrules
    refine ⟨.ok found, ?_⟩
    rintro store rfl
    dsimp only
    rw [run_engine, hrules]
    exact hfound store

end RuleBook

/-- Rules that derive two blocks with an edge between them, a call in the first block that does not
return, and a function of both blocks. -/
def inferringRules : RuleBook :=
  RuleBook.empty
    |>.register "disasm_mips32" (modify (·.insertAll
        [("block_information", [[.unsigned 4096, .unsigned 4], [.unsigned 4100, .unsigned 4]]),
          ("cfg_edge", [[.unsigned 4096, .unsigned 4100, .symbol "fallthrough"]])]))
    |>.register "no_return_analysis"
        (modify (·.insertAll [("no_return_call", [[.unsigned 4096]])]))
    |>.register "function_inference" (modify (·.insertAll
        [("function_entry", [[.unsigned 4096]]),
          ("in_function", [[.unsigned 4096, .unsigned 4096], [.unsigned 4100, .unsigned 4096]])]))

def inferringContext : AnalysisContext :=
  { disassemble := fun _ _ _ => none, engine := inferringRules.engine, targets := .builtin }

theorem analysis_again_changes_nothing_two_blocks :
    inferringContext.engine.AppendsFixed ∧
      (∃ pipeline report passes,
        PipelineConfig.standard.build = .ok pipeline ∧
        (pipeline.run inferringContext tornBinary).2.2 = .ok report ∧
        let left := (pipeline.run inferringContext tornBinary).2.1
        left.codeBlocks.keys = [4096, 4100] ∧ left.flowEdges = [] ∧
        left.functions.values = [{ entry := 4096, blocks := [4096, 4100] }] ∧
        left.symbols.map (·.name) = ["FUN_1000"] ∧
        pipeline.run inferringContext left =
          (pipeline.withStates (pipeline.passes.map fun _ => .done), left,
            .ok { pipeline := pipeline.name, passes })) ∧
      noReturn ∈ builtin ∧
      Repeatable (noReturn.runTransform inferringContext { pass := noReturn.name }) := by
  have hfixed : inferringContext.engine.AppendsFixed :=
    (((RuleBook.fixed_empty.register _ _).register _ _).register _ _).appendsFixed
  obtain ⟨hruns, htransforms⟩ := analysis_again_changes_nothing
  obtain ⟨pipeline, report, hbuild, hreport, hblocks, hedges, hfunctions, hsymbols⟩ :
      ∃ pipeline report, PipelineConfig.standard.build = .ok pipeline ∧
        (pipeline.run inferringContext tornBinary).2.2 = .ok report ∧
        (pipeline.run inferringContext tornBinary).2.1.codeBlocks.keys = [4096, 4100] ∧
        (pipeline.run inferringContext tornBinary).2.1.flowEdges = [] ∧
        (pipeline.run inferringContext tornBinary).2.1.functions.values =
          [{ entry := 4096, blocks := [4096, 4100] }] ∧
        (pipeline.run inferringContext tornBinary).2.1.symbols.map (·.name) = ["FUN_1000"] :=
    ⟨_, _, rfl, rfl, by decide +kernel⟩
  obtain ⟨passes, hagain⟩ :=
    hruns inferringContext hfixed pipeline hbuild tornBinary report hreport pipeline rfl
  have hnoReturn : noReturn ∈ builtin := by simp [builtin]
  exact ⟨hfixed, ⟨pipeline, report, passes, hbuild, hreport, hblocks, hedges, hfunctions, hsymbols,
    hagain⟩, hnoReturn, htransforms noReturn hnoReturn inferringContext _⟩

end BinaryFacts
