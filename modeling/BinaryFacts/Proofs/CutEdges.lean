import BinaryFacts.Proofs.FailingRuns

/-!
# Edges that stay cut

The no-return analysis hands on what it finds in two ways: it cuts edges of the binary, and its rows
go to function inference. No later pass puts an edge back, so the two agree wherever function
inference loads, and at the end of the run.
-/

namespace BinaryFacts

/-- Whether one of the rows is just the address of a block. -/
def ListsBlock (rows : List Row) (block : UInt64) : Prop :=
  ∃ value, [value] ∈ rows ∧ value.unsigned? = some block

namespace Binary

/-- Whether control falls through out of no block that the rows list. -/
def CutBehind (binary : Binary) (calls : List Row) : Prop :=
  ∀ block, ListsBlock calls block →
    ∀ edge ∈ binary.flowEdges, edge.source = block → edge.kind ≠ "fallthrough"

lemma cutBehind_cutAll {calls : List Row} {blocks : List UInt64}
    (h : ∀ block, ListsBlock calls block → block ∈ blocks) (binary : Binary) :
    (binary.cutAll blocks).CutBehind calls := by
  intro block hlisted edge hedge hsource hkind
  have hkept : (!leavesOneOf blocks edge) = true := (List.mem_filter.mp hedge).2
  have hleaves : leavesOneOf blocks edge = true := by
    rw [leavesOneOf_iff, hsource]
    exact ⟨hkind, h block hlisted⟩
  rw [hleaves] at hkept
  cases hkept

/-- The blocks of a binary and the edges between them. -/
def flow (binary : Binary) : OrderedMap UInt64 CodeBlock × List FlowEdge :=
  (binary.codeBlocks, binary.flowEdges)

lemma flow_foldl {α : Type} {change : Binary → α → Binary}
    (h : ∀ binary item, (change binary item).flow = binary.flow) (items : List α)
    (binary : Binary) : (items.foldl change binary).flow = binary.flow := by
  refine List.foldlRecOn (motive := fun current => current.flow = binary.flow)
    items change rfl ?_
  intro current hcurrent item hitem
  exact (h current item).trans hcurrent

lemma flow_assignBlock (binary : Binary) (entry block : UInt64) :
    (binary.assignBlock entry block).flow = binary.flow := rfl

lemma flow_addSymbol (binary : Binary) (symbol : Symbol) :
    (binary.addSymbol symbol).flow = binary.flow := by
  unfold addSymbol
  split <;> rfl

end Binary

namespace AnalysisPass

/-! ### Runs that succeed -/

/-- How passes lead from some reports and a binary to others when no stage fails. -/
inductive Completes (context : AnalysisContext) :
    List AnalysisPass → List PassReport → Binary → List PassReport → Binary → Prop where
  | nil (reports : List PassReport) (binary : Binary) :
      Completes context [] reports binary reports binary
  | cons {pass : AnalysisPass} {rest : List AnalysisPass} {reports made : List PassReport}
      {binary changed left : Binary} {loaded result : PassResult}
      (hload : pass.runLoad context binary (pass.previous? reports) = .ok loaded)
      (htransform : pass.runTransform context loaded binary = .ok result changed)
      (hrest : Completes context rest (reports ++ [pass.report result]) changed made left) :
      Completes context (pass :: rest) reports binary made left

lemma completes_of_runAll {context : AnalysisContext} {passes : List AnalysisPass}
    {reports made : List PassReport} {binary : Binary}
    (h : (runAll context reports binary passes).outcome = .ok made) :
    Completes context passes reports binary made (runAll context reports binary passes).binary := by
  induction passes generalizing reports binary with
  | nil =>
    cases h
    exact .nil _ _
  | cons pass rest ih =>
    rw [runAll] at h ⊢
    cases hload : pass.runLoad context binary (pass.previous? reports) with
    | error error =>
      rw [hload] at h
      cases h
    | ok loaded =>
      rw [hload] at h
      dsimp only at h ⊢
      cases htransform : pass.runTransform context loaded binary with
      | error error left =>
        rw [htransform] at h
        cases h
      | ok result changed =>
        rw [htransform] at h
        exact .cons hload htransform (ih h)

namespace Completes

variable {context : AnalysisContext} {reports made : List PassReport} {binary left : Binary}

lemma runAll_eq {passes : List AnalysisPass}
    (h : Completes context passes reports binary made left) :
    runAll context reports binary passes =
      { states := passes.map fun _ => .done, binary := left, outcome := .ok made } := by
  induction h with
  | nil => rfl
  | cons hload htransform hrest ih =>
    rw [runAll, hload]
    dsimp only
    rw [htransform]
    dsimp only
    rw [ih]
    rfl

lemma append {first second : List AnalysisPass}
    (h : Completes context (first ++ second) reports binary made left) :
    ∃ between kept, Completes context first reports binary between kept ∧
      Completes context second between kept made left := by
  induction first generalizing reports binary with
  | nil => exact ⟨reports, binary, .nil reports binary, h⟩
  | cons pass first ih =>
    cases h with
    | cons hload htransform hrest =>
      obtain ⟨between, kept, hfirst, hsecond⟩ := ih hrest
      exact ⟨between, kept, .cons hload htransform hfirst, hsecond⟩

/-- Passes report under their own names. -/
lemma filter_of_ne {passes : List AnalysisPass} {name : String}
    (h : Completes context passes reports binary made left)
    (hname : ∀ pass ∈ passes, pass.name ≠ name) :
    made.filter (·.name == name) = reports.filter (·.name == name) := by
  induction h with
  | nil => rfl
  | @cons pass rest reports made binary changed left loaded result hload htransform hrest ih =>
    have hother : ((pass.report result).name == name) = false :=
      beq_eq_false_iff_ne.mpr (hname pass List.mem_cons_self)
    have hthis : [pass.report result].filter (·.name == name) = [] := by
      rw [List.filter_cons_of_neg (by rw [hother]; exact Bool.false_ne_true), List.filter_nil]
    rw [ih fun other hmem => hname other (List.mem_cons_of_mem pass hmem), List.filter_append,
      hthis, List.append_nil]

end Completes

/-! ### The no-return analysis -/

lemma readAddress_singleton {value : Value} {block : UInt64} (h : value.unsigned? = some block)
    (relation : String) : readAddress relation [value] = .ok block := by
  have haddress : addressAt relation [value] 0 = .ok block := by
    unfold addressAt
    rw [List.getElem?_cons_zero, Option.bind_some, h]
  exact haddress

lemma mem_of_readCalls {result : PassResult} {calls : List UInt64} {block : UInt64}
    (h : readCalls result = .ok calls)
    (hlisted : ListsBlock (result.rows "no_return_call") block) : block ∈ calls := by
  unfold readCalls at h
  obtain ⟨address, hmem, hblock⟩ := hlisted
  generalize result.rows "no_return_call" = rows at h hmem
  induction rows generalizing calls with
  | nil => cases hmem
  | cons row rows ih =>
    rw [List.mapM_cons] at h
    cases hread : readAddress "no_return_call" row with
    | error reason =>
      rw [hread] at h
      cases h
    | ok named =>
      rw [hread] at h
      cases hrest : rows.mapM (readAddress "no_return_call") with
      | error reason =>
        rw [hrest] at h
        cases h
      | ok others =>
        rw [hrest] at h
        cases h
        rcases List.mem_cons.mp hmem with rfl | hmem
        · rw [readAddress_singleton hblock] at hread
          rw [Except.ok.inj hread]
          exact List.mem_cons_self
        · exact List.mem_cons_of_mem named (ih hrest hmem)

lemma cutBehind_of_runTransform {context : AnalysisContext} {loaded result : PassResult}
    {binary left : Binary} (h : noReturn.runTransform context loaded binary = .ok result left) :
    left.CutBehind (result.rows "no_return_call") := by
  obtain ⟨calls, hread, rfl, rfl⟩ := changesBy_noReturn.of_ok h
  exact binary.cutBehind_cutAll fun block => mem_of_readCalls hread

/-! ### Function inference -/

lemma flow_enterFunction (binary : Binary) (entry : UInt64) :
    (enterFunction binary entry).flow = binary.flow := by
  unfold enterFunction
  dsimp only
  split
  · rfl
  · exact Binary.flow_addSymbol _ _

lemma flow_inferredFunctions (found : InferredFunctions) (binary : Binary) :
    (found.apply binary).flow = binary.flow := by
  have hentries := Binary.flow_foldl flow_enterFunction found.entries binary
  have hmembers := Binary.flow_foldl (fun binary (member : UInt64 × UInt64) =>
    binary.flow_assignBlock member.2 member.1) found.members
  exact (hmembers _).trans hentries

lemma flowEdges_of_runTransform {context : AnalysisContext} {loaded result : PassResult}
    {binary left : Binary}
    (h : functionInference.runTransform context loaded binary = .ok result left) :
    left.flowEdges = binary.flowEdges := by
  obtain ⟨found, -, -, rfl⟩ := changesBy_functions.of_ok h
  exact congrArg Prod.snd (flow_inferredFunctions found binary)

lemma Completes.flowEdges {context : AnalysisContext} {passes : List AnalysisPass}
    {reports made : List PassReport} {binary left : Binary}
    (h : Completes context passes reports binary made left)
    (hpasses : ∀ pass ∈ passes, pass = functionInference) : left.flowEdges = binary.flowEdges := by
  induction h with
  | nil => rfl
  | @cons pass rest reports made binary changed left loaded result hload htransform hrest ih =>
    obtain rfl := hpasses pass List.mem_cons_self
    rw [ih fun other hmem => hpasses other (List.mem_cons_of_mem _ hmem),
      flowEdges_of_runTransform htransform]

/-- Whether a report is the only one of the no-return analysis. -/
def IsNoReturnReport (reports : List PassReport) (report : PassReport) : Prop :=
  reports.filter (·.name == noReturn.name) = [report]

/-- What the no-return analysis leaves stays so while functions are inferred. -/
lemma Completes.cutBehind {context : AnalysisContext} {early between : List AnalysisPass}
    {made : List PassReport} {binary left : Binary}
    (h : Completes context (early ++ noReturn :: between) [] binary made left)
    (hearly : ∀ pass ∈ early, pass.name ≠ noReturn.name)
    (hbetween : ∀ pass ∈ between, pass = functionInference) :
    ∃ report, IsNoReturnReport made report ∧
      left.CutBehind (report.result.rows "no_return_call") := by
  obtain ⟨before, kept, hfirst, hsecond⟩ := h.append
  cases hsecond with
  | @cons _ _ _ _ _ changed _ loaded result hload htransform hrest =>
    refine ⟨noReturn.report result, ?_, ?_⟩
    · have hnone : before.filter (·.name == noReturn.name) = [] := hfirst.filter_of_ne hearly
      have hother : ∀ pass ∈ between, pass.name ≠ noReturn.name := by
        intro pass hpass
        rw [hbetween pass hpass]
        decide
      unfold IsNoReturnReport
      rw [hrest.filter_of_ne hother, List.filter_append, hnone]
      rfl
    · unfold Binary.CutBehind
      rw [hrest.flowEdges hbetween]
      exact cutBehind_of_runTransform htransform

/-! ### What function inference submits -/

/-- Whether a load hands a store to the engine: whatever its rules are, they are evaluated on it. -/
def HandsOver (pass : AnalysisPass) (context : AnalysisContext) (binary : Binary)
    (previous : Option PassResult) (store : FactStore) : Prop :=
  ∀ rules : Rules,
    let context := { context with engine := { context.engine with run := rules } }
    pass.runLoad context binary previous =
      (evaluate context store).map fun derived => { pass := pass.name, facts := some derived }

/-- Rules that derive nothing give the store back. -/
lemma HandsOver.eq {pass : AnalysisPass} {context : AnalysisContext} {binary : Binary}
    {previous : Option PassResult} {store other : FactStore}
    (h : pass.HandsOver context binary previous store)
    (hother : pass.HandsOver context binary previous other) : other = store := by
  have hsame := (hother (pure ())).symm.trans (h (pure ()))
  have hfacts : some other = some store := congrArg PassResult.facts (Except.ok.inj hsame)
  exact Option.some.inj hfacts

/-- A store that holds the graph of a binary and some calls, behind what it held when the engine
handed it out: nothing, if the engine hands out empty stores as it should. -/
structure Shows (binary : Binary) (calls : List Row) (fresh store : FactStore) : Prop where
  calls : store.rows "no_return_call" = fresh.rows "no_return_call" ++ calls
  blocks : store.rows "block" = fresh.rows "block" ++
    binary.codeBlocks.values.map fun block => [.unsigned block.address, .unsigned block.size]
  edges : store.rows "cfg_edge" = fresh.rows "cfg_edge" ++
    binary.flowEdges.map fun edge =>
      [.unsigned edge.source, .unsigned edge.target, .symbol edge.kind]
  symbols : store.rows "symbol" = fresh.rows "symbol" ++
    binary.symbols.filterMap fun symbol =>
      symbol.address.map fun address => [.unsigned address, .symbol symbol.name]
  entryPoint : store.rows "entry_point" = fresh.rows "entry_point" ++
    binary.entryPoint.toList.map fun entry => [.unsigned entry]

/-- Whether a store shows no edge by which control falls through out of a block that the calls list,
unless the engine had handed it out with the edge. -/
def ShowsCut (calls : List Row) (fresh store : FactStore) : Prop :=
  ∀ block, ListsBlock calls block → ∀ source target, source.unsigned? = some block →
    [source, target, .symbol "fallthrough"] ∈ store.rows "cfg_edge" →
    [source, target, .symbol "fallthrough"] ∈ fresh.rows "cfg_edge"

lemma rows_submitEntryPoint (binary : Binary) (store : FactStore) (relation : String) :
    (submitEntryPoint binary store).rows relation = store.rows relation ++
      if relation = "entry_point" then binary.entryPoint.toList.map fun entry => [.unsigned entry]
      else [] := by
  unfold submitEntryPoint
  cases binary.entryPoint with
  | some entry => exact FactStore.rows_insert ..
  | none =>
    rw [Option.toList_none, List.map_nil, ite_self, List.append_nil]

/-- The facts that function inference is evaluated on. -/
def functionFacts (binary : Binary) (calls : List Row) (fresh : FactStore) : FactStore :=
  (submitEntryPoint binary (submitGraph binary fresh)).insert "no_return_call" calls

lemma shows_functionFacts (binary : Binary) (calls : List Row) (fresh : FactStore) :
    Shows binary calls fresh (functionFacts binary calls fresh) := by
  constructor <;> simp [functionFacts, rows_submitEntryPoint, submitGraph]

lemma runLoad_functionInference {context : AnalysisContext} {fresh : FactStore}
    (h : context.engine.instantiate? functionRuleset = some fresh) (binary : Binary)
    (previous : PassResult) :
    functionInference.runLoad context binary (some previous) =
      (evaluate context (functionFacts binary (previous.rows "no_return_call") fresh)).map
        fun derived => { pass := functionInference.name, facts := some derived } := by
  change loadFunctions context binary (some previous) _ = _
  unfold loadFunctions instantiate
  dsimp only
  rw [h]
  change (evaluate context (functionFacts binary _ fresh) >>= fun derived => _) = _
  cases evaluate context (functionFacts binary _ fresh) <;> rfl

lemma handsOver_functionFacts_iff {context : AnalysisContext} {fresh : FactStore}
    (h : context.engine.instantiate? functionRuleset = some fresh) (binary : Binary)
    (previous : PassResult) (store : FactStore) :
    functionInference.HandsOver context binary (some previous) store ↔
      store = functionFacts binary (previous.rows "no_return_call") fresh := by
  have hfacts : functionInference.HandsOver context binary (some previous)
      (functionFacts binary (previous.rows "no_return_call") fresh) := by
    intro rules context
    have hsame : context.engine.instantiate? functionRuleset = some fresh := h
    exact runLoad_functionInference hsame binary previous
  constructor
  · exact hfacts.eq
  · rintro rfl
    exact hfacts

lemma Shows.showsCut {binary : Binary} {calls : List Row} {fresh store : FactStore}
    (h : Shows binary calls fresh store) (hcut : binary.CutBehind calls) :
    ShowsCut calls fresh store := by
  intro block hlisted source target hsource hrow
  rw [h.edges] at hrow
  rcases List.mem_append.mp hrow with hrow | hrow
  · exact hrow
  · obtain ⟨edge, hedge, hsame⟩ := List.mem_map.mp hrow
    simp only [List.cons.injEq, Value.symbol.injEq] at hsame
    obtain ⟨hsourceRow, -, hkind, -⟩ := hsame
    rw [← hsourceRow] at hsource
    exact absurd hkind (hcut block hlisted edge hedge (Option.some.inj hsource))

lemma IsNoReturnReport.previous? {reports : List PassReport} {report : PassReport}
    (h : IsNoReturnReport reports report) :
    functionInference.previous? reports = some report.result := by
  have hfind : reports.find? (·.name == noReturn.name) = some report := by
    rw [← List.head?_filter, h]
    rfl
  change (reports.find? (·.name == noReturn.name)).map (·.result) = _
  rw [hfind]
  rfl

lemma eq_functionInference {pass : AnalysisPass} (h : pass ∈ builtin)
    (hdisassembly : pass.name ≠ disassembly.name) (hnoReturn : pass.name ≠ noReturn.name) :
    pass = functionInference := by
  rcases List.mem_cons.mp h with rfl | h
  · exact absurd rfl hdisassembly
  rcases List.mem_cons.mp h with rfl | h
  · exact absurd rfl hnoReturn
  · exact List.mem_singleton.mp h

end AnalysisPass

open AnalysisPass

lemma PassPipeline.completes_of_run {pipeline : PassPipeline} {context : AnalysisContext}
    {binary : Binary} {report : PipelineReport}
    (h : (pipeline.run context binary).2.2 = .ok report) :
    Completes context pipeline.passes [] binary report.passes
      (pipeline.run context binary).2.1 := by
  cases hvalid : pipeline.validate with
  | some missing =>
    rw [run_of_missing hvalid] at h
    cases h
  | none =>
    rw [run_of_valid hvalid] at h ⊢
    cases hrun : (runAll context [] binary pipeline.passes).outcome with
    | error error =>
      rw [hrun] at h
      cases h
    | ok made =>
      rw [hrun] at h
      cases h
      exact completes_of_runAll hrun

/-- If the no-return analysis runs once and no disassembly follows it, then function inference
always sees its calls together with the graph as it is, and the edges behind the calls stay cut. -/
theorem edges_stay_cut (pipeline : PassPipeline) (early late : List AnalysisPass)
    (hpasses : pipeline.passes = early ++ noReturn :: late)
    (hbuiltin : ∀ pass ∈ pipeline.passes, pass ∈ builtin)
    (honce : ∀ pass ∈ early ++ late, pass.name ≠ noReturn.name)
    (hlate : ∀ pass ∈ late, pass.name ≠ disassembly.name) (context : AnalysisContext)
    (binary : Binary) :
    (∀ between after made, late = between ++ functionInference :: after →
      let run := runAll context [] binary (early ++ noReturn :: between)
      run.outcome = .ok made → ∃ report, IsNoReturnReport made report ∧
        let calls := report.result.rows "no_return_call"
        ∀ fresh, context.engine.instantiate? functionRuleset = some fresh →
          ∃ store,
            (∀ other, functionInference.HandsOver context run.binary
              (functionInference.previous? made) other ↔ other = store) ∧
            Shows run.binary calls fresh store ∧ ShowsCut calls fresh store) ∧
      ∀ report, (pipeline.run context binary).2.2 = .ok report →
        ∃ only, IsNoReturnReport report.passes only ∧
          (pipeline.run context binary).2.1.CutBehind (only.result.rows "no_return_call") := by
  have hearly : ∀ pass ∈ early, pass.name ≠ noReturn.name := fun pass hpass =>
    honce pass (List.mem_append_left late hpass)
  have hfunctions : ∀ pass ∈ late, pass = functionInference := by
    intro pass hpass
    have hmem : pass ∈ builtin := by
      apply hbuiltin
      rw [hpasses]
      exact List.mem_append_right early (List.mem_cons_of_mem noReturn hpass)
    exact eq_functionInference hmem (hlate pass hpass)
      (honce pass (List.mem_append_right early hpass))
  constructor
  · intro between after made hsplit run hrun
    have hbetween : ∀ pass ∈ between, pass = functionInference := by
      intro pass hpass
      apply hfunctions
      rw [hsplit]
      exact List.mem_append_left _ hpass
    obtain ⟨report, hreport, hcut⟩ := (completes_of_runAll hrun).cutBehind hearly hbetween
    refine ⟨report, hreport, ?_⟩
    intro calls fresh hfresh
    have hshows := shows_functionFacts run.binary calls fresh
    rw [hreport.previous?]
    exact ⟨_, handsOver_functionFacts_iff hfresh run.binary report.result, hshows,
      hshows.showsCut hcut⟩
  · intro report hreport
    have hcompletes := PassPipeline.completes_of_run hreport
    rw [hpasses] at hcompletes
    exact hcompletes.cutBehind hearly hfunctions

/-- Rules that derive two blocks with an edge between them, and a call in the first block that does
not return. -/
def callingRules : RuleBook :=
  RuleBook.empty
    |>.register "disasm_mips32" (modify fun store => store
        |>.insert "block_information" [[.unsigned 4096, .unsigned 4], [.unsigned 4100, .unsigned 4]]
        |>.insert "cfg_edge" [[.unsigned 4096, .unsigned 4100, .symbol "fallthrough"]])
    |>.register "no_return_analysis" (modify fun store =>
        store.insert "no_return_call" [[.unsigned 4096]])
    |>.registerEmpty "function_inference"

def callingContext : AnalysisContext :=
  { disassemble := fun _ _ _ => none, engine := callingRules.engine, targets := .builtin }

def builtinPipeline : PassPipeline :=
  { name := "p", entries := builtin.map fun pass => (pass, .pending) }

theorem edges_stay_cut_two_blocks :
    builtinPipeline.passes = [disassembly] ++ noReturn :: [functionInference] ∧
      (∀ pass ∈ builtinPipeline.passes, pass ∈ builtin) ∧
      (∀ pass ∈ [disassembly] ++ [functionInference], pass.name ≠ noReturn.name) ∧
      (∀ pass ∈ [functionInference], pass.name ≠ disassembly.name) ∧
      let run := runAll callingContext [] tornBinary ([disassembly] ++ noReturn :: [])
      (∃ made report store, run.outcome = .ok made ∧ IsNoReturnReport made report ∧
        report.result.rows "no_return_call" = [[.unsigned 4096]] ∧
        (∀ other, functionInference.HandsOver callingContext run.binary
          (functionInference.previous? made) other ↔ other = store) ∧
        Shows run.binary [[.unsigned 4096]] (.new functionRuleset) store ∧
        ShowsCut [[.unsigned 4096]] (.new functionRuleset) store) ∧
      ∃ report only, (builtinPipeline.run callingContext tornBinary).2.2 = .ok report ∧
        IsNoReturnReport report.passes only ∧
        (builtinPipeline.run callingContext tornBinary).2.1.CutBehind
          (only.result.rows "no_return_call") := by
  have hbuiltin : ∀ pass ∈ builtinPipeline.passes, pass ∈ builtin := fun pass hpass => hpass
  have honce : ∀ pass ∈ [disassembly] ++ [functionInference], pass.name ≠ noReturn.name := by
    intro pass hpass
    rcases List.mem_cons.mp hpass with rfl | hpass
    · decide
    · rw [List.mem_singleton.mp hpass]
      decide
  have hlate : ∀ pass ∈ [functionInference], pass.name ≠ disassembly.name := by
    intro pass hpass
    rw [List.mem_singleton.mp hpass]
    decide
  obtain ⟨hloads, hfinal⟩ := edges_stay_cut builtinPipeline [disassembly] [functionInference] rfl
    hbuiltin honce hlate callingContext tornBinary
  refine ⟨rfl, hbuiltin, honce, hlate, ?_, ?_⟩
  · obtain ⟨made, hmade⟩ : ∃ made, (runAll callingContext [] tornBinary
        ([disassembly] ++ noReturn :: [])).outcome = .ok made := ⟨_, rfl⟩
    obtain ⟨report, hreport, hshown⟩ := hloads [] [] made rfl hmade
    have hrows : (runAll callingContext [] tornBinary
        ([disassembly] ++ noReturn :: [])).outcome.map (fun made =>
          (made.filter (·.name == noReturn.name)).map (·.result.rows "no_return_call")) =
        .ok [[[.unsigned 4096]]] := rfl
    have hcalls : report.result.rows "no_return_call" = [[.unsigned 4096]] := by
      have hreported : made.filter (·.name == noReturn.name) = [report] := hreport
      rw [hmade] at hrows
      simpa [Except.map, hreported] using hrows
    obtain ⟨store, hhands, hshows, hcut⟩ := hshown _ rfl
    rw [hcalls] at hshows hcut
    exact ⟨made, report, store, hmade, hreport, hcalls, hhands, hshows, hcut⟩
  · obtain ⟨report, hreport⟩ :
        ∃ report, (builtinPipeline.run callingContext tornBinary).2.2 = .ok report := ⟨_, rfl⟩
    obtain ⟨only, honly, hcut⟩ := hfinal report hreport
    exact ⟨report, only, hreport, honly, hcut⟩

end BinaryFacts
