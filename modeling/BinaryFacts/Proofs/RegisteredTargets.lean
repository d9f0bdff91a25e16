import BinaryFacts.CommandLine.Commands
import BinaryFacts.Proofs.LatestItems
import BinaryFacts.Proofs.LoaderOrder

/-!
# Registered targets

A registry that was filled by registering targets in turn keeps the latest target of each
descriptor, and knows their programs. An engine with all these programs can be asked to load and to
run the facts of every target of the registry: the program that a store is for is always known.
-/

namespace BinaryFacts

/-! ### Orders -/

/-- The order of texts in a dictionary, by the numbers of their letters. -/
def InDictionaryOrder (a b : String) : Prop :=
  List.Lex (fun c d => c.toNat < d.toNat) a.toList b.toList

lemma inDictionaryOrder_iff {a b : String} :
    OrderedKey.precedes a b = true ↔ InDictionaryOrder a b := by
  change OrderedKey.charsPrecede a.toList b.toList = true ↔ List.Lex _ a.toList b.toList
  generalize a.toList = s
  generalize b.toList = t
  induction s generalizing t with
  | nil => cases t <;> simp [OrderedKey.charsPrecede]
  | cons c s ih =>
    cases t with
    | nil => simp [OrderedKey.charsPrecede]
    | cons d t =>
      rw [OrderedKey.charsPrecede, List.cons_lex_cons_iff, Bool.or_eq_true, Bool.and_eq_true,
        decide_eq_true_eq, beq_iff_eq, Char.toNat_inj, ih]

namespace TargetDescriptor

/-- The order of descriptors: by formats, then instruction sets, then byte orders, each in the order
in which they are listed, and then by pointer widths. -/
def Before (a b : TargetDescriptor) : Prop :=
  a.format.rank < b.format.rank ∨ a.format = b.format ∧
    (a.isa.rank < b.isa.rank ∨ a.isa = b.isa ∧
      (a.byteOrder.rank < b.byteOrder.rank ∨ a.byteOrder = b.byteOrder ∧
        a.pointerWidth < b.pointerWidth))

lemma precedes_iff {a b : TargetDescriptor} :
    OrderedKey.precedes a b = true ↔ a.Before b := by
  have hformat : a.format.rank = b.format.rank ↔ a.format = b.format :=
    ⟨format_rank_inj, congrArg _⟩
  have hisa : a.isa.rank = b.isa.rank ↔ a.isa = b.isa := ⟨isa_rank_inj, congrArg _⟩
  have horder : a.byteOrder.rank = b.byteOrder.rank ↔ a.byteOrder = b.byteOrder :=
    ⟨byteOrder_rank_inj, congrArg _⟩
  have := isa_rank_lt a.isa
  have := isa_rank_lt b.isa
  have := byteOrder_rank_lt a.byteOrder
  have := byteOrder_rank_lt b.byteOrder
  have := a.pointerWidth.toNat_lt
  have := b.pointerWidth.toNat_lt
  unfold Before
  rw [← hformat, ← hisa, ← horder, UInt8.lt_iff_toNat_lt]
  refine Iff.trans decide_eq_true_iff ?_
  unfold rank
  omega

end TargetDescriptor

/-! ### What a registry keeps -/

namespace TargetRegistry

/-- What a registry tells of the targets that were registered in it, the earliest first. -/
structure KeepsLatest (registered : List TargetSpec) (registry : TargetRegistry) : Prop where
  get_iff : ∀ descriptor spec, registry.get? descriptor = some spec ↔
    spec.descriptor = descriptor ∧ IsLatest TargetSpec.descriptor registered spec
  mem_specs_iff : ∀ spec, spec ∈ registry.specs ↔ IsLatest TargetSpec.descriptor registered spec
  specs_ascending : registry.specs.Pairwise fun a b => a.descriptor.Before b.descriptor
  descriptor_iff : ∀ descriptor, descriptor ∈ registry.specs.map TargetSpec.descriptor ↔
    descriptor ∈ registered.map TargetSpec.descriptor
  mem_programs_iff : ∀ program, program ∈ registry.programs ↔
    ∃ spec ∈ registry.specs, spec.program = program
  programs_ascending : registry.programs.Pairwise InDictionaryOrder

lemma targets_ofList (registered : List TargetSpec) :
    (ofList registered).targets =
      OrderedMap.putEach TargetSpec.descriptor id registered .empty := by
  unfold ofList OrderedMap.putEach
  change _ = registered.foldl _ TargetRegistry.empty.targets
  generalize TargetRegistry.empty = registry
  induction registered generalizing registry with
  | nil => rfl
  | cons spec rest ih => exact ih (registry.register spec)

lemma programs_eq (registry : TargetRegistry) :
    registry.programs =
      (OrderedMap.putEach TargetSpec.program (fun _ => ()) registry.specs .empty).keys := by
  unfold programs OrderedMap.ofList OrderedMap.putEach
  rw [List.foldl_map]

lemma mem_programs_iff {registry : TargetRegistry} {program : String} :
    program ∈ registry.programs ↔ ∃ spec ∈ registry.specs, spec.program = program := by
  rw [programs_eq, OrderedMap.mem_keys_putEach_empty, List.mem_map]

lemma get?_ofList_iff {registered : List TargetSpec} {descriptor : TargetDescriptor}
    {spec : TargetSpec} :
    (ofList registered).get? descriptor = some spec ↔
      spec.descriptor = descriptor ∧ IsLatest TargetSpec.descriptor registered spec := by
  unfold get?
  rw [targets_ofList, OrderedMap.get?_putEach_empty_eq_some_iff]
  simp

lemma mem_specs_iff {registry : TargetRegistry} {spec : TargetSpec} :
    spec ∈ registry.specs ↔ ∃ descriptor, registry.get? descriptor = some spec :=
  OrderedMap.mem_values_iff

lemma mem_specs_ofList_iff {registered : List TargetSpec} {spec : TargetSpec} :
    spec ∈ (ofList registered).specs ↔ IsLatest TargetSpec.descriptor registered spec := by
  simp [mem_specs_iff, get?_ofList_iff]

/-- Each target is kept at its own descriptor. -/
lemma descriptors_ofList (registered : List TargetSpec) :
    (ofList registered).specs.map TargetSpec.descriptor = (ofList registered).targets.keys := by
  unfold specs OrderedMap.values OrderedMap.keys
  rw [List.map_map]
  refine List.map_congr_left fun entry hentry => ?_
  exact (get?_ofList_iff.mp (OrderedMap.get?_eq_some_iff.mpr hentry)).1

lemma keepsLatest_ofList (registered : List TargetSpec) :
    KeepsLatest registered (ofList registered) where
  get_iff _ _ := get?_ofList_iff
  mem_specs_iff _ := mem_specs_ofList_iff
  specs_ascending := by
    have hascending := (ofList registered).targets.keys_ascending
    rw [← descriptors_ofList, List.pairwise_map] at hascending
    exact hascending.imp TargetDescriptor.precedes_iff.mp
  descriptor_iff descriptor := by
    rw [descriptors_ofList, targets_ofList, OrderedMap.mem_keys_putEach_empty]
  mem_programs_iff _ := mem_programs_iff
  programs_ascending := by
    rw [programs_eq]
    exact (OrderedMap.keys_ascending _).imp inDictionaryOrder_iff.mp

lemma pipeline_eq_ok_iff {registry : TargetRegistry} {d : Disassembler}
    {descriptor : TargetDescriptor} {pipeline : CompositeLoader} :
    registry.pipeline d descriptor = .ok pipeline ↔
      ∃ spec, registry.get? descriptor = some spec ∧ spec.assemble d = pipeline := by
  unfold TargetRegistry.pipeline
  cases registry.get? descriptor <;> simp

end TargetRegistry

/-! ### Engines that know the programs -/

namespace RuleBook

lemma programs_foldl_registerEmpty (names : List String) (book : RuleBook) :
    (names.foldl registerEmpty book).programs =
      OrderedMap.putEach id (fun _ => pure ()) names book.programs := by
  induction names generalizing book with
  | nil => rfl
  | cons name rest ih => exact ih (book.registerEmpty name)

/-- A book that was filled with empty programs knows these and no others. -/
lemma get?_registerEmpty_iff {names : List String} {name : String} {rules : Rules} :
    (names.foldl registerEmpty .empty).programs.get? name = some rules ↔
      name ∈ names ∧ pure () = rules := by
  rw [programs_foldl_registerEmpty]
  refine OrderedMap.get?_putEach_empty_eq_some_iff.trans ?_
  constructor
  · rintro ⟨known, rfl, hlatest, hrules⟩
    exact ⟨hlatest.mem, hrules⟩
  · rintro ⟨hname, hrules⟩
    obtain ⟨known, hknown, hlatest⟩ := exists_isLatest id hname
    exact ⟨known, hknown, hlatest, hrules⟩

end RuleBook

namespace Command

lemma instantiate?_emptyEngine {registry : TargetRegistry} {program : String}
    (h : program ∈ registry.programs) :
    (emptyEngine registry).instantiate? program = some (.new program) := by
  have hrules := RuleBook.get?_registerEmpty_iff.mpr ⟨h, rfl⟩
  exact if_pos (Option.isSome_of_eq_some hrules)

lemma run_emptyEngine {registry : TargetRegistry} {store : FactStore}
    (h : store.program ∈ registry.programs) :
    (emptyEngine registry).run store = .ok () store := by
  have hrules := RuleBook.get?_registerEmpty_iff.mpr ⟨h, rfl⟩
  rw [emptyEngine, RuleBook.run_engine, hrules]
  rfl

/-- The program of every target of a registry can be instantiated, and runs without an effect. -/
lemma load?_emptyEngine {registry : TargetRegistry} {spec : TargetSpec} (h : spec ∈ registry.specs)
    (d : Disassembler) (binary : Binary) :
    ∃ store, (spec.assemble d).load? (emptyEngine registry) binary = some store ∧
      store.program = spec.program ∧ (emptyEngine registry).run store = .ok () store := by
  have hprogram : spec.program ∈ registry.programs :=
    TargetRegistry.mem_programs_iff.mpr ⟨spec, h, rfl⟩
  have hstore := spec.program_populate d binary (.new spec.program)
  refine ⟨(spec.assemble d).populate binary (.new spec.program), ?_, hstore, run_emptyEngine ?_⟩
  · exact congrArg _ (instantiate?_emptyEngine hprogram)
  · rwa [hstore]

/-- Only binaries without a target have no summary. -/
lemma summarize_eq_error {environment : Environment} {binary : Binary} {error : CommandError}
    (h : summarize environment binary = .error error) :
    error = .target (.unsupported binary.descriptor) := by
  unfold summarize at h
  cases hspec : TargetRegistry.builtin.get? binary.descriptor with
  | none =>
    simp only [TargetRegistry.pipeline, hspec, Except.mapError, bind, Except.bind] at h
    exact (Except.error.inj h).symm
  | some spec =>
    obtain ⟨store, hload, -⟩ := load?_emptyEngine
      (TargetRegistry.mem_specs_iff.mpr ⟨_, hspec⟩) environment.disassemble binary
    simp only [TargetRegistry.pipeline, hspec, hload, Except.mapError, bind, Except.bind] at h
    cases h

/-- The engine of the command knows the program of whatever target it finds. -/
lemma factsOutput_ne_instantiation (environment : Environment) (request : FactsRequest)
    (program : String) : factsOutput environment request ≠ .error (.instantiation program) := by
  intro h
  unfold factsOutput at h
  cases hbinary : request.loadBinary environment with
  | error error =>
    simp only [hbinary, Except.mapError, bind, Except.bind] at h
    cases h
  | ok binary =>
    cases hsummary : summarize environment binary with
    | error error =>
      simp only [hbinary, hsummary, Except.mapError, bind, Except.bind,
        summarize_eq_error hsummary] at h
      cases h
    | ok summary =>
      simp only [hbinary, hsummary, Except.mapError, bind, Except.bind] at h
      cases h

end Command

/-- Registered targets take the places of earlier ones with their descriptors, and an engine that
knows the programs of a registry loads and runs the facts of each of its targets. The check for an
unknown program never fails. -/
theorem registered_programs_run :
    (∀ registered : List TargetSpec,
      let registry := TargetRegistry.ofList registered
      let engine := Command.emptyEngine registry
      TargetRegistry.KeepsLatest registered registry ∧
        ∀ (d : Disassembler) (descriptor : TargetDescriptor) (pipeline : CompositeLoader),
          registry.pipeline d descriptor = .ok pipeline → ∀ binary, ∃ spec store,
            registry.get? descriptor = some spec ∧
            pipeline.load? engine binary = some store ∧
            store.program = spec.program ∧
            engine.run store = .ok () store) ∧
    ∀ environment request program,
      Command.factsOutput environment request ≠ .error (.instantiation program) := by
  refine ⟨fun registered => ⟨TargetRegistry.keepsLatest_ofList registered, ?_⟩,
    Command.factsOutput_ne_instantiation⟩
  intro d descriptor pipeline hpipeline binary
  obtain ⟨spec, hspec, rfl⟩ := TargetRegistry.pipeline_eq_ok_iff.mp hpipeline
  obtain ⟨store, hload, hprogram, hrun⟩ :=
    Command.load?_emptyEngine (TargetRegistry.mem_specs_iff.mpr ⟨_, hspec⟩) d binary
  exact ⟨spec, store, hspec, hload, hprogram, hrun⟩

/-- The built-in targets, and a target that takes the place of one of them and brings a program of
its own. -/
def replacedTargets : List TargetSpec :=
  TargetSpec.builtin ++ [TargetSpec.standard .elf .x64 .little "disasm_other" .x64]

theorem registered_programs_run_replaced :
    let registry := TargetRegistry.ofList replacedTargets
    let replaced := TargetSpec.standard .elf .x64 .little "disasm_other" .x64
    let binary := Binary.raw [0xc3] .x64 .little 0x1000
    registry.programs = ["disasm_arm32", "disasm_mips32", "disasm_other", "disasm_x64"] ∧
      registry.specs.length = TargetSpec.builtin.length ∧
      ∃ store, (replaced.assemble fun _ _ _ => none).load? (Command.emptyEngine registry) binary =
          some store ∧
        store.program = "disasm_other" ∧
        (Command.emptyEngine registry).run store = .ok () store := by
  intro registry replaced binary
  have hspec : registry.get? replaced.descriptor = some replaced := by decide
  obtain ⟨spec, store, hget, hload, hprogram, hrun⟩ :=
    (registered_programs_run.1 replacedTargets).2 (fun _ _ _ => none) replaced.descriptor
      (replaced.assemble fun _ _ _ => none)
      (TargetRegistry.pipeline_eq_ok_iff.mpr ⟨_, hspec, rfl⟩) binary
  obtain rfl : replaced = spec := Option.some.inj (hspec.symm.trans hget)
  exact ⟨by decide, by decide, store, hload, hprogram, hrun⟩

end BinaryFacts
