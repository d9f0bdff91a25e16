import BinaryFacts.Proofs.FailingRuns
import BinaryFacts.Proofs.PlacedImages
import Mathlib.Data.List.Nodup

/-!
# Well-formed binaries

Keys and entries agree, and nothing is listed twice. Binaries start so, and every change that an
analysis makes to them keeps them so and keeps what the container says of them.
-/

namespace BinaryFacts

namespace Binary

structure WellFormed (binary : Binary) : Prop where
  block_address : ∀ key block, binary.codeBlocks.get? key = some block → block.address = key
  function_entry : ∀ key function, binary.functions.get? key = some function → function.entry = key
  function_blocks : ∀ key function, binary.functions.get? key = some function →
    function.blocks.Nodup
  flowEdges : binary.flowEdges.Nodup
  symbols : (binary.symbols.map fun symbol => (symbol.name, symbol.address)).Nodup

/-- What a container says of a binary, apart from its symbols: no analysis changes it. -/
def image (binary : Binary) : Binary :=
  { binary with symbols := [], codeBlocks := .empty, flowEdges := [], functions := .empty }

lemma descriptor_eq_of_image {first second : Binary} (h : first.image = second.image) :
    first.descriptor = second.descriptor := by
  have hdescriptor : first.image.descriptor = second.image.descriptor := by rw [h]
  exact hdescriptor

/-- A binary without symbols that no analysis has seen. -/
lemma wellFormed_of_empty {binary : Binary} (hblocks : binary.codeBlocks = .empty)
    (hedges : binary.flowEdges = []) (hfunctions : binary.functions = .empty)
    (hsymbols : binary.symbols = []) : binary.WellFormed where
  block_address key block h := by
    rw [hblocks] at h
    cases h
  function_entry key function h := by
    rw [hfunctions] at h
    cases h
  function_blocks key function h := by
    rw [hfunctions] at h
    cases h
  flowEdges := by
    rw [hedges]
    exact List.nodup_nil
  symbols := by
    rw [hsymbols]
    exact List.nodup_nil

/-- How a binary may change. -/
structure Evolves (before after : Binary) : Prop where
  image : after.image = before.image
  wellFormed : before.WellFormed → after.WellFormed

namespace Evolves

lemma refl (binary : Binary) : Evolves binary binary := ⟨rfl, id⟩

lemma trans {first second third : Binary} (h : Evolves first second) (h' : Evolves second third) :
    Evolves first third :=
  ⟨h'.image.trans h.image, fun hfirst => h'.wellFormed (h.wellFormed hfirst)⟩

lemma foldl {α : Type} {change : Binary → α → Binary}
    (h : ∀ binary item, Evolves binary (change binary item)) (items : List α) (binary : Binary) :
    Evolves binary (items.foldl change binary) := by
  apply List.foldlRecOn items change (refl binary)
  intro current hcurrent item hitem
  exact hcurrent.trans (h current item)

end Evolves

/-! ### Changes -/

lemma evolves_addCodeBlock (binary : Binary) (address size : UInt64) :
    Evolves binary (binary.addCodeBlock address size) := by
  refine ⟨rfl, fun h => { h with block_address := ?_ }⟩
  intro key block hblock
  change (binary.codeBlocks.insert address ⟨address, size⟩).get? key = some block at hblock
  rw [OrderedMap.get?_insert] at hblock
  by_cases hkey : key = address
  · rw [if_pos hkey] at hblock
    cases hblock
    exact hkey.symm
  · rw [if_neg hkey] at hblock
    exact h.block_address key block hblock

lemma evolves_addFlowEdge (binary : Binary) (edge : FlowEdge) :
    Evolves binary (binary.addFlowEdge edge) := by
  unfold addFlowEdge
  by_cases hedge : edge ∈ binary.flowEdges
  · rw [if_pos hedge]
    exact .refl binary
  · rw [if_neg hedge]
    refine ⟨rfl, fun h => { h with flowEdges := ?_ }⟩
    exact h.flowEdges.append (List.nodup_singleton edge) (List.disjoint_singleton.mpr hedge)

lemma evolves_cutFallthrough (binary : Binary) (block : UInt64) :
    Evolves binary (binary.cutFallthrough block).2 :=
  ⟨rfl, fun h => { h with flowEdges := h.flowEdges.filter _ }⟩

lemma evolves_addSymbol (binary : Binary) (symbol : Symbol) :
    Evolves binary (binary.addSymbol symbol) := by
  unfold addSymbol
  by_cases hany : binary.symbols.any
      (fun s => s.name == symbol.name && s.address == symbol.address) = true
  · rw [if_pos hany]
    exact .refl binary
  · rw [if_neg hany]
    refine ⟨rfl, fun h => { h with symbols := ?_ }⟩
    have hnew : (symbol.name, symbol.address) ∉
        binary.symbols.map fun other => (other.name, other.address) := by
      intro hmem
      obtain ⟨other, hother, hsame⟩ := List.mem_map.mp hmem
      obtain ⟨hname, haddress⟩ := Prod.mk.inj hsame
      exact hany (List.any_eq_true.mpr ⟨other, hother, by simp [hname, haddress]⟩)
    rw [List.map_append]
    exact h.symbols.append (List.nodup_singleton _) (List.disjoint_singleton.mpr hnew)

/-- A function that is not there yet starts without blocks. -/
def functionAt (binary : Binary) (entry : UInt64) : Function :=
  (binary.functions.get? entry).getD { entry }

lemma WellFormed.functionAt {binary : Binary} (h : binary.WellFormed) (entry : UInt64) :
    (binary.functionAt entry).entry = entry ∧ (binary.functionAt entry).blocks.Nodup := by
  unfold Binary.functionAt
  cases hget : binary.functions.get? entry with
  | none => exact ⟨rfl, List.nodup_nil⟩
  | some function =>
    exact ⟨h.function_entry entry function hget, h.function_blocks entry function hget⟩

lemma get?_alterFunction {binary : Binary} {entry key : UInt64} {change : Function → Function}
    {function : Function}
    (h : (binary.alterFunction entry change).functions.get? key = some function) :
    (key = entry ∧ function = change (binary.functionAt entry)) ∨
      binary.functions.get? key = some function := by
  change (binary.functions.insert entry (change (binary.functionAt entry))).get? key = _ at h
  rw [OrderedMap.get?_insert] at h
  by_cases hkey : key = entry
  · rw [if_pos hkey] at h
    exact .inl ⟨hkey, (Option.some.inj h).symm⟩
  · rw [if_neg hkey] at h
    exact .inr h

/-- Functions may change in any way that keeps their entry and lists no block twice. -/
lemma evolves_alterFunction (binary : Binary) (entry : UInt64) {change : Function → Function}
    (hentry : ∀ function, (change function).entry = function.entry)
    (hblocks : ∀ function, function.blocks.Nodup → (change function).blocks.Nodup) :
    Evolves binary (binary.alterFunction entry change) := by
  refine ⟨rfl, fun h => ?_⟩
  obtain ⟨holdEntry, holdBlocks⟩ := h.functionAt entry
  refine { h with function_entry := ?_, function_blocks := ?_ }
  · intro key function hfunction
    rcases get?_alterFunction hfunction with ⟨rfl, rfl⟩ | hkept
    · exact (hentry _).trans holdEntry
    · exact h.function_entry key function hkept
  · intro key function hfunction
    rcases get?_alterFunction hfunction with ⟨rfl, rfl⟩ | hkept
    · exact hblocks _ holdBlocks
    · exact h.function_blocks key function hkept

lemma evolves_addFunction (binary : Binary) (entry : UInt64) :
    Evolves binary (binary.addFunction entry) :=
  binary.evolves_alterFunction entry (fun _ => rfl) (fun _ => id)

lemma evolves_assignBlock (binary : Binary) (entry block : UInt64) :
    Evolves binary (binary.assignBlock entry block) := by
  apply binary.evolves_alterFunction entry
  · intro function
    split <;> rfl
  · intro function hnodup
    by_cases hblock : block ∈ function.blocks
    · rw [if_pos hblock]
      exact hnodup
    · rw [if_neg hblock]
      exact hnodup.append (List.nodup_singleton block) (List.disjoint_singleton.mpr hblock)

/-! ### Binaries of files -/

lemma wellFormed_raw (bytes : List UInt8) (isa : Isa) (byteOrder : ByteOrder) (base : UInt64) :
    (raw bytes isa byteOrder base).WellFormed :=
  wellFormed_of_empty rfl rfl rfl rfl

lemma wellFormed_addSymbols {binary : Binary} (h : binary.WellFormed) (symbols : List Symbol) :
    (binary.addSymbols symbols).WellFormed :=
  (Evolves.foldl evolves_addSymbol symbols binary).wellFormed h

lemma wellFormed_ofFile {name : String} {file : List UInt8} {report : ContainerReport}
    {binary : Binary} (h : ofFile name file report = .ok binary) : binary.WellFormed := by
  cases report with
  | elf report =>
    cases h
    exact wellFormed_addSymbols (wellFormed_of_empty rfl rfl rfl rfl) _
  | pe report =>
    obtain ⟨-, rfl⟩ := ofPe_eq_ok_iff.mp h
    exact wellFormed_addSymbols (wellFormed_of_empty rfl rfl rfl rfl) _
  | failure => cases h
  | mach => cases h
  | archive => cases h
  | other => cases h

end Binary

namespace AnalysisPass

open Binary (Evolves)

/-! ### Transforms -/

/-- Whether a transform only makes changes that a binary may go through, also where it fails. -/
def Careful {α : Type} (stage : EStateM PassError Binary α) : Prop :=
  ∀ binary after, (∃ value, stage binary = .ok value after) ∨
    (∃ error, stage binary = .error error after) → Evolves binary after

namespace Careful

variable {α β : Type}

lemma pure (value : α) : Careful (Pure.pure value) := by
  rintro binary after (⟨_, h⟩ | ⟨_, h⟩)
  · cases h
    exact .refl binary
  · cases h

lemma throw (error : PassError) : Careful (throw error : EStateM PassError Binary α) := by
  rintro binary after (⟨_, h⟩ | ⟨_, h⟩)
  · cases h
  · cases h
    exact .refl binary

lemma modify {change : Binary → Binary} (hchange : ∀ binary, Evolves binary (change binary)) :
    Careful (modify change) := by
  rintro binary after (⟨_, h⟩ | ⟨_, h⟩)
  · cases h
    exact hchange binary
  · cases h

lemma bind {stage : EStateM PassError Binary α} {next : α → EStateM PassError Binary β}
    (hstage : Careful stage) (hnext : ∀ value, Careful (next value)) :
    Careful (stage >>= next) := by
  intro binary after h
  change (∃ value, EStateM.bind stage next binary = .ok value after) ∨
    (∃ error, EStateM.bind stage next binary = .error error after) at h
  unfold EStateM.bind at h
  cases hrun : stage binary with
  | ok value between =>
    rw [hrun] at h
    exact (hstage binary between (.inl ⟨value, hrun⟩)).trans (hnext value between after h)
  | error error left =>
    rw [hrun] at h
    rcases h with ⟨_, h⟩ | ⟨_, h⟩
    · cases h
    · cases h
      exact hstage binary after (.inr ⟨error, hrun⟩)

end Careful

lemma evolves_disassembled (found : Disassembled) (binary : Binary) :
    Evolves binary (found.apply binary) := by
  have hblocks := Evolves.foldl (fun binary (block : UInt64 × UInt64) =>
    binary.evolves_addCodeBlock block.1 block.2) found.blocks binary
  have hedges := Evolves.foldl Binary.evolves_addFlowEdge found.edges
  have hsymbols := Evolves.foldl (fun binary (symbol : UInt64 × String) =>
    binary.evolves_addSymbol (.function symbol.2 symbol.1)) found.symbols
  exact (hblocks.trans (hedges _)).trans (hsymbols _)

lemma evolves_enterFunction (binary : Binary) (entry : UInt64) :
    Evolves binary (enterFunction binary entry) := by
  have hadded := binary.evolves_addFunction entry
  unfold enterFunction
  by_cases hnamed : ((binary.addFunction entry).symbolAt? entry).isSome = true
  · rw [if_pos hnamed]
    exact hadded
  · rw [if_neg hnamed]
    exact hadded.trans (Binary.evolves_addSymbol _ _)

lemma evolves_inferredFunctions (found : InferredFunctions) (binary : Binary) :
    Evolves binary (found.apply binary) := by
  have hentries := Evolves.foldl evolves_enterFunction found.entries binary
  have hmembers := Evolves.foldl (fun binary (member : UInt64 × UInt64) =>
    binary.evolves_assignBlock member.2 member.1) found.members
  exact hentries.trans (hmembers _)

lemma careful_disassembly (context : AnalysisContext) (result : PassResult) :
    Careful (transformDisassembly context result) := by
  unfold transformDisassembly
  split
  · exact .throw _
  · next found _ => exact (Careful.modify (evolves_disassembled found)).bind fun _ => .pure _

lemma careful_cutRows (rows : List Row) : Careful (cutRows rows) := by
  induction rows with
  | nil => exact .pure ()
  | cons row rows ih =>
    unfold cutRows
    split
    · exact .throw _
    · next block _ =>
      have hcut := Careful.modify fun binary => binary.evolves_cutFallthrough block
      exact hcut.bind fun _ => ih

lemma careful_noReturn (context : AnalysisContext) (result : PassResult) :
    Careful (transformNoReturn context result) :=
  (careful_cutRows _).bind fun _ => .pure _

lemma careful_functions (context : AnalysisContext) (result : PassResult) :
    Careful (transformFunctions context result) := by
  unfold transformFunctions
  split
  · exact .throw _
  · next found _ => exact (Careful.modify (evolves_inferredFunctions found)).bind fun _ => .pure _

lemma careful_of_mem_builtin {pass : AnalysisPass} (h : pass ∈ builtin) (context : AnalysisContext)
    (result : PassResult) : Careful (pass.runTransform context result) := by
  rcases List.mem_cons.mp h with rfl | h
  · exact careful_disassembly context result
  rcases List.mem_cons.mp h with rfl | h
  · exact careful_noReturn context result
  · obtain rfl := List.mem_singleton.mp h
    exact careful_functions context result

/-! ### Runs -/

lemma evolves_runAll {passes : List AnalysisPass} (h : ∀ pass ∈ passes, pass ∈ builtin)
    (context : AnalysisContext) (reports : List PassReport) (binary : Binary) :
    Evolves binary (runAll context reports binary passes).binary := by
  induction passes generalizing reports binary with
  | nil => exact .refl binary
  | cons pass rest ih =>
    have hpass := careful_of_mem_builtin (h pass List.mem_cons_self) context
    have hrest : ∀ pass ∈ rest, pass ∈ builtin := fun other hother =>
      h other (List.mem_cons_of_mem pass hother)
    rw [runAll]
    cases hload : pass.runLoad context binary (pass.previous? reports) with
    | error error => exact .refl binary
    | ok result =>
      dsimp only
      cases htransform : pass.runTransform context result binary with
      | error error left => exact hpass result binary left (.inr ⟨error, htransform⟩)
      | ok result' changed =>
        have hchanged := hpass result binary changed (.inl ⟨result', htransform⟩)
        exact hchanged.trans (ih hrest _ changed)

end AnalysisPass

lemma PassPipeline.evolves_run {pipeline : PassPipeline}
    (h : ∀ pass ∈ pipeline.passes, pass ∈ AnalysisPass.builtin) (context : AnalysisContext)
    (binary : Binary) : Binary.Evolves binary (pipeline.run context binary).2.1 := by
  cases hvalid : pipeline.validate with
  | some missing =>
    rw [run_of_missing hvalid]
    exact .refl binary
  | none =>
    rw [run_of_valid hvalid]
    exact AnalysisPass.evolves_runAll h context [] binary

/-- Binaries are well-formed when they are made, and analysis keeps them so and keeps their image.
All passes of a run see the same target. -/
theorem analysis_keeps_wellFormed :
    (∀ bytes isa byteOrder base, (Binary.raw bytes isa byteOrder base).WellFormed) ∧
    (∀ name file report binary, Binary.ofFile name file report = .ok binary → binary.WellFormed) ∧
    ∀ pipeline : PassPipeline, (∀ pass ∈ pipeline.passes, pass ∈ AnalysisPass.builtin) →
      ∀ context binary,
        let left := (pipeline.run context binary).2.1
        (binary.WellFormed → left.WellFormed) ∧ left.image = binary.image ∧
          left.descriptor = binary.descriptor ∧
          ∀ before after, pipeline.passes = before ++ after →
            (AnalysisPass.runAll context [] binary before).binary.descriptor =
              binary.descriptor := by
  refine ⟨Binary.wellFormed_raw, fun _ _ _ _ => Binary.wellFormed_ofFile, ?_⟩
  intro pipeline hbuiltin context binary left
  have hleft : Binary.Evolves binary left := pipeline.evolves_run hbuiltin context binary
  refine ⟨hleft.wellFormed, hleft.image, Binary.descriptor_eq_of_image hleft.image, ?_⟩
  intro before after hpasses
  have hbefore : ∀ pass ∈ before, pass ∈ AnalysisPass.builtin := by
    intro pass hpass
    apply hbuiltin
    rw [hpasses]
    exact List.mem_append_left after hpass
  have hrun := AnalysisPass.evolves_runAll hbefore context [] binary
  exact Binary.descriptor_eq_of_image hrun.image

/-- A library that exports one name twice. -/
def repeatedExport : PeReport :=
  { machine := 0x8664, imageBase := 4096, entry := 0, isLibrary := true, sections := []
    exports := [⟨some "start", 16⟩, ⟨some "start", 16⟩] }

theorem analysis_keeps_wellFormed_repeated_export :
    (∃ binary, Binary.ofFile "m" [] (.pe repeatedExport) = .ok binary ∧
      binary.symbols.map (·.name) = ["start"] ∧ binary.WellFormed) ∧
      (∀ pass ∈ tearingPipeline.passes, pass ∈ AnalysisPass.builtin) ∧
      tearingPipeline.passes = [AnalysisPass.disassembly] ++ [AnalysisPass.noReturn] ∧
      let left := (tearingPipeline.run tearingContext tornBinary).2.1
      left.WellFormed ∧ left.image = tornBinary.image ∧ left.descriptor = tornBinary.descriptor ∧
        let disassembled := AnalysisPass.runAll tearingContext [] tornBinary [AnalysisPass.disassembly]
        disassembled.binary.descriptor = tornBinary.descriptor := by
  obtain ⟨hraw, hfile, hrun⟩ := analysis_keeps_wellFormed
  have hbuiltin : ∀ pass ∈ tearingPipeline.passes, pass ∈ AnalysisPass.builtin := by
    intro pass hpass
    rcases List.mem_cons.mp hpass with rfl | hpass
    · exact List.mem_cons_self
    · rw [List.mem_singleton.mp hpass]
      exact List.mem_cons_of_mem _ List.mem_cons_self
  obtain ⟨hkeeps, himage, hdescriptor, hbefore⟩ :=
    hrun tearingPipeline hbuiltin tearingContext tornBinary
  refine ⟨⟨_, rfl, rfl, hfile "m" [] (.pe repeatedExport) _ rfl⟩, hbuiltin, rfl, ?_⟩
  refine ⟨hkeeps (hraw _ _ _ _), himage, hdescriptor, ?_⟩
  exact hbefore [AnalysisPass.disassembly] [AnalysisPass.noReturn] rfl

end BinaryFacts
