import BinaryFacts.Proofs.CutEdges
import BinaryFacts.Proofs.GraphInvariant
import BinaryFacts.Proofs.LatestItems
import BinaryFacts.Proofs.Newcomers

/-!
# Changes that last

What a built-in transform did to a binary it need not do again. Blocks are put where they are, names
and members are found to be there, and no edge is left to cut. If edges have been cut since they
were added, the ones that come back are those that are cut again.
-/

namespace BinaryFacts

lemma OrderedMap.insert_eq_self {κ ν : Type} [OrderedKey κ] [DecidableEq κ] {m : OrderedMap κ ν}
    {key : κ} {value : ν} (h : m.get? key = some value) : m.insert key value = m := by
  apply ext_get?
  intro other
  rw [get?_insert]
  split
  · next hother => rw [hother, h]
  · rfl

namespace Binary

/-! ### Names and functions -/

/-- How symbols and functions grow. Neither goes, and functions only get more blocks. -/
structure Grows (before after : Binary) : Prop where
  symbols : before.symbols ⊆ after.symbols
  functions : ∀ entry function, before.functions.get? entry = some function →
    ∃ larger, after.functions.get? entry = some larger ∧ function.blocks ⊆ larger.blocks

namespace Grows

lemma refl (binary : Binary) : Grows binary binary :=
  ⟨List.Subset.refl _, fun _ function h => ⟨function, h, List.Subset.refl _⟩⟩

lemma trans {first second third : Binary} (h : Grows first second) (h' : Grows second third) :
    Grows first third := by
  refine ⟨List.Subset.trans h.symbols h'.symbols, ?_⟩
  intro entry function hfunction
  obtain ⟨larger, hlarger, hblocks⟩ := h.functions entry function hfunction
  obtain ⟨largest, hlargest, hblocks'⟩ := h'.functions entry larger hlarger
  exact ⟨largest, hlargest, List.Subset.trans hblocks hblocks'⟩

end Grows

/-- Whether a change lets symbols and functions grow, and nothing is left of it to do in anything
that the binary then grows to. -/
structure Lasts (change : Binary → Binary) : Prop where
  grows : ∀ binary, Grows binary (change binary)
  settled : ∀ binary after, Grows (change binary) after → change after = after

namespace Lasts

lemma unchanged : Lasts fun binary => binary := ⟨Grows.refl, fun _ _ _ => rfl⟩

lemma comp {first second : Binary → Binary} (h : Lasts first) (h' : Lasts second) :
    Lasts fun binary => second (first binary) where
  grows binary := (h.grows binary).trans (h'.grows _)
  settled binary after hafter := by
    rw [h.settled binary after ((h'.grows _).trans hafter), h'.settled _ after hafter]

lemma foldl {α : Type} {change : Binary → α → Binary}
    (h : ∀ item, Lasts fun binary => change binary item) (items : List α) :
    Lasts fun binary => items.foldl change binary := by
  induction items with
  | nil => exact unchanged
  | cons item rest ih => exact (h item).comp ih

lemma again {change : Binary → Binary} (h : Lasts change) (binary : Binary) :
    change (change binary) = change binary :=
  h.settled binary _ (.refl _)

end Lasts

lemma exists_mem_addSymbol (binary : Binary) (symbol : Symbol) :
    ∃ other ∈ (binary.addSymbol symbol).symbols,
      other.name = symbol.name ∧ other.address = symbol.address := by
  unfold addSymbol
  by_cases hany : binary.symbols.any
      (fun s => s.name == symbol.name && s.address == symbol.address) = true
  · rw [if_pos hany]
    simpa using hany
  · rw [if_neg hany]
    exact ⟨symbol, List.mem_append_right _ (List.mem_singleton_self symbol), rfl, rfl⟩

lemma lasts_addSymbol (symbol : Symbol) : Lasts fun binary => binary.addSymbol symbol where
  grows binary := by
    unfold addSymbol
    split
    · exact .refl binary
    · exact ⟨List.subset_append_left _ _, (Grows.refl binary).functions⟩
  settled binary after hafter := by
    obtain ⟨other, hother, hname, haddress⟩ := binary.exists_mem_addSymbol symbol
    refine if_pos (List.any_eq_true.mpr ⟨other, hafter.symbols hother, ?_⟩)
    simp [hname, haddress]

/-- A function may change in a way that only adds blocks and adds none twice. -/
lemma lasts_alterFunction (entry : UInt64) {change : Function → Function}
    (hgrows : ∀ function, function.blocks ⊆ (change function).blocks)
    (hsettled : ∀ function larger, (change function).blocks ⊆ larger.blocks →
      change larger = larger) : Lasts fun binary => binary.alterFunction entry change where
  grows binary := by
    refine ⟨List.Subset.refl _, ?_⟩
    intro key function hfunction
    change ∃ larger, (binary.functions.insert entry (change (binary.functionAt entry))).get? key =
      some larger ∧ _
    rw [OrderedMap.get?_insert]
    by_cases hkey : key = entry
    · rw [if_pos hkey]
      rw [hkey] at hfunction
      refine ⟨_, rfl, ?_⟩
      rw [functionAt, hfunction]
      exact hgrows function
    · rw [if_neg hkey]
      exact ⟨function, hfunction, List.Subset.refl _⟩
  settled binary after hafter := by
    obtain ⟨larger, hlarger, hblocks⟩ := hafter.functions entry _ (OrderedMap.get?_insert_self ..)
    have hsame : change (after.functionAt entry) = larger := by
      rw [functionAt, hlarger]
      exact hsettled _ larger hblocks
    have hinsert : after.functions.insert entry (change (after.functionAt entry)) =
        after.functions := by
      rw [hsame]
      exact OrderedMap.insert_eq_self hlarger
    exact congrArg (fun functions => { after with functions }) hinsert

lemma lasts_addFunction (entry : UInt64) : Lasts fun binary => binary.addFunction entry :=
  lasts_alterFunction entry (fun _ => List.Subset.refl _) (fun _ _ _ => rfl)

lemma lasts_assignBlock (entry block : UInt64) :
    Lasts fun binary => binary.assignBlock entry block := by
  apply lasts_alterFunction entry
  · intro function
    split
    · exact List.Subset.refl _
    · exact List.subset_append_left _ _
  · intro function larger hblocks
    refine if_pos (hblocks ?_)
    split
    · assumption
    · exact List.mem_append_right _ (List.mem_singleton_self block)

/-! ### Blocks and edges -/

def putBlocks (blocks : List (UInt64 × UInt64)) (map : OrderedMap UInt64 CodeBlock) :
    OrderedMap UInt64 CodeBlock :=
  blocks.foldl (fun map (address, size) => map.insert address { address, size }) map

lemma foldl_addCodeBlock (blocks : List (UInt64 × UInt64)) (binary : Binary) :
    blocks.foldl (fun binary (address, size) => binary.addCodeBlock address size) binary =
      { binary with codeBlocks := putBlocks blocks binary.codeBlocks } := by
  induction blocks generalizing binary with
  | nil => rfl
  | cons block rest ih => exact ih _

/-- What is found at an address is the last block put there, or else what was there. -/
lemma get?_putBlocks (blocks : List (UInt64 × UInt64)) (map : OrderedMap UInt64 CodeBlock)
    (address : UInt64) :
    (putBlocks blocks map).get? address =
      ((blocks.reverse.find? (·.1 == address)).map fun block => ⟨block.1, block.2⟩).or
        (map.get? address) :=
  OrderedMap.get?_putEach Prod.fst (fun block => CodeBlock.mk block.1 block.2) blocks map address

lemma putBlocks_putBlocks (blocks : List (UInt64 × UInt64)) (map : OrderedMap UInt64 CodeBlock) :
    putBlocks blocks (putBlocks blocks map) = putBlocks blocks map := by
  apply OrderedMap.ext_get?
  intro address
  rw [get?_putBlocks, get?_putBlocks, ← Option.or_assoc, Option.or_self]

lemma foldl_addFlowEdge (edges : List FlowEdge) (binary : Binary) :
    edges.foldl addFlowEdge binary =
      { binary with flowEdges := binary.flowEdges ++ newcomers binary.flowEdges edges } := by
  induction edges generalizing binary with
  | nil => rw [List.foldl_nil, newcomers_nil, List.append_nil]
  | cons edge rest ih =>
    rw [List.foldl_cons, ih, addFlowEdge]
    by_cases hedge : edge ∈ binary.flowEdges
    · rw [if_pos hedge, newcomers_cons_of_mem hedge]
    · rw [if_neg hedge, newcomers_cons_of_notMem hedge, List.append_assoc, List.singleton_append]

lemma cutAll_cutAll (binary : Binary) (blocks : List UInt64) :
    (binary.cutAll blocks).cutAll blocks = binary.cutAll blocks := by
  unfold cutAll
  dsimp only
  rw [List.filter_filter]
  simp only [Bool.and_self]

/-- If edges were cut once they had been added, those that come back are the ones that are cut
again. -/
lemma foldl_addFlowEdge_settled {edges : List FlowEdge} {calls : List UInt64}
    {before left : Binary}
    (h : left.flowEdges = ((edges.foldl addFlowEdge before).cutAll calls).flowEdges) :
    (edges.foldl addFlowEdge left).cutAll calls = left := by
  have hedges : left.flowEdges =
      (before.flowEdges ++ newcomers before.flowEdges edges).filter (!leavesOneOf calls ·) := by
    rw [h, foldl_addFlowEdge]
    rfl
  have hcut : (newcomers left.flowEdges edges).filter (!leavesOneOf calls ·) = [] := by
    rw [List.filter_eq_nil_iff]
    intro edge hedge hkept
    -- it was listed before the cut and is missing now
    obtain ⟨hmem, hmissing⟩ := mem_newcomers.mp hedge
    apply hmissing
    rw [hedges]
    exact List.mem_filter.mpr ⟨mem_append_newcomers.mpr (.inr hmem), hkept⟩
  have hkept : left.flowEdges.filter (!leavesOneOf calls ·) = left.flowEdges := by
    rw [hedges, List.filter_filter]
    simp only [Bool.and_self]
  rw [foldl_addFlowEdge, cutAll, List.filter_append, hkept, hcut, List.append_nil]

lemma cutAll_addSymbol (binary : Binary) (symbol : Symbol) (calls : List UInt64) :
    (binary.addSymbol symbol).cutAll calls = (binary.cutAll calls).addSymbol symbol :=
  apply_ite (fun binary : Binary => binary.cutAll calls) _ _ _

end Binary

namespace AnalysisPass

open Binary (Grows Lasts)

/-! ### Results -/

def nameSymbols (symbols : List (UInt64 × String)) (binary : Binary) : Binary :=
  symbols.foldl (fun binary (address, name) => binary.addSymbol (.function name address)) binary

lemma lasts_nameSymbols (symbols : List (UInt64 × String)) : Lasts (nameSymbols symbols) :=
  Lasts.foldl (fun _ => Binary.lasts_addSymbol _) symbols

lemma flow_nameSymbols (symbols : List (UInt64 × String)) (binary : Binary) :
    (nameSymbols symbols binary).flow = binary.flow :=
  Binary.flow_foldl (fun binary _ => binary.flow_addSymbol _) symbols binary

lemma cutAll_nameSymbols (symbols : List (UInt64 × String)) (binary : Binary)
    (calls : List UInt64) :
    (nameSymbols symbols binary).cutAll calls = nameSymbols symbols (binary.cutAll calls) := by
  induction symbols generalizing binary with
  | nil => rfl
  | cons symbol rest ih =>
    change (nameSymbols rest (binary.addSymbol _)).cutAll calls = nameSymbols rest _
    rw [ih, Binary.cutAll_addSymbol]

/-- Nothing is left to do for a result of disassembly in a binary that grew from it, if the edges
behind some blocks have been cut since and are cut again. -/
lemma disassembled_settled {found : Disassembled} {calls : List UInt64} {binary left : Binary}
    (hgrows : Grows (found.apply binary) left)
    (hflow : left.flow = ((found.apply binary).cutAll calls).flow) :
    (found.apply left).cutAll calls = left := by
  let put (binary : Binary) : Binary :=
    { binary with codeBlocks := Binary.putBlocks found.blocks binary.codeBlocks }
  have happly : ∀ binary, (found.apply binary).cutAll calls = nameSymbols found.symbols
      ((found.edges.foldl Binary.addFlowEdge (put binary)).cutAll calls) := by
    intro binary
    change (nameSymbols found.symbols (found.edges.foldl _ (found.blocks.foldl _ _))).cutAll _ = _
    rw [cutAll_nameSymbols, Binary.foldl_addCodeBlock]
  rw [happly, flow_nameSymbols] at hflow
  have hblocks : left.codeBlocks = Binary.putBlocks found.blocks binary.codeBlocks := by
    rw [Binary.foldl_addFlowEdge] at hflow
    exact congrArg Prod.fst hflow
  have hput : put left = left := by
    change { left with codeBlocks := _ } = left
    rw [hblocks, Binary.putBlocks_putBlocks, ← hblocks]
  calc (found.apply left).cutAll calls
      = nameSymbols found.symbols
          ((found.edges.foldl Binary.addFlowEdge (put left)).cutAll calls) := happly left
    _ = nameSymbols found.symbols left := by
        rw [hput, Binary.foldl_addFlowEdge_settled (congrArg Prod.snd hflow)]
    _ = left := (lasts_nameSymbols found.symbols).settled _ left hgrows

lemma disassembled_again (found : Disassembled) (binary : Binary) :
    found.apply (found.apply binary) = found.apply binary := by
  have hflow : (found.apply binary).flow = ((found.apply binary).cutAll []).flow := by
    rw [Binary.cutAll_nil]
  have hsettled := disassembled_settled (Grows.refl (found.apply binary)) hflow
  rwa [Binary.cutAll_nil] at hsettled

lemma exists_symbol_enterFunction (binary : Binary) (entry : UInt64) :
    ∃ symbol ∈ (enterFunction binary entry).symbols, symbol.address = some entry := by
  unfold enterFunction
  dsimp only
  by_cases hnamed : ((binary.addFunction entry).symbolAt? entry).isSome = true
  · rw [if_pos hnamed]
    simpa [Binary.symbolAt?] using hnamed
  · rw [if_neg hnamed]
    obtain ⟨symbol, hsymbol, -, haddress⟩ := (binary.addFunction entry).exists_mem_addSymbol
      (.function ("FUN_" ++ Text.hexadecimal entry.toNat) entry)
    exact ⟨symbol, hsymbol, haddress⟩

lemma grows_enterFunction (binary : Binary) (entry : UInt64) :
    Grows (binary.addFunction entry) (enterFunction binary entry) := by
  unfold enterFunction
  dsimp only
  split
  · exact .refl _
  · exact (Binary.lasts_addSymbol _).grows _

lemma lasts_enterFunction (entry : UInt64) : Lasts fun binary => enterFunction binary entry where
  grows binary := ((Binary.lasts_addFunction entry).grows binary).trans
    (grows_enterFunction binary entry)
  settled binary after hafter := by
    have hadded : after.addFunction entry = after := (Binary.lasts_addFunction entry).settled
      binary after ((grows_enterFunction binary entry).trans hafter)
    obtain ⟨symbol, hsymbol, haddress⟩ := exists_symbol_enterFunction binary entry
    have hnamed : (after.symbolAt? entry).isSome = true := by
      rw [Binary.symbolAt?, List.find?_isSome]
      exact ⟨symbol, hafter.symbols hsymbol, beq_iff_eq.mpr haddress⟩
    rw [enterFunction, hadded, if_pos hnamed]

lemma lasts_inferredFunctions (found : InferredFunctions) : Lasts found.apply :=
  (Lasts.foldl lasts_enterFunction found.entries).comp
    (Lasts.foldl (fun (member : UInt64 × UInt64) =>
      Binary.lasts_assignBlock member.2 member.1) found.members)

/-- The binary that the three results lead to is the one that they lead to from there. -/
lemma results_again (found : Disassembled) (calls : List UInt64) (inferred : InferredFunctions)
    (binary : Binary) :
    let left := inferred.apply ((found.apply binary).cutAll calls)
    (found.apply left).cutAll calls = left ∧ inferred.apply left = left := by
  intro left
  have hinferred := lasts_inferredFunctions inferred
  have hgrows : Grows ((found.apply binary).cutAll calls) left := hinferred.grows _
  refine ⟨?_, hinferred.again _⟩
  exact disassembled_settled ⟨hgrows.symbols, hgrows.functions⟩ (flow_inferredFunctions inferred _)

/-! ### Transforms -/

/-- Whether a transform, run once more on what it left, does and answers the same. -/
def Repeatable (stage : EStateM PassError Binary PassResult) : Prop :=
  ∀ binary, (∀ result left, stage binary = .ok result left → stage left = .ok result left) ∧
    ∀ error left, stage binary = .error error left → stage left = .error error left

lemma repeatable_readThenApply {α : Type} {apply : α → Binary → Binary}
    (h : ∀ found binary, apply found (apply found binary) = apply found binary)
    (read : PassResult → Except PassError α) (context : AnalysisContext) (result : PassResult) :
    Repeatable (readThenApply read apply context result) := by
  intro binary
  unfold readThenApply
  cases read result with
  | error error =>
    constructor
    · intro value left hleft
      cases hleft
    · intro reason left hleft
      cases hleft
      rfl
  | ok found =>
    constructor
    · intro value left hleft
      cases hleft
      exact congrArg (EStateM.Result.ok result) (h found binary)
    · intro reason left hleft
      cases hleft

lemma repeatable_noReturn (context : AnalysisContext) (result : PassResult) :
    Repeatable (transformNoReturn context result) := by
  intro binary
  rw [transformNoReturn_eq]
  cases hread : readCalls result with
  | error error =>
    constructor
    · intro value left hleft
      cases hleft
    · intro reason left hleft
      cases hleft
      rw [transformNoReturn_eq, hread]
      exact congrArg (EStateM.Result.error error) (binary.cutAll_cutAll _)
  | ok calls =>
    constructor
    · intro value left hleft
      cases hleft
      rw [transformNoReturn_eq, hread]
      exact congrArg (EStateM.Result.ok result) (binary.cutAll_cutAll _)
    · intro reason left hleft
      cases hleft

lemma repeatable_of_mem_builtin {pass : AnalysisPass} (h : pass ∈ builtin)
    (context : AnalysisContext) (result : PassResult) :
    Repeatable (pass.runTransform context result) := by
  rcases List.mem_cons.mp h with rfl | h
  · change Repeatable (transformDisassembly context result)
    rw [transformDisassembly_eq]
    exact repeatable_readThenApply disassembled_again _ context result
  rcases List.mem_cons.mp h with rfl | h
  · exact repeatable_noReturn context result
  · obtain rfl := List.mem_singleton.mp h
    change Repeatable (transformFunctions context result)
    rw [transformFunctions_eq]
    exact repeatable_readThenApply (fun found => (lasts_inferredFunctions found).again) _ context
      result

end AnalysisPass

end BinaryFacts
