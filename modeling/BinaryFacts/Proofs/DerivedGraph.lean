import BinaryFacts.Proofs.DerivedRows
import BinaryFacts.Proofs.LastingChanges

/-!
# The graph after disassembly

The pass that comes after disassembly is shown the graph that the binary then has. The main
statement says what it is shown, in terms of the derived rows and of the binary before: the last of
the derived blocks at each address, and behind the old edges and names those that are new.
-/

namespace BinaryFacts

namespace Binary

/-- The names that symbols give to addresses. -/
def placedNames (binary : Binary) : List (UInt64 × String) :=
  binary.symbols.filterMap fun symbol => symbol.address.map fun address => (address, symbol.name)

lemma mem_placedNames_iff {binary : Binary} {address : UInt64} {name : String} :
    (address, name) ∈ binary.placedNames ↔
      ∃ symbol ∈ binary.symbols, symbol.name = name ∧ symbol.address = some address := by
  simp [placedNames, and_comm]

lemma placedNames_addSymbol (binary : Binary) (address : UInt64) (name : String) :
    (binary.addSymbol (.function name address)).placedNames =
      if (address, name) ∈ binary.placedNames then binary.placedNames
      else binary.placedNames ++ [(address, name)] := by
  have hany : binary.symbols.any (fun symbol => symbol.name == name &&
      symbol.address == some address) = true ↔ (address, name) ∈ binary.placedNames := by
    rw [mem_placedNames_iff]
    simp
  unfold addSymbol
  by_cases hmem : (address, name) ∈ binary.placedNames
  · rw [if_pos hmem]
    exact congrArg placedNames (if_pos (hany.mpr hmem))
  · rw [if_neg hmem]
    refine (congrArg placedNames (if_neg (mt hany.mp hmem))).trans ?_
    simp [placedNames, Symbol.function]

/-- Where keys and addresses agree, blocks are listed by their addresses. -/
lemma values_ascending {blocks : OrderedMap UInt64 CodeBlock}
    (h : ∀ key block, blocks.get? key = some block → block.address = key) :
    blocks.values.Pairwise fun block later => block.address < later.address := by
  refine List.pairwise_map.mpr (blocks.ascending.imp_of_mem ?_)
  intro first second hfirst hsecond hprecedes
  rw [h first.1 first.2 (OrderedMap.get?_eq_some_iff.mpr hfirst),
    h second.1 second.2 (OrderedMap.get?_eq_some_iff.mpr hsecond)]
  exact UInt64.lt_iff_toNat_lt.mpr (of_decide_eq_true hprecedes)

lemma mem_values_iff_get? {blocks : OrderedMap UInt64 CodeBlock}
    (h : ∀ key block, blocks.get? key = some block → block.address = key) {block : CodeBlock} :
    block ∈ blocks.values ↔ blocks.get? block.address = some block := by
  rw [OrderedMap.mem_values_iff]
  constructor
  · rintro ⟨key, hget⟩
    rwa [h key block hget]
  · exact fun hget => ⟨_, hget⟩

end Binary

namespace AnalysisPass

/-- Whether a block is the last one that a disassembly puts at its address. -/
def Disassembled.PutsLast (found : Disassembled) (block : CodeBlock) : Prop :=
  ∃ earlier later, found.blocks = earlier ++ (block.address, block.size) :: later ∧
    ∀ size, (block.address, size) ∉ later

lemma Disassembled.putsLast_iff {found : Disassembled} {block : CodeBlock} :
    found.PutsLast block ↔ found.blocks.reverse.find? (·.1 == block.address) =
      some (block.address, block.size) := by
  rw [List.find?_eq_some_iff_append]
  constructor
  · rintro ⟨earlier, later, hsplit, hlater⟩
    refine ⟨beq_self_eq_true _, later.reverse, earlier.reverse, ?_, ?_⟩
    · simp [hsplit]
    · rintro ⟨address, size⟩ hmem
      have hother : address ≠ block.address := by
        rintro rfl
        exact hlater size (List.mem_reverse.mp hmem)
      simpa using hother
  · rintro ⟨-, later, earlier, hsplit, hlater⟩
    refine ⟨earlier.reverse, later.reverse, ?_, ?_⟩
    · rw [← List.reverse_reverse found.blocks, hsplit]
      simp
    · intro size hmem
      have := hlater _ (List.mem_reverse.mp hmem)
      simp at this

/-- What a result of disassembly makes of a binary, part by part. -/
lemma disassembled_apply_eq (found : Disassembled) (binary : Binary) :
    found.apply binary = nameSymbols found.symbols
      { binary with
        codeBlocks := Binary.putBlocks found.blocks binary.codeBlocks
        flowEdges := binary.flowEdges ++ newcomers binary.flowEdges found.edges } := by
  change nameSymbols found.symbols (found.edges.foldl _ (found.blocks.foldl _ _)) = _
  rw [Binary.foldl_addCodeBlock, Binary.foldl_addFlowEdge]

variable {found : Disassembled} {binary : Binary}

lemma codeBlocks_disassembled :
    (found.apply binary).codeBlocks = Binary.putBlocks found.blocks binary.codeBlocks := by
  rw [disassembled_apply_eq]
  exact congrArg Prod.fst (flow_nameSymbols found.symbols _)

lemma flowEdges_disassembled :
    (found.apply binary).flowEdges =
      binary.flowEdges ++ newcomers binary.flowEdges found.edges := by
  rw [disassembled_apply_eq]
  exact congrArg Prod.snd (flow_nameSymbols found.symbols _)

lemma placedNames_disassembled :
    (found.apply binary).placedNames =
      binary.placedNames ++ newcomers binary.placedNames found.symbols := by
  rw [disassembled_apply_eq]
  refine foldl_take_newcomers Binary.placedNames ?_ found.symbols _
  rintro state ⟨address, name⟩
  rw [Binary.placedNames_addSymbol]
  congr

/-- Blocks keep to their keys. -/
lemma address_of_get?_disassembled
    (h : ∀ key block, binary.codeBlocks.get? key = some block → block.address = key) :
    ∀ key block, (found.apply binary).codeBlocks.get? key = some block → block.address = key := by
  intro key block hget
  rw [codeBlocks_disassembled, Binary.get?_putBlocks, Option.or_eq_some_iff] at hget
  rcases hget with hlast | ⟨-, hold⟩
  · obtain ⟨last, hfound, rfl⟩ := Option.map_eq_some_iff.mp hlast
    simpa using List.find?_some hfound
  · exact h key block hold

lemma mem_codeBlocks_disassembled_iff
    (h : ∀ key block, binary.codeBlocks.get? key = some block → block.address = key)
    {block : CodeBlock} :
    block ∈ (found.apply binary).codeBlocks.values ↔ found.PutsLast block ∨
      block ∈ binary.codeBlocks.values ∧ ∀ size, (block.address, size) ∉ found.blocks := by
  have hlast : (found.blocks.reverse.find? (·.1 == block.address)).map
      (fun last => (⟨last.1, last.2⟩ : CodeBlock)) = some block ↔ found.PutsLast block := by
    rw [Disassembled.putsLast_iff, Option.map_eq_some_iff]
    constructor
    · rintro ⟨last, hfound, rfl⟩
      exact hfound
    · exact fun hfound => ⟨_, hfound, rfl⟩
  have hnone : (found.blocks.reverse.find? (·.1 == block.address)).map
      (fun last => (⟨last.1, last.2⟩ : CodeBlock)) = none ↔
      ∀ size, (block.address, size) ∉ found.blocks := by
    rw [Option.map_eq_none_iff, List.find?_eq_none]
    constructor
    · intro hother size hmem
      exact hother _ (List.mem_reverse.mpr hmem) (beq_self_eq_true _)
    · rintro hother ⟨address, size⟩ hmem haddress
      obtain rfl := beq_iff_eq.mp haddress
      exact hother size (List.mem_reverse.mp hmem)
  rw [Binary.mem_values_iff_get? (address_of_get?_disassembled h), Binary.mem_values_iff_get? h,
    codeBlocks_disassembled, Binary.get?_putBlocks, Option.or_eq_some_iff, hlast, hnone, and_comm]

/-- What is submitted of a binary after the result of a disassembly, behind the rows of a fresh
store. -/
structure ShowsDerived (found : Disassembled) (before : Binary) (fresh store : FactStore) :
    Prop where
  blocks : ∃ listed : List CodeBlock,
    store.rows "block" =
      fresh.rows "block" ++ listed.map (fun block => pairRow (block.address, block.size)) ∧
    listed.Pairwise (fun block later => block.address < later.address) ∧
    ∀ block, block ∈ listed ↔ found.PutsLast block ∨
      block ∈ before.codeBlocks.values ∧ ∀ size, (block.address, size) ∉ found.blocks
  edges : store.rows "cfg_edge" = fresh.rows "cfg_edge" ++
    (before.flowEdges ++ newcomers before.flowEdges found.edges).map edgeRow
  symbols : store.rows "symbol" = fresh.rows "symbol" ++
    (before.placedNames ++ newcomers before.placedNames found.symbols).map nameRow

lemma showsDerived_submitGraph
    (h : ∀ key block, binary.codeBlocks.get? key = some block → block.address = key)
    (fresh : FactStore) :
    ShowsDerived found binary fresh (submitGraph (found.apply binary) fresh) where
  blocks := by
    refine ⟨(found.apply binary).codeBlocks.values, ?_,
      Binary.values_ascending (address_of_get?_disassembled h), ?_⟩
    · simp [submitGraph, pairRow]
    · exact fun block => mem_codeBlocks_disassembled_iff h
  edges := by
    rw [← flowEdges_disassembled]
    simp [submitGraph, edgeRow]
  symbols := by
    rw [← placedNames_disassembled]
    simp [submitGraph, Binary.placedNames, List.map_filterMap, nameRow, Function.comp_def]

end AnalysisPass

open AnalysisPass

/-- The transform of disassembly succeeds just if all rows have the columns of their relations, and
otherwise names the first fault and changes nothing. If it succeeds, the graph that the next pass
submits is the one before with the derived blocks, edges and names in it. -/
theorem disassembly_is_shown_on (context : AnalysisContext) (result : PassResult)
    (binary : Binary)
    (hkeys : ∀ key block, binary.codeBlocks.get? key = some block → block.address = key) :
    let stage := transformDisassembly context result binary
    ((∃ handed left, stage = .ok handed left) ↔ result.FitsSchema Disassembled.schema) ∧
      (∀ error left, stage = .error error left ↔
        left = binary ∧ result.FirstFault Disassembled.schema error) ∧
      ∀ handed left, stage = .ok handed left → handed = result ∧ ∃ found : Disassembled,
        List.Forall₂ Row.Means (result.rows "block_information") (found.blocks.map pairRow) ∧
        List.Forall₂ Row.Means (result.rows "cfg_edge") (found.edges.map edgeRow) ∧
        List.Forall₂ Row.Means (result.rows "inferred_symbol") (found.symbols.map nameRow) ∧
        ∀ fresh, ShowsDerived found binary fresh (submitGraph left fresh) := by
  rw [transformDisassembly_eq]
  refine ⟨readsSchema_disassembled.readThenApply_exists_ok_iff,
    fun error left => readsSchema_disassembled.readThenApply_eq_error_iff, ?_⟩
  intro handed left hstage
  obtain ⟨rfl, found, hfound, rfl⟩ := readThenApply_eq_ok_iff.mp hstage
  have hmeans := readsSchema_disassembled.means_of_ok hfound
  obtain _ | ⟨hblocks, _ | ⟨hedges, _ | ⟨hsymbols, _⟩⟩⟩ := hmeans
  exact ⟨rfl, found, hblocks, hedges, hsymbols, showsDerived_submitGraph hkeys⟩

/-- A binary with two blocks, an edge and a name. -/
def mappedBinary : Binary :=
  (((tornBinary.addCodeBlock 4096 2).addCodeBlock 4100 4).addFlowEdge
    ⟨4096, 4100, "branch"⟩).addSymbol (.function "start" 4096)

/-- Rows that put a block twice, and that repeat an edge and a name. -/
def remappedResult : PassResult :=
  { pass := "disassembly"
    facts := some (FactStore.new "disasm_mips32"
      |>.insert "block_information" [[.number 4096, .number 8], [.unsigned 64, .unsigned 1],
          [.unsigned 4096, .unsigned 4]]
      |>.insert "cfg_edge" [[.unsigned 4096, .unsigned 4100, .symbol "call"],
          [.unsigned 4096, .unsigned 4100, .symbol "branch"],
          [.number 4096, .number 4100, .symbol "call"]]
      |>.insert "inferred_symbol" [[.unsigned 4100, .symbol "start"],
          [.unsigned 4096, .symbol "start"]]) }

theorem disassembly_is_shown_on_remapped :
    (∀ key block, mappedBinary.codeBlocks.get? key = some block → block.address = key) ∧
      ∃ left found,
        transformDisassembly tearingContext remappedResult mappedBinary = .ok remappedResult left ∧
        (∀ fresh, ShowsDerived found mappedBinary fresh (submitGraph left fresh)) ∧
        let shown := submitGraph left (.new "no_return_analysis")
        shown.rows "block" = [pairRow (64, 1), pairRow (4096, 4), pairRow (4100, 4)] ∧
        shown.rows "cfg_edge" =
          [edgeRow ⟨4096, 4100, "branch"⟩, edgeRow ⟨4096, 4100, "call"⟩] ∧
        shown.rows "symbol" = [nameRow (4096, "start"), nameRow (4100, "start")] := by
  have hevolves : Binary.Evolves tornBinary mappedBinary :=
    (((Binary.evolves_addCodeBlock _ _ _).trans (Binary.evolves_addCodeBlock _ _ _)).trans
      (Binary.evolves_addFlowEdge _ _)).trans (Binary.evolves_addSymbol _ _)
  have hkeys := (hevolves.wellFormed (Binary.wellFormed_raw _ _ _ _)).block_address
  obtain ⟨-, -, hshows⟩ :=
    disassembly_is_shown_on tearingContext remappedResult mappedBinary hkeys
  obtain ⟨-, found, -, -, -, hfound⟩ := hshows remappedResult _ rfl
  exact ⟨hkeys, _, found, rfl, hfound, by decide +kernel⟩

end BinaryFacts
