import BinaryFacts.Proofs.CutEdges
import BinaryFacts.Proofs.DerivedRows
import BinaryFacts.Proofs.GraphInvariant
import BinaryFacts.Proofs.Newcomers
import Mathlib.Data.List.Sort

/-!
# Derived functions

The functions of a binary after their inference are the old ones, the derived entries and the
owners of derived members. Each gets the blocks that are new to it, and each derived entry has a
name. Which functions there are and which blocks they have depends on the derived rows only as a
set.
-/

namespace BinaryFacts

/-- The keys of a map are in order, so that they are given by which there are. -/
lemma OrderedMap.keys_eq {κ ν : Type} [OrderedKey κ] {first second : OrderedMap κ ν}
    (h : ∀ key, key ∈ first.keys ↔ key ∈ second.keys) : first.keys = second.keys := by
  have : Std.Irrefl fun key other : κ => OrderedKey.precedes key other = true :=
    ⟨fun key hkey => by simp [OrderedKey.precedes_irrefl] at hkey⟩
  have : Std.Asymm fun key other : κ => OrderedKey.precedes key other = true :=
    ⟨fun key other hkey => by simp [OrderedKey.asymm hkey]⟩
  exact first.keys_ascending.eq_of_mem_iff second.keys_ascending h

/-- Lists blocks in a function that are not in it, each once. -/
def Function.gain (function : Function) (blocks : List UInt64) : Function :=
  { function with blocks := function.blocks ++ newcomers function.blocks blocks }

lemma Function.gain_nil (function : Function) : function.gain [] = function := by
  rw [gain, newcomers_nil, List.append_nil]

lemma Function.gain_singleton (function : Function) (block : UInt64) :
    function.gain [block] =
      if block ∈ function.blocks then function
      else { function with blocks := function.blocks ++ [block] } := by
  unfold gain
  by_cases hblock : block ∈ function.blocks
  · rw [if_pos hblock, newcomers_cons_of_mem hblock, newcomers_nil, List.append_nil]
  · rw [if_neg hblock, newcomers_cons_of_notMem hblock, newcomers_nil]

/-- Blocks may be listed one by one. -/
lemma Function.gain_cons (function : Function) (block : UInt64) (blocks : List UInt64) :
    function.gain (block :: blocks) = (function.gain [block]).gain blocks := by
  rw [gain_singleton]
  unfold gain
  by_cases hblock : block ∈ function.blocks
  · rw [if_pos hblock, newcomers_cons_of_mem hblock]
  · rw [if_neg hblock, newcomers_cons_of_notMem hblock, List.append_assoc, List.singleton_append]

namespace Binary

/-! ### Functions -/

lemma functionAt_alterFunction (binary : Binary) (entry key : UInt64)
    (change : Function → Function) :
    (binary.alterFunction entry change).functionAt key =
      if key = entry then change (binary.functionAt entry) else binary.functionAt key := by
  change ((binary.functions.insert entry (change (binary.functionAt entry))).get? key).getD _ = _
  rw [OrderedMap.get?_insert]
  split <;> rfl

lemma mem_keys_alterFunction {binary : Binary} {entry key : UInt64}
    {change : Function → Function} :
    key ∈ (binary.alterFunction entry change).functions.keys ↔
      key ∈ binary.functions.keys ∨ key = entry := by
  change key ∈ (binary.functions.insert entry (change (binary.functionAt entry))).keys ↔ _
  rw [OrderedMap.mem_keys_iff, OrderedMap.mem_keys_iff, OrderedMap.get?_insert]
  by_cases hkey : key = entry
  · simp [hkey]
  · simp [hkey]

/-- If each item is for one function, the functions after all items are the old ones and those. -/
lemma mem_keys_foldl {α : Type} {change : Binary → α → Binary} (entryOf : α → UInt64)
    (h : ∀ binary item key, key ∈ (change binary item).functions.keys ↔
      key ∈ binary.functions.keys ∨ key = entryOf item)
    (items : List α) (binary : Binary) (key : UInt64) :
    key ∈ (items.foldl change binary).functions.keys ↔
      key ∈ binary.functions.keys ∨ key ∈ items.map entryOf := by
  induction items generalizing binary with
  | nil => simp
  | cons item items ih => rw [List.foldl_cons, ih, h, List.map_cons, List.mem_cons, or_assoc]

lemma functionAt_addFunction (binary : Binary) (entry key : UInt64) :
    (binary.addFunction entry).functionAt key = binary.functionAt key := by
  rw [addFunction, functionAt_alterFunction]
  split
  · next hkey => rw [hkey, id]
  · rfl

lemma functionAt_assignBlock (binary : Binary) (entry block key : UInt64) :
    (binary.assignBlock entry block).functionAt key =
      if key = entry then (binary.functionAt key).gain [block] else binary.functionAt key := by
  unfold assignBlock
  rw [functionAt_alterFunction]
  by_cases hkey : key = entry
  · rw [if_pos hkey, if_pos hkey, hkey, Function.gain_singleton]
  · rw [if_neg hkey, if_neg hkey]

lemma mem_keys_assignBlock (binary : Binary) (member : UInt64 × UInt64) (key : UInt64) :
    key ∈ (binary.assignBlock member.2 member.1).functions.keys ↔
      key ∈ binary.functions.keys ∨ key = member.2 :=
  mem_keys_alterFunction

/-- Whether two binaries have the same functions with the same blocks, in whatever order. -/
structure SameFunctions (first second : Binary) : Prop where
  keys : first.functions.keys = second.functions.keys
  entry : ∀ key, (first.functionAt key).entry = (second.functionAt key).entry
  blocks : ∀ key block,
    block ∈ (first.functionAt key).blocks ↔ block ∈ (second.functionAt key).blocks

/-! ### Names of addresses -/

def namedAddresses (binary : Binary) : List UInt64 := binary.symbols.filterMap (·.address)

lemma mem_namedAddresses_iff {binary : Binary} {address : UInt64} :
    address ∈ binary.namedAddresses ↔ (binary.symbolAt? address).isSome = true := by
  simp [namedAddresses, symbolAt?]

end Binary

namespace AnalysisPass

/-- The name of a function that has none. -/
def madeUpSymbol (entry : UInt64) : Symbol :=
  .function ("FUN_" ++ Text.hexadecimal entry.toNat) entry

lemma symbols_enterFunction (binary : Binary) (entry : UInt64) :
    (enterFunction binary entry).symbols =
      if entry ∈ binary.namedAddresses then binary.symbols
      else binary.symbols ++ [madeUpSymbol entry] := by
  have hsymbols : (binary.addFunction entry).symbols = binary.symbols := rfl
  have hnames : (binary.addFunction entry).symbolAt? entry = binary.symbolAt? entry := rfl
  unfold enterFunction
  dsimp only
  rw [hnames]
  by_cases hnamed : entry ∈ binary.namedAddresses
  · rw [if_pos hnamed, if_pos (Binary.mem_namedAddresses_iff.mp hnamed), hsymbols]
  · have hnew : ¬ ∃ symbol ∈ binary.symbols, symbol.address = some entry := by
      simpa [Binary.namedAddresses] using hnamed
    rw [if_neg hnamed, if_neg (mt Binary.mem_namedAddresses_iff.mpr hnamed), Binary.addSymbol,
      if_neg]
    · rfl
    · intro hany
      obtain ⟨symbol, hsymbol, hsame⟩ := List.any_eq_true.mp hany
      exact hnew ⟨symbol, hsymbol, beq_iff_eq.mp (Bool.and_eq_true_iff.mp hsame).2⟩

lemma functions_enterFunction (binary : Binary) (entry : UInt64) :
    (enterFunction binary entry).functions = (binary.addFunction entry).functions := by
  unfold enterFunction Binary.addSymbol
  dsimp only
  split
  · rfl
  · split <;> rfl

lemma functionAt_enterFunction (binary : Binary) (entry key : UInt64) :
    (enterFunction binary entry).functionAt key = binary.functionAt key := by
  rw [Binary.functionAt, functions_enterFunction]
  exact binary.functionAt_addFunction entry key

lemma mem_keys_enterFunction (binary : Binary) (entry key : UInt64) :
    key ∈ (enterFunction binary entry).functions.keys ↔
      key ∈ binary.functions.keys ∨ key = entry := by
  rw [functions_enterFunction]
  exact Binary.mem_keys_alterFunction

/-- Of the entries, those get a name that have none. -/
lemma symbols_foldl_enterFunction (entries : List UInt64) (binary : Binary) :
    (entries.foldl enterFunction binary).symbols =
      binary.symbols ++ (newcomers binary.namedAddresses entries).map madeUpSymbol := by
  induction entries generalizing binary with
  | nil => rw [List.foldl_nil, newcomers_nil, List.map_nil, List.append_nil]
  | cons entry entries ih =>
    rw [List.foldl_cons, ih, Binary.namedAddresses, symbols_enterFunction]
    by_cases hnamed : entry ∈ binary.namedAddresses
    · rw [if_pos hnamed, newcomers_cons_of_mem hnamed]
      rfl
    · rw [if_neg hnamed, newcomers_cons_of_notMem hnamed, List.filterMap_append, List.append_assoc]
      rfl

/-- The blocks that are derived for a function. -/
def InferredFunctions.blocksOf (found : InferredFunctions) (entry : UInt64) : List UInt64 :=
  (found.members.filter (·.2 == entry)).map Prod.fst

lemma InferredFunctions.mem_blocksOf_iff {found : InferredFunctions} {entry block : UInt64} :
    block ∈ found.blocksOf entry ↔ (block, entry) ∈ found.members := by
  simp [blocksOf]

lemma functionAt_foldl_assignBlock (members : List (UInt64 × UInt64)) (binary : Binary)
    (key : UInt64) :
    (members.foldl (fun binary member => binary.assignBlock member.2 member.1)
        binary).functionAt key =
      (binary.functionAt key).gain ((members.filter (·.2 == key)).map Prod.fst) := by
  induction members generalizing binary with
  | nil => exact (Function.gain_nil _).symm
  | cons member members ih =>
    rw [List.foldl_cons, ih, Binary.functionAt_assignBlock]
    by_cases hkey : key = member.2
    · rw [if_pos hkey, List.filter_cons_of_pos (by simpa using hkey.symm), List.map_cons,
        ← Function.gain_cons]
    · rw [if_neg hkey, List.filter_cons_of_neg (by simpa using Ne.symm hkey)]

lemma inferredFunctions_apply_eq (found : InferredFunctions) (binary : Binary) :
    found.apply binary = found.members.foldl
      (fun binary member => binary.assignBlock member.2 member.1)
      (found.entries.foldl enterFunction binary) := rfl

variable {found : InferredFunctions} {binary : Binary}

lemma functionAt_inferredFunctions (key : UInt64) :
    (found.apply binary).functionAt key = (binary.functionAt key).gain (found.blocksOf key) := by
  have hentries :
      (found.entries.foldl enterFunction binary).functionAt key = binary.functionAt key := by
    apply List.foldlRecOn (motive := fun current => current.functionAt key = binary.functionAt key)
      found.entries enterFunction rfl
    intro current hcurrent entry _
    rw [functionAt_enterFunction, hcurrent]
  rw [inferredFunctions_apply_eq, functionAt_foldl_assignBlock, hentries]
  rfl

lemma mem_keys_inferredFunctions {key : UInt64} :
    key ∈ (found.apply binary).functions.keys ↔
      key ∈ binary.functions.keys ∨ key ∈ found.entries ∨
        ∃ block, (block, key) ∈ found.members := by
  rw [inferredFunctions_apply_eq,
    Binary.mem_keys_foldl Prod.snd Binary.mem_keys_assignBlock,
    Binary.mem_keys_foldl id mem_keys_enterFunction, List.map_id, or_assoc]
  simp

lemma symbols_inferredFunctions :
    (found.apply binary).symbols =
      binary.symbols ++ (newcomers binary.namedAddresses found.entries).map madeUpSymbol := by
  rw [← symbols_foldl_enterFunction, inferredFunctions_apply_eq]
  generalize found.entries.foldl enterFunction binary = entered
  induction found.members generalizing entered with
  | nil => rfl
  | cons member members ih => exact ih _

/-- An entry without a name gets one. -/
lemma filter_symbols_inferredFunctions {entry : UInt64} (hentry : entry ∈ found.entries)
    (hunnamed : binary.symbolAt? entry = none) :
    (found.apply binary).symbols.filter (·.address == some entry) = [madeUpSymbol entry] := by
  have hnone : binary.symbols.filter (·.address == some entry) = [] :=
    List.filter_eq_nil_iff.mpr (List.find?_eq_none.mp hunnamed)
  have hnew : entry ∈ newcomers binary.namedAddresses found.entries := by
    refine mem_newcomers.mpr ⟨hentry, ?_⟩
    rw [Binary.mem_namedAddresses_iff, hunnamed]
    simp
  have hone : (newcomers binary.namedAddresses found.entries).filter (· == entry) = [entry] := by
    rw [List.filter_beq, List.count_eq_one_of_mem (nodup_newcomers _ _) hnew]
    rfl
  rw [symbols_inferredFunctions, List.filter_append, hnone, List.nil_append, List.filter_map]
  exact congrArg (List.map madeUpSymbol) hone

lemma symbolAt?_inferredFunctions {entry : UInt64} (hentry : entry ∈ found.entries) :
    (found.apply binary).symbolAt? entry =
      some ((binary.symbolAt? entry).getD (madeUpSymbol entry)) := by
  cases hnamed : binary.symbolAt? entry with
  | none =>
    rw [Binary.symbolAt?, ← List.head?_filter, filter_symbols_inferredFunctions hentry hnamed]
    rfl
  | some symbol =>
    rw [Binary.symbolAt?] at hnamed ⊢
    rw [symbols_inferredFunctions, List.find?_append, hnamed]
    rfl

/-- How a binary comes out with derived functions in it. -/
structure InfersFunctions (found : InferredFunctions) (before after : Binary) : Prop where
  keys : ∀ entry, entry ∈ after.functions.keys ↔ entry ∈ before.functions.keys ∨
    entry ∈ found.entries ∨ ∃ block, (block, entry) ∈ found.members
  functions : ∀ entry,
    after.functionAt entry = (before.functionAt entry).gain (found.blocksOf entry)
  symbols : after.symbols =
    before.symbols ++ (newcomers before.namedAddresses found.entries).map madeUpSymbol
  named : ∀ entry ∈ found.entries,
    after.symbolAt? entry = some ((before.symbolAt? entry).getD (madeUpSymbol entry))
  unnamed : ∀ entry ∈ found.entries, before.symbolAt? entry = none →
    after.symbols.filter (·.address == some entry) = [madeUpSymbol entry]
  codeBlocks : after.codeBlocks = before.codeBlocks
  flowEdges : after.flowEdges = before.flowEdges
  image : after.image = before.image

lemma infersFunctions_apply (found : InferredFunctions) (binary : Binary) :
    InfersFunctions found binary (found.apply binary) where
  keys _ := mem_keys_inferredFunctions
  functions := functionAt_inferredFunctions
  symbols := symbols_inferredFunctions
  named _ := symbolAt?_inferredFunctions
  unnamed _ := filter_symbols_inferredFunctions
  codeBlocks := congrArg Prod.fst (flow_inferredFunctions found binary)
  flowEdges := congrArg Prod.snd (flow_inferredFunctions found binary)
  image := (evolves_inferredFunctions found binary).image

/-- An owner that is no entry is a function too, but gets no name. -/
example :
    let left := InferredFunctions.apply
      { entries := [4096], members := [(4100, 8192), (4096, 4096), (4100, 8192)] } tornBinary
    left.functions.values = [⟨4096, [4096]⟩, ⟨8192, [4100]⟩] ∧
      left.symbols.map (·.name) = ["FUN_1000"] := by
  decide +kernel

/-! ### Order and repetition -/

lemma sameFunctions_apply {other : InferredFunctions}
    (hentries : ∀ entry, entry ∈ found.entries ↔ entry ∈ other.entries)
    (hmembers : ∀ member, member ∈ found.members ↔ member ∈ other.members) :
    (found.apply binary).SameFunctions (other.apply binary) where
  keys := by
    apply OrderedMap.keys_eq
    intro key
    simp only [mem_keys_inferredFunctions, hentries, hmembers]
  entry key := by
    rw [functionAt_inferredFunctions, functionAt_inferredFunctions]
    rfl
  blocks key block := by
    rw [functionAt_inferredFunctions, functionAt_inferredFunctions, Function.gain, Function.gain,
      mem_append_newcomers, mem_append_newcomers, InferredFunctions.mem_blocksOf_iff,
      InferredFunctions.mem_blocksOf_iff, hmembers]

end AnalysisPass

/-- Whether two results list the same rows, in whatever order and however often. -/
def PassResult.ListsSame (result other : PassResult) (schema : DerivedSchema) : Prop :=
  ∀ relation columns, (relation, columns) ∈ schema →
    ∀ row, row ∈ result.rows relation ↔ row ∈ other.rows relation

lemma PassResult.ListsSame.fitsSchema {result other : PassResult} {schema : DerivedSchema}
    (h : result.ListsSame other schema) (hfits : result.FitsSchema schema) :
    other.FitsSchema schema := by
  intro relation columns hmem row hrow
  exact hfits relation columns hmem row ((h relation columns hmem row).mpr hrow)

open AnalysisPass

/-- The transform of function inference succeeds just if all rows have the columns of their
relations, and otherwise names the first fault and changes nothing. If it succeeds, the binary has
the derived functions in it, and a result with the same rows in another order gives the same
functions. -/
theorem inference_adds_derived_functions (context : AnalysisContext) (result : PassResult)
    (binary : Binary) :
    let stage := transformFunctions context result binary
    ((∃ handed left, stage = .ok handed left) ↔ result.FitsSchema InferredFunctions.schema) ∧
      (∀ error left, stage = .error error left ↔
        left = binary ∧ result.FirstFault InferredFunctions.schema error) ∧
      ∀ handed left, stage = .ok handed left → handed = result ∧
        (∃ found : InferredFunctions,
          List.Forall₂ Row.Means (result.rows "function_entry") (found.entries.map addressRow) ∧
          List.Forall₂ Row.Means (result.rows "in_function") (found.members.map pairRow) ∧
          InfersFunctions found binary left) ∧
        ∀ other : PassResult, result.ListsSame other InferredFunctions.schema →
          ∃ left', transformFunctions context other binary = .ok other left' ∧
            left.SameFunctions left' := by
  rw [transformFunctions_eq]
  refine ⟨readsSchema_inferredFunctions.readThenApply_exists_ok_iff,
    fun error left => readsSchema_inferredFunctions.readThenApply_eq_error_iff, ?_⟩
  intro handed left hstage
  obtain ⟨rfl, found, hfound, rfl⟩ := readThenApply_eq_ok_iff.mp hstage
  obtain _ | ⟨hentries, _ | ⟨hmembers, _⟩⟩ := readsSchema_inferredFunctions.means_of_ok hfound
  refine ⟨rfl, ⟨found, hentries, hmembers, infersFunctions_apply found binary⟩, ?_⟩
  intro other hsame
  have hfits := readsSchema_inferredFunctions.exists_ok_iff.mp ⟨found, hfound⟩
  obtain ⟨again, hagain⟩ :=
    readsSchema_inferredFunctions.exists_ok_iff.mpr (hsame.fitsSchema hfits)
  obtain _ | ⟨hentries', _ | ⟨hmembers', _⟩⟩ := readsSchema_inferredFunctions.means_of_ok hagain
  refine ⟨again.apply binary, readThenApply_eq_ok_iff.mpr ⟨rfl, again, hagain, rfl⟩, ?_⟩
  apply sameFunctions_apply
  · intro entry
    rw [Row.mem_written_iff addressRow_injective hentries,
      Row.mem_written_iff addressRow_injective hentries']
    simp only [hsame "function_entry" [.address] List.mem_cons_self]
  · intro member
    rw [Row.mem_written_iff pairRow_injective hmembers,
      Row.mem_written_iff pairRow_injective hmembers']
    simp only [hsame "in_function" [.address, .address]
      (List.mem_cons_of_mem _ List.mem_cons_self)]

end BinaryFacts
