import Mathlib.Algebra.Ring.Nat
import BinaryFacts.Proofs.DerivedFunctions

/-!
# Repeated cuts

The no-return analysis cuts the edges behind one block after the other. All its cuts together are
one filter of the edges, in which the order of the blocks and their repetition make no difference,
and no edge is counted by two cuts.
-/

namespace BinaryFacts

namespace Binary

/-- Cuts behind blocks, one after the other: what each cut counts, and the binary that is left. -/
def cutInTurn (binary : Binary) : List UInt64 → List Nat × Binary
  | [] => ([], binary)
  | block :: blocks =>
    let (count, next) := binary.cutFallthrough block
    let (counts, left) := next.cutInTurn blocks
    (count :: counts, left)

/-- What cuts behind blocks come to: one filter, and one count for each edge that it removes. -/
structure CutAtOnce (binary : Binary) (blocks : List UInt64) (counts : List Nat)
    (left : Binary) : Prop where
  filtered : left =
    { binary with flowEdges := binary.flowEdges.filter fun edge =>
        ¬ (edge.kind = "fallthrough" ∧ edge.source ∈ blocks) }
  /-- Only the first cut behind a block counts edges, and it counts all that leave the block. -/
  counts_eq : ∀ earlier block later, blocks = earlier ++ block :: later →
    counts[earlier.length]? = some
      (if block ∈ earlier then 0 else binary.flowEdges.countP (isFallthroughFrom block))
  total : counts.sum + left.flowEdges.length = binary.flowEdges.length

lemma cutInTurn_cons (binary : Binary) (block : UInt64) (blocks : List UInt64) :
    binary.cutInTurn (block :: blocks) =
      ((binary.cutFallthrough block).1 :: ((binary.cutFallthrough block).2.cutInTurn blocks).1,
        ((binary.cutFallthrough block).2.cutInTurn blocks).2) := rfl

lemma snd_cutInTurn (binary : Binary) (blocks : List UInt64) :
    (binary.cutInTurn blocks).2 = binary.cutAll blocks := by
  induction blocks generalizing binary with
  | nil => exact binary.cutAll_nil.symm
  | cons block blocks ih => rw [cutInTurn_cons, cutAll_cons, ih]

lemma cutAll_eq (binary : Binary) (blocks : List UInt64) :
    binary.cutAll blocks =
      { binary with flowEdges := binary.flowEdges.filter fun edge =>
          ¬ (edge.kind = "fallthrough" ∧ edge.source ∈ blocks) } := by
  unfold cutAll
  congr 2
  funext edge
  simp only [← leavesOneOf_iff, Bool.not_eq_true, Bool.decide_eq_false]

/-- A list of blocks matters only by which blocks are on it. -/
lemma cutAll_congr {blocks others : List UInt64} (h : ∀ block, block ∈ blocks ↔ block ∈ others)
    (binary : Binary) : binary.cutAll blocks = binary.cutAll others := by
  simp only [cutAll_eq, h]

/-- A cut counts the edges that it removes. -/
lemma fst_cutFallthrough (binary : Binary) (block : UInt64) :
    (binary.cutFallthrough block).1 = binary.flowEdges.countP (isFallthroughFrom block) := by
  have hsplit := List.length_eq_length_filter_add (l := binary.flowEdges) (isFallthroughFrom block)
  rw [List.countP_eq_length_filter]
  change binary.flowEdges.length - (binary.flowEdges.filter (!isFallthroughFrom block ·)).length = _
  omega

/-- One step of the accounting: what a cut counts is no longer there after it. -/
lemma fst_cutFallthrough_add (binary : Binary) (block : UInt64) :
    (binary.cutFallthrough block).1 + (binary.cutFallthrough block).2.flowEdges.length =
      binary.flowEdges.length := by
  have hle := List.length_filter_le (!isFallthroughFrom block ·) binary.flowEdges
  exact Nat.sub_add_cancel hle

lemma countP_cutFallthrough (binary : Binary) (block other : UInt64) :
    (binary.cutFallthrough block).2.flowEdges.countP (isFallthroughFrom other) =
      if other = block then 0 else binary.flowEdges.countP (isFallthroughFrom other) := by
  change (binary.flowEdges.filter (!isFallthroughFrom block ·)).countP (isFallthroughFrom other) = _
  rw [List.countP_filter]
  split
  · next hsame =>
    rw [hsame]
    simp
  · next hother =>
    congr 1
    funext edge
    have hleaves : isFallthroughFrom other edge = true → isFallthroughFrom block edge = false := by
      simp only [isFallthroughFrom, Bool.and_eq_true, beq_iff_eq, Bool.and_eq_false_iff,
        beq_eq_false_iff_ne]
      rintro ⟨rfl, -⟩
      exact .inl hother
    cases hedge : isFallthroughFrom other edge with
    | false => rfl
    | true => rw [hleaves hedge]; rfl

lemma counts_cutInTurn (binary : Binary) (earlier : List UInt64) (block : UInt64)
    (later : List UInt64) :
    (binary.cutInTurn (earlier ++ block :: later)).1[earlier.length]? = some
      (if block ∈ earlier then 0 else binary.flowEdges.countP (isFallthroughFrom block)) := by
  induction earlier generalizing binary with
  | nil =>
    rw [if_neg List.not_mem_nil, ← fst_cutFallthrough]
    rfl
  | cons first earlier ih =>
    have hlater := ih (binary.cutFallthrough first).2
    rw [countP_cutFallthrough] at hlater
    rw [List.cons_append, cutInTurn_cons, List.length_cons, List.getElem?_cons_succ, hlater]
    by_cases hfirst : block = first
    · rw [if_pos hfirst, ite_self, if_pos (List.mem_cons.mpr (.inl hfirst))]
    · rw [if_neg hfirst]
      congr 1
      exact if_congr (by rw [List.mem_cons, or_iff_right hfirst]) rfl rfl

lemma sum_cutInTurn (binary : Binary) (blocks : List UInt64) :
    (binary.cutInTurn blocks).1.sum + (binary.cutInTurn blocks).2.flowEdges.length =
      binary.flowEdges.length := by
  induction blocks generalizing binary with
  | nil => exact Nat.zero_add _
  | cons block blocks ih =>
    rw [cutInTurn_cons, List.sum_cons, Nat.add_assoc, ih]
    exact binary.fst_cutFallthrough_add block

lemma cutAtOnce_cutInTurn (binary : Binary) (blocks : List UInt64) :
    binary.CutAtOnce blocks (binary.cutInTurn blocks).1 (binary.cutInTurn blocks).2 where
  filtered := by rw [snd_cutInTurn, cutAll_eq]
  counts_eq := by
    rintro earlier block later rfl
    exact binary.counts_cutInTurn earlier block later
  total := binary.sum_cutInTurn blocks

end Binary

namespace AnalysisPass

def noReturnSchema : DerivedSchema := [("no_return_call", [.address])]

lemma readsSchema_readCalls :
    ReadsSchema readCalls noReturnSchema fun calls => [calls.map addressRow] := by
  intro result
  unfold readCalls noReturnSchema
  rw [readTables, readTables, ← mapM_columns _ (readAddress_columns _)]
  cases (result.rows "no_return_call").mapM (readAddress "no_return_call") <;> rfl

lemma runTransform_of_readCalls {context : AnalysisContext} {result : PassResult}
    {calls : List UInt64} (h : readCalls result = .ok calls) (binary : Binary) :
    noReturn.runTransform context result binary = .ok result (binary.cutInTurn calls).2 := by
  have hchange := changesBy_noReturn context result binary
  rw [h] at hchange
  rw [Binary.snd_cutInTurn]
  exact hchange

/-- Where all rows are addresses, the transform of the no-return analysis cuts behind the blocks
that they name, row by row, and this is one filter of the edges. Nothing else changes, and the same
rows in another order or number leave the same binary. -/
theorem row_cuts_are_one_filter (context : AnalysisContext) (result : PassResult)
    (binary : Binary) (hfits : result.FitsSchema noReturnSchema) :
    ∃ blocks,
      List.Forall₂ Row.Means (result.rows "no_return_call") (blocks.map addressRow) ∧
      noReturn.runTransform context result binary = .ok result (binary.cutInTurn blocks).2 ∧
      binary.CutAtOnce blocks (binary.cutInTurn blocks).1 (binary.cutInTurn blocks).2 ∧
      ∀ other : PassResult, result.ListsSame other noReturnSchema →
        noReturn.runTransform context other binary = .ok other (binary.cutInTurn blocks).2 := by
  obtain ⟨blocks, hblocks⟩ := readsSchema_readCalls.exists_ok_iff.mpr hfits
  obtain _ | ⟨hmeans, _⟩ := readsSchema_readCalls.means_of_ok hblocks
  refine ⟨blocks, hmeans, runTransform_of_readCalls hblocks binary,
    binary.cutAtOnce_cutInTurn blocks, ?_⟩
  intro other hsame
  obtain ⟨others, hothers⟩ := readsSchema_readCalls.exists_ok_iff.mpr (hsame.fitsSchema hfits)
  obtain _ | ⟨hmeans', _⟩ := readsSchema_readCalls.means_of_ok hothers
  have hlisted : ∀ block, block ∈ others ↔ block ∈ blocks := by
    intro block
    rw [Row.mem_written_iff addressRow_injective hmeans,
      Row.mem_written_iff addressRow_injective hmeans']
    simp only [hsame "no_return_call" [.address] List.mem_cons_self]
  rw [runTransform_of_readCalls hothers, Binary.snd_cutInTurn, Binary.snd_cutInTurn,
    Binary.cutAll_congr hlisted]

/-- A binary with an edge twice. -/
def doubledEdge : Binary :=
  { name := "p", format := .raw, isa := .mips32, byteOrder := .big
    flowEdges := [⟨4096, 4100, "fallthrough"⟩, ⟨4096, 4104, "branch"⟩,
      ⟨4096, 4100, "fallthrough"⟩, ⟨4100, 4104, "fallthrough"⟩] }

/-- A result that lists a block twice, as numbers of two kinds. -/
def repeatedCall : PassResult :=
  { pass := noReturn.name
    facts := some ((FactStore.new noReturnRuleset).insert "no_return_call"
      [[.number 4096], [.unsigned 4200], [.unsigned 4096]]) }

theorem row_cuts_are_one_filter_doubledEdge :
    let context : AnalysisContext :=
      { disassemble := fun _ _ _ => none, engine := RuleBook.empty.engine, targets := .builtin }
    repeatedCall.FitsSchema noReturnSchema ∧
      (doubledEdge.cutInTurn [4096, 4200, 4096]).1 = [2, 0, 0] ∧
      noReturn.runTransform context repeatedCall doubledEdge = .ok repeatedCall
        { doubledEdge with
          flowEdges := [⟨4096, 4104, "branch"⟩, ⟨4100, 4104, "fallthrough"⟩] } ∧
      ∃ blocks,
        List.Forall₂ Row.Means (repeatedCall.rows "no_return_call") (blocks.map addressRow) ∧
        noReturn.runTransform context repeatedCall doubledEdge =
          .ok repeatedCall (doubledEdge.cutInTurn blocks).2 ∧
        doubledEdge.CutAtOnce blocks (doubledEdge.cutInTurn blocks).1
          (doubledEdge.cutInTurn blocks).2 ∧
        ∀ other : PassResult, repeatedCall.ListsSame other noReturnSchema →
          noReturn.runTransform context other doubledEdge =
            .ok other (doubledEdge.cutInTurn blocks).2 := by
  intro context
  have hfits : repeatedCall.FitsSchema noReturnSchema := by
    intro relation columns hmem row hrow
    obtain ⟨rfl, rfl⟩ := Prod.mk.inj (List.mem_singleton.mp hmem)
    have hrows : repeatedCall.rows "no_return_call" =
        [[.number 4096], [.unsigned 4200], [.unsigned 4096]] := by decide +kernel
    rw [hrows] at hrow
    obtain ⟨value, rfl, hvalue⟩ : ∃ value, row = [value] ∧ DerivedColumn.address.Admits value := by
      rcases List.mem_cons.mp hrow with rfl | hrow
      · exact ⟨_, rfl, 4096, .number 4096 4096 rfl⟩
      rcases List.mem_cons.mp hrow with rfl | hrow
      · exact ⟨_, rfl, 4200, .unsigned 4200⟩
      · exact ⟨_, List.mem_singleton.mp hrow, 4096, .unsigned 4096⟩
    exact .cons hvalue .nil
  have hread : readCalls repeatedCall = .ok [4096, 4200, 4096] := by decide +kernel
  have hedges : (doubledEdge.cutInTurn [4096, 4200, 4096]).2 =
      { doubledEdge with
        flowEdges := [⟨4096, 4104, "branch"⟩, ⟨4100, 4104, "fallthrough"⟩] } := by decide +kernel
  refine ⟨hfits, by decide, ?_, row_cuts_are_one_filter context repeatedCall doubledEdge hfits⟩
  rw [← hedges]
  exact runTransform_of_readCalls hread doubledEdge

end AnalysisPass

end BinaryFacts
