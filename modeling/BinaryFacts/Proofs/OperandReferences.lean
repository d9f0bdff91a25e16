import BinaryFacts.Proofs.SweepCoverage
import Mathlib.Data.List.Forall2
import Mathlib.Data.List.Perm.Basic

/-!
# References to operands

Rows of instructions refer to operands by numbers, and three relations say what the numbers stand
for. The main statement: after a sweep the three relations number its operands from 1 on, each
once, and each instruction's numbers resolve to the operands of the attempt behind it.
-/

namespace BinaryFacts

/-- The operand that the three relations of operands give a number. -/
inductive FactStore.Denotes (store : FactStore) (number : UInt64) : Operand → Prop
  | register (name : String)
      (h : [.unsigned number, .symbol name] ∈ store.rows "operand_register") :
      Denotes store number (.register name)
  | immediate (value : Int64)
      (h : [.unsigned number, .number value] ∈ store.rows "operand_immediate") :
      Denotes store number (.immediate value)
  | indirect (segment base index : String) (scale displacement : Int64) (size : UInt64)
      (h : [.unsigned number, .symbol segment, .symbol base, .symbol index, .number scale,
        .number displacement, .unsigned size] ∈ store.rows "operand_indirect") :
      Denotes store number (.indirect segment base index scale displacement size)

namespace Listing

lemma rows_operand_register (listing : Listing) (program : String) :
    (listing.insertInto (.new program)).rows "operand_register" =
      listing.operands.entries.filterMap registerRow? := by
  simp [insertInto]

lemma rows_operand_immediate (listing : Listing) (program : String) :
    (listing.insertInto (.new program)).rows "operand_immediate" =
      listing.operands.entries.filterMap immediateRow? := by
  simp [insertInto]

lemma rows_operand_indirect (listing : Listing) (program : String) :
    (listing.insertInto (.new program)).rows "operand_indirect" =
      listing.operands.entries.filterMap indirectRow? := by
  simp [insertInto]

lemma denotes_insertInto_iff {listing : Listing} {program : String} {number : UInt64}
    {operand : Operand} :
    (listing.insertInto (.new program)).Denotes number operand ↔
      operand ∈ listing.operands.operands ∧ number = listing.operands.indexOf operand := by
  rw [← OperandTable.mem_entries_iff]
  constructor
  · rintro (⟨name, h⟩ | ⟨value, h⟩ | ⟨segment, base, index, scale, displacement, size, h⟩)
    · rw [rows_operand_register] at h
      obtain ⟨⟨other, operand⟩, hentry, hrow⟩ := List.mem_filterMap.mp h
      cases operand <;> simp_all [registerRow?]
    · rw [rows_operand_immediate] at h
      obtain ⟨⟨other, operand⟩, hentry, hrow⟩ := List.mem_filterMap.mp h
      cases operand <;> simp_all [immediateRow?]
    · rw [rows_operand_indirect] at h
      obtain ⟨⟨other, operand⟩, hentry, hrow⟩ := List.mem_filterMap.mp h
      cases operand <;> simp_all [indirectRow?]
  · intro hentry
    cases operand with
    | register name =>
      apply FactStore.Denotes.register
      rw [rows_operand_register]
      exact List.mem_filterMap.mpr ⟨_, hentry, rfl⟩
    | immediate value =>
      apply FactStore.Denotes.immediate
      rw [rows_operand_immediate]
      exact List.mem_filterMap.mpr ⟨_, hentry, rfl⟩
    | indirect segment base index scale displacement size =>
      apply FactStore.Denotes.indirect
      rw [rows_operand_indirect]
      exact List.mem_filterMap.mpr ⟨_, hentry, rfl⟩

/-- The three relations share out the operands: each gets one row. -/
lemma perm_operand_rows (entries : List (UInt64 × Operand)) :
    ((entries.filterMap registerRow? ++ entries.filterMap immediateRow? ++
      entries.filterMap indirectRow?).map fun row => row.head?.bind Value.unsigned?).Perm
      (entries.map fun entry => some entry.1) := by
  induction entries with
  | nil => rfl
  | cons entry rest ih =>
    obtain ⟨number, operand⟩ := entry
    cases operand with
    | register name =>
      simp only [registerRow?, immediateRow?, indirectRow?, List.filterMap_cons, List.map_cons,
        List.append_assoc, List.map_append, List.cons_append] at ih ⊢
      exact ih.cons _
    | immediate value =>
      simp only [registerRow?, immediateRow?, indirectRow?, List.filterMap_cons, List.map_cons,
        List.append_assoc, List.map_append, List.cons_append] at ih ⊢
      exact List.perm_middle.trans (ih.cons _)
    | indirect segment base index scale displacement size =>
      simp only [registerRow?, immediateRow?, indirectRow?, List.filterMap_cons, List.map_cons,
        List.map_append] at ih ⊢
      exact List.perm_middle.trans (ih.cons _)

end Listing

/-- The numbers of operands in a store are those from 1 to `count`, each stands for an operand of
its own, and the instructions' lists of numbers resolve to what the last accepted attempts show. -/
structure OperandReferences (binary : Binary) (decoder : Decoder) (d : Disassembler)
    (store : FactStore) (count : Nat) : Prop where
  fits : count < 2 ^ 64
  columns : (store.firstColumn "operand_register" ++ store.firstColumn "operand_immediate" ++
    store.firstColumn "operand_indirect").Perm
      ((List.range' 1 count).map fun number => some (UInt64.ofNat number))
  denotes : ∀ number : UInt64, 1 ≤ number.toNat → number.toNat ≤ count →
    ∃! operand, store.Denotes number operand
  injective : ∀ number other operand, store.Denotes number operand →
    store.Denotes other operand → number = other
  /-- The destination comes last. -/
  resolves : ∀ row ∈ store.rows "instruction", ∃ (x : Attempt) (n : NormalInstruction)
    (numbers : List UInt64), x.IsLastAccepted binary decoder d ∧ x.found = some n ∧
      row[0]? = some (.unsigned x.recordAt) ∧ row[4]? = some (.list numbers) ∧
      (∀ number ∈ numbers, 1 ≤ number.toNat ∧ number.toNat ≤ count) ∧
      List.Forall₂ store.Denotes numbers (n.operands.rotate 1)
  nop : ∀ order, decoder = .mips32 order → ∀ row ∈ store.rows "instruction",
    row[3]? = some (.symbol "NOP") → row[4]? = some (.list [])
  used : (∀ x y : Attempt, x.Of binary decoder d → y.Of binary decoder d → x.found.isSome →
      y.found.isSome → x.recordAt = y.recordAt → x = y) →
    ∀ number : UInt64, 1 ≤ number.toNat → number.toNat ≤ count →
      ∃ row ∈ store.rows "instruction", ∃ numbers, row[4]? = some (.list numbers) ∧
        number ∈ numbers

lemma Binary.mem_operands_sweep_iff {binary : Binary} {decoder : Decoder} {d : Disassembler}
    {operand : Operand} :
    operand ∈ (binary.sweep decoder d).operands.operands ↔
      ∃ x : Attempt, x.Of binary decoder d ∧ ∃ n, x.found = some n ∧ operand ∈ n.operands := by
  rw [sweep_eq_foldl_attempts]
  change operand ∈ (Listing.enterAll _).operands.operands ↔ _
  rw [Listing.mem_operands_enterAll]
  simp only [mem_attempts_iff]

lemma Decoder.Reads.mode_of_mips32 {order : Endian} {address recordAt : UInt64} {mode : CodeMode}
    (h : Decoder.Reads (.mips32 order) address mode recordAt) : mode = .mips32 order := by
  cases h
  rfl

lemma Attempt.operands_of_nop {binary : Binary} {order : Endian} {d : Disassembler} {x : Attempt}
    {n : NormalInstruction} (hx : x.Of binary (.mips32 order) d) (hfound : x.found = some n)
    (hnop : n.mnemonic = "NOP") : n.operands = [] := by
  obtain ⟨s, bytes, mode, -, -, -, -, -, hreads, hshown⟩ := hx
  rw [hshown, hreads.mode_of_mips32] at hfound
  obtain ⟨raw, -, hnormal⟩ := Option.bind_eq_some_iff.mp hfound
  obtain ⟨operands, hoperands, rfl⟩ := Option.map_eq_some_iff.mp hnormal
  simp only [CodeMode.mnemonic] at hnop
  simp only [CodeMode.operands?, hnop, if_true, Option.some.injEq] at hoperands
  exact hoperands.symm

/-- After a sweep every number of an operand stands for one operand, the operands of instructions
are found by their numbers, and no number is wasted unless an instruction was replaced. Numbers are
words of 64 bits, and no memory holds as many operands as there are words. -/
theorem sweep_operand_references (binary : Binary) (decoder : Decoder) (d : Disassembler)
    (program : String) (hfits : (binary.sweep decoder d).operands.size < 2 ^ 64) :
    OperandReferences binary decoder d (Loader.instructions decoder d binary (.new program))
      (binary.sweep decoder d).operands.size := by
  unfold Loader.instructions
  have hnumber : ∀ {number : UInt64}, 1 ≤ number.toNat →
      number.toNat ≤ (binary.sweep decoder d).operands.size →
      ∃ operand ∈ (binary.sweep decoder d).operands.operands,
        number = (binary.sweep decoder d).operands.indexOf operand := by
    intro number hpos hle
    have hmem := (OperandTable.mem_numbers_iff hfits).mpr ⟨hpos, hle⟩
    rw [← OperandTable.map_fst_entries] at hmem
    obtain ⟨⟨_, operand⟩, hentry, rfl⟩ := List.mem_map.mp hmem
    exact ⟨operand, OperandTable.mem_entries_iff.mp hentry⟩
  constructor
  case fits => exact hfits
  case columns =>
    unfold FactStore.firstColumn
    rw [Listing.rows_operand_register, Listing.rows_operand_immediate,
      Listing.rows_operand_indirect, ← List.map_append, ← List.map_append]
    refine (Listing.perm_operand_rows _).trans (List.Perm.of_eq ?_)
    change _ = List.map (some ∘ UInt64.ofNat) _
    rw [← List.map_map]
    change _ = List.map some (OperandTable.numbers _)
    rw [← OperandTable.map_fst_entries, List.map_map]
    rfl
  case denotes =>
    intro number hpos hle
    obtain ⟨operand, hmem, rfl⟩ := hnumber hpos hle
    refine ⟨operand, Listing.denotes_insertInto_iff.mpr ⟨hmem, rfl⟩, fun other hother => ?_⟩
    obtain ⟨hother, heq⟩ := Listing.denotes_insertInto_iff.mp hother
    exact (OperandTable.indexOf_inj hfits hmem hother heq).symm
  case injective =>
    intro number other operand hnumber hother
    rw [(Listing.denotes_insertInto_iff.mp hnumber).2, (Listing.denotes_insertInto_iff.mp hother).2]
  case resolves =>
    intro row hrow
    obtain ⟨x, n, hx, hfound, rfl⟩ := Binary.mem_rows_instruction_iff.mp hrow
    have htable : ∀ operand ∈ n.operands, operand ∈ (binary.sweep decoder d).operands.operands :=
      fun operand hoperand => Binary.mem_operands_sweep_iff.mpr ⟨x, hx.1, n, hfound, hoperand⟩
    refine ⟨x, n, _, hx, hfound, rfl, rfl, ?_, ?_⟩
    · intro number hnumber
      obtain ⟨operand, hoperand, rfl⟩ := List.mem_map.mp (List.mem_rotate.mp hnumber)
      rw [OperandTable.toNat_indexOf hfits (htable operand hoperand)]
      have hlt := List.idxOf_lt_length_of_mem (htable operand hoperand)
      unfold OperandTable.size
      omega
    · rw [NormalInstruction.operands_entered, ← List.map_rotate]
      apply List.forall₂_map_left_iff.mpr
      apply List.forall₂_same.mpr
      intro operand hoperand
      exact Listing.denotes_insertInto_iff.mpr ⟨htable operand (List.mem_rotate.mp hoperand), rfl⟩
  case nop =>
    rintro order rfl row hrow hmnemonic
    obtain ⟨x, n, hx, hfound, rfl⟩ := Binary.mem_rows_instruction_iff.mp hrow
    have hnop : n.mnemonic = "NOP" := by
      simpa [Listing.instructionRow, NormalInstruction.entered] using hmnemonic
    simp [Listing.instructionRow, NormalInstruction.entered,
      Attempt.operands_of_nop hx.1 hfound hnop]
  case used =>
    intro honce number hpos hle
    obtain ⟨operand, hmem, rfl⟩ := hnumber hpos hle
    obtain ⟨x, hx, n, hfound, hoperand⟩ := Binary.mem_operands_sweep_iff.mp hmem
    -- no other attempt was accepted where the operand came from, so its instruction is still there
    have hlast : x.IsLastAccepted binary decoder d :=
      ⟨hx, by rw [hfound]; rfl, fun y hy hrecord hyfound =>
        .inl (honce y x hy hx hyfound (by rw [hfound]; rfl) hrecord)⟩
    refine ⟨_, Binary.mem_rows_instruction_iff.mpr ⟨x, n, hlast, hfound, rfl⟩, _, rfl, ?_⟩
    exact List.mem_rotate.mpr (List.mem_map_of_mem hoperand)

/-- Code that lies in part in two sections. -/
def overlapping : Binary :=
  let first := Binary.raw [1, 2, 0, 3] .arm .little 0x1000
  let second := Binary.raw [4, 0, 2] .arm .little 0x1002
  { first with sections := first.sections ++ second.sections }

/-- Shows the next two bytes as operands, and nothing where the first one is zero. -/
def nextBytes : Disassembler := fun _ bytes _ =>
  match bytes with
  | 0 :: _ => none
  | _ => some ⟨"mov", 2, (bytes.take 2).map fun byte => ⟨.immediate byte.toUInt64.toInt64, none⟩⟩

theorem sweep_operand_references_overlapping :
    (overlapping.sweep (.arm32 .little) nextBytes).operands.size < 2 ^ 64 ∧
      OperandReferences overlapping (.arm32 .little) nextBytes
        (Loader.instructions (.arm32 .little) nextBytes overlapping (.new "disasm_arm32")) 4 := by
  have hsize : (overlapping.sweep (.arm32 .little) nextBytes).operands.size = 4 := by decide
  have hfits : (overlapping.sweep (.arm32 .little) nextBytes).operands.size < 2 ^ 64 := by
    rw [hsize]
    decide
  refine ⟨hfits, ?_⟩
  rw [← hsize]
  exact sweep_operand_references overlapping (.arm32 .little) nextBytes "disasm_arm32" hfits

end BinaryFacts
