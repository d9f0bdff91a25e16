import BinaryFacts.Instruction.Operand
import BinaryFacts.Proofs.Newcomers
import Mathlib.Data.List.Basic

/-!
# Numbers of operands

The numbers of a table are the places of its operands. A table only grows at its end, so a number
stays with its operand whatever joins later, and as long as the numbers fit in a word they run
from 1 to the size of the table.
-/

namespace BinaryFacts.OperandTable

def insertAll (table : OperandTable) (operands : List Operand) : OperandTable :=
  operands.foldl insert table

@[simp]
lemma insertAll_nil (table : OperandTable) : table.insertAll [] = table := rfl

@[simp]
lemma insertAll_cons (table : OperandTable) (operand : Operand) (operands : List Operand) :
    table.insertAll (operand :: operands) = (table.insert operand).insertAll operands := rfl

/-- Operands join a table in the order in which they come, each once. -/
lemma operands_insertAll (table : OperandTable) (operands : List Operand) :
    (table.insertAll operands).operands =
      table.operands ++ newcomers table.operands operands := by
  refine foldl_take_newcomers OperandTable.operands ?_ operands table
  intro table operand
  unfold insert
  split <;> rfl

lemma mem_insertAll {table : OperandTable} {operands : List Operand} {operand : Operand} :
    operand ∈ (table.insertAll operands).operands ↔
      operand ∈ table.operands ∨ operand ∈ operands := by
  rw [operands_insertAll, mem_append_newcomers]

lemma isPrefix_insertAll (table : OperandTable) (operands : List Operand) :
    table.operands <+: (table.insertAll operands).operands := by
  rw [operands_insertAll]
  exact List.prefix_append _ _

/-- An operand keeps its number in a longer table. -/
lemma indexOf_of_isPrefix {s t : OperandTable} (h : s.operands <+: t.operands) {operand : Operand}
    (hmem : operand ∈ s.operands) : t.indexOf operand = s.indexOf operand := by
  obtain ⟨later, hlater⟩ := h
  unfold indexOf
  rw [← hlater, List.idxOf_append_of_mem hmem]

lemma indexOf_insertAll {table : OperandTable} {operand : Operand} (hmem : operand ∈ table.operands)
    (operands : List Operand) :
    (table.insertAll operands).indexOf operand = table.indexOf operand :=
  indexOf_of_isPrefix (table.isPrefix_insertAll operands) hmem

lemma indexOf_insert_self (table : OperandTable) (operand : Operand) :
    (table.insert operand).indexOf operand = table.indexOf operand := by
  by_cases h : operand ∈ table.operands
  · exact indexOf_of_isPrefix (table.isPrefixOf_insert operand) h
  · unfold indexOf insert
    rw [dif_neg h, List.idxOf_append_of_notMem h, List.idxOf_cons_self, List.idxOf_eq_length h,
      Nat.add_zero]

/-- The numbers that operands get in turn are their numbers in the final table. -/
theorem addAll_eq (table : OperandTable) (operands : List Operand) :
    table.addAll operands =
      (operands.map (table.insertAll operands).indexOf, table.insertAll operands) := by
  induction operands generalizing table with
  | nil => rfl
  | cons first rest ih =>
    have hfirst : ((table.insert first).insertAll rest).indexOf first = table.indexOf first := by
      rw [indexOf_insertAll (mem_insert.mpr (.inl rfl)), indexOf_insert_self]
    rw [addAll, add]
    dsimp only
    rw [ih (table.insert first), insertAll_cons, List.map_cons, hfirst]

/-! ### The entries of a table -/

lemma mem_entries_iff {table : OperandTable} {index : UInt64} {operand : Operand} :
    (index, operand) ∈ table.entries ↔
      operand ∈ table.operands ∧ index = table.indexOf operand := by
  unfold entries indexOf
  simp only [List.mem_map, Prod.exists, Prod.mk.injEq]
  constructor
  · rintro ⟨other, place, hplace, rfl, rfl⟩
    obtain ⟨hle, hget⟩ := List.mk_mem_zipIdx_iff_le_and_getElem?_sub.mp hplace
    obtain ⟨hlt, hget⟩ := List.getElem?_eq_some_iff.mp hget
    have hidx : table.operands.idxOf other = place - 1 := by
      rw [← hget]
      exact table.nodup.idxOf_getElem _ hlt
    refine ⟨hget ▸ List.getElem_mem hlt, ?_⟩
    rw [hidx, Nat.sub_add_cancel hle]
  · rintro ⟨hmem, rfl⟩
    have hlt := List.idxOf_lt_length_of_mem hmem
    refine ⟨operand, table.operands.idxOf operand + 1, ?_, rfl, rfl⟩
    apply List.mk_mem_zipIdx_iff_le_and_getElem?_sub.mpr
    refine ⟨by omega, ?_⟩
    rw [Nat.add_sub_cancel, List.getElem?_eq_getElem hlt, List.getElem_idxOf hlt]

/-- The numbers of a table's operands, in ascending order. -/
def numbers (table : OperandTable) : List UInt64 :=
  (List.range' 1 table.size).map UInt64.ofNat

lemma map_fst_entries (table : OperandTable) : table.entries.map Prod.fst = table.numbers := by
  unfold entries numbers size
  rw [← List.zipIdx_map_snd 1 table.operands, List.map_map, List.map_map]
  rfl

lemma toNat_indexOf {table : OperandTable} (hfits : table.size < UInt64.size) {operand : Operand}
    (hmem : operand ∈ table.operands) :
    (table.indexOf operand).toNat = table.operands.idxOf operand + 1 := by
  have hlt := List.idxOf_lt_length_of_mem hmem
  unfold size at hfits
  unfold indexOf
  rw [UInt64.toNat_ofNat_of_lt' (by omega)]

lemma indexOf_inj {table : OperandTable} (hfits : table.size < UInt64.size) {a b : Operand}
    (ha : a ∈ table.operands) (hb : b ∈ table.operands) (h : table.indexOf a = table.indexOf b) :
    a = b := by
  have hidx := congrArg UInt64.toNat h
  rw [toNat_indexOf hfits ha, toNat_indexOf hfits hb] at hidx
  exact (List.idxOf_inj ha).mp (by omega)

/-- The number of an operand leads back to it. -/
lemma get?_indexOf {table : OperandTable} (hfits : table.size < UInt64.size) {operand : Operand}
    (hmem : operand ∈ table.operands) : table.get? (table.indexOf operand) = some operand := by
  have hlt := List.idxOf_lt_length_of_mem hmem
  unfold get?
  rw [toNat_indexOf hfits hmem, if_neg (Nat.succ_ne_zero _), Nat.add_sub_cancel,
    List.getElem?_eq_getElem hlt, List.getElem_idxOf hlt]

lemma mem_numbers_iff {table : OperandTable} (hfits : table.size < UInt64.size) {index : UInt64} :
    index ∈ table.numbers ↔ 1 ≤ index.toNat ∧ index.toNat ≤ table.size := by
  unfold numbers
  rw [List.mem_map]
  constructor
  · rintro ⟨place, hplace, rfl⟩
    obtain ⟨hpos, hlt⟩ := List.mem_range'_1.mp hplace
    rw [UInt64.toNat_ofNat_of_lt' (by omega)]
    omega
  · rintro ⟨hpos, hle⟩
    exact ⟨index.toNat, List.mem_range'_1.mpr (by omega), UInt64.ofNat_toNat⟩

end BinaryFacts.OperandTable
