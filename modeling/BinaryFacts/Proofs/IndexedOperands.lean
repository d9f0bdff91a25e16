import BinaryFacts.Proofs.OperandNumbers
import Mathlib.Algebra.Group.Nat.Defs
import Mathlib.Data.List.Infix

/-!
# Operands found by a map

A table of operands that keeps a map to their numbers beside the list of them. The map and the list
stay inverse to each other however operands are added, so the numbers are those of the table that
looks for an operand's place in the list, and none of them ever changes.
-/

namespace BinaryFacts

namespace IndexedOperands

/-- Whether the list is that of a table, and the map gives the place of every operand in it. -/
structure Indexes (index : IndexedOperands) (table : OperandTable) : Prop where
  ordered_eq : index.ordered = table.operands
  number?_eq : ∀ operand,
    index.number? operand = if operand ∈ table.operands then some (table.indexOf operand) else none

/-- The table after operands have been added in turn to an empty one. -/
def ofOperands (offered : List Operand) : IndexedOperands := (addAll {} offered).2

/-- The numbers that operands get when they are added in turn to an empty table. -/
def numbersOf (offered : List Operand) : List UInt64 := (addAll {} offered).1

lemma indexes_empty : Indexes {} .empty := ⟨rfl, fun _ => rfl⟩

/-- An addition keeps the map and the list inverse to each other. -/
lemma Indexes.add {index : IndexedOperands} {table : OperandTable} (h : index.Indexes table)
    (operand : Operand) :
    (index.add operand).1 = table.indexOf operand ∧
      (index.add operand).2.Indexes (table.insert operand) := by
  unfold IndexedOperands.add
  by_cases hmem : operand ∈ table.operands
  · have hsame : table.insert operand = table := dif_pos hmem
    rw [h.number?_eq, if_pos hmem, hsame]
    exact ⟨rfl, h⟩
  · have hgrown : (table.insert operand).operands = table.operands ++ [operand] := by
      rw [OperandTable.insert, dif_neg hmem]
    have hnumber : UInt64.ofNat index.ordered.length + 1 = table.indexOf operand := by
      rw [OperandTable.indexOf, List.idxOf_eq_length hmem, h.ordered_eq, UInt64.ofNat_add]
      rfl
    rw [h.number?_eq, if_neg hmem]
    refine ⟨hnumber, by rw [hgrown, h.ordered_eq], fun other => ?_⟩
    rw [number?, List.lookup_cons, hnumber]
    by_cases hother : other = operand
    · subst hother
      rw [beq_self_eq_true, if_pos (OperandTable.mem_insert.mpr (.inl rfl)),
        table.indexOf_insert_self]
    · rw [beq_false_of_ne hother]
      have hold := h.number?_eq other
      by_cases hold' : other ∈ table.operands
      · rw [if_pos hold'] at hold
        rw [if_pos (OperandTable.mem_insert.mpr (.inr hold')),
          OperandTable.indexOf_of_isPrefix (table.isPrefixOf_insert operand) hold']
        exact hold
      · rw [if_neg hold'] at hold
        rw [if_neg fun hin => (OperandTable.mem_insert.mp hin).elim hother hold']
        exact hold

/-- Additions in turn give the numbers that they give in the table without a map. -/
lemma Indexes.addAll {index : IndexedOperands} {table : OperandTable} (h : index.Indexes table)
    (offered : List Operand) :
    (index.addAll offered).1 = (table.addAll offered).1 ∧
      (index.addAll offered).2.Indexes (table.addAll offered).2 := by
  induction offered generalizing index table with
  | nil => exact ⟨rfl, h⟩
  | cons operand rest ih =>
    obtain ⟨hnumber, hindexes⟩ := h.add operand
    obtain ⟨hnumbers, hlater⟩ := ih hindexes
    exact ⟨congrArg₂ List.cons hnumber hnumbers, hlater⟩

lemma addAll_append (table : IndexedOperands) (first second : List Operand) :
    table.addAll (first ++ second) =
      ((table.addAll first).1 ++ ((table.addAll first).2.addAll second).1,
        ((table.addAll first).2.addAll second).2) := by
  induction first generalizing table with
  | nil => rfl
  | cons operand rest ih =>
    rw [List.cons_append, addAll, addAll]
    dsimp only
    rw [ih]
    rfl

/-! ### What a table answers -/

lemma get?_eq_some_iff {index : IndexedOperands} {number : UInt64} {operand : Operand} :
    index.get? number = some operand ↔
      1 ≤ number.toNat ∧ index.ordered[number.toNat - 1]? = some operand := by
  unfold get?
  by_cases hzero : number.toNat = 0
  · rw [if_pos hzero]
    exact iff_of_false nofun fun h => by omega
  · rw [if_neg hzero]
    exact (and_iff_right (Nat.one_le_iff_ne_zero.mpr hzero)).symm

lemma Indexes.get?_eq {index : IndexedOperands} {table : OperandTable} (h : index.Indexes table)
    (number : UInt64) : index.get? number = table.get? number := by
  rw [get?, OperandTable.get?, h.ordered_eq]

/-- The map leads to a number just if the number leads back. -/
lemma Indexes.number?_eq_some_iff {index : IndexedOperands} {table : OperandTable}
    (h : index.Indexes table) (hfits : table.size < UInt64.size) {operand : Operand}
    {number : UInt64} : index.number? operand = some number ↔ index.get? number = some operand := by
  rw [h.number?_eq]
  constructor
  · intro hnumber
    obtain ⟨hmem, hnumber⟩ := Option.ite_none_right_eq_some.mp hnumber
    rw [h.get?_eq, ← Option.some.inj hnumber]
    exact OperandTable.get?_indexOf hfits hmem
  · intro hget
    obtain ⟨hpos, hplace⟩ := get?_eq_some_iff.mp hget
    rw [h.ordered_eq] at hplace
    obtain ⟨hlt, rfl⟩ := List.getElem?_eq_some_iff.mp hplace
    rw [if_pos (List.getElem_mem hlt), OperandTable.indexOf, table.nodup.idxOf_getElem,
      Nat.sub_add_cancel hpos, UInt64.ofNat_toNat]

lemma isSome_get?_iff {index : IndexedOperands} {number : UInt64} :
    (index.get? number).isSome ↔ 1 ≤ number.toNat ∧ number.toNat ≤ index.ordered.length := by
  rw [Option.isSome_iff_exists]
  simp only [get?_eq_some_iff, List.getElem?_eq_some_iff]
  constructor
  · rintro ⟨operand, hpos, hlt, -⟩
    omega
  · rintro ⟨hpos, hle⟩
    exact ⟨_, hpos, by omega, rfl⟩

lemma add_of_number? {index : IndexedOperands} {operand : Operand} {number : UInt64}
    (h : index.number? operand = some number) : index.add operand = (number, index) := by
  rw [add, h]

/-- Before an item stand, without repetitions, the items in front of its first occurrence. -/
lemma idxOf_eraseDups {items : List Operand} {item : Operand} (h : item ∈ items) :
    items.eraseDups.idxOf item = (items.take (items.idxOf item)).eraseDups.length := by
  obtain ⟨before, after, rfl, hbefore⟩ := List.eq_append_cons_of_mem h
  have hfirst : (before ++ item :: after).idxOf item = before.length := by
    rw [List.idxOf_append_of_notMem hbefore, List.idxOf_cons_self, Nat.add_zero]
  have hnew : item ∉ before.eraseDups := fun hmem => hbefore (List.mem_eraseDups.mp hmem)
  rw [hfirst, List.take_left, List.eraseDups_append, List.idxOf_append_of_notMem hnew,
    List.cons_removeAll, if_pos (by simpa using hbefore), List.eraseDups_cons,
    List.idxOf_cons_self, Nat.add_zero]

variable (offered later : List Operand)

lemma operands_addAll_empty :
    (OperandTable.empty.addAll offered).2.operands = offered.eraseDups := by
  rw [OperandTable.addAll_eq, OperandTable.operands_insertAll]
  exact newcomers_nil_left offered

/-- What a table answers after operands have been added to an empty one, and after more have been
added behind them. -/
structure Grows : Prop where
  ordered_eq : (ofOperands offered).ordered = offered.eraseDups
  /-- The map and the list are inverse to each other. -/
  inverse : ∀ operand number, (ofOperands offered).number? operand = some number ↔
    1 ≤ number.toNat ∧ (ofOperands offered).ordered[number.toNat - 1]? = some operand
  /-- An addition gives the number behind those of the operands that occurred before. -/
  returned : ∀ (place : Nat) (operand : Operand), offered[place]? = some operand →
    ∃ number, (numbersOf offered)[place]? = some number ∧
      number.toNat = 1 + (offered.take (offered.idxOf operand)).eraseDups.length ∧
      (ofOperands offered).get? number = some operand
  answers : ∀ number, ((ofOperands offered).get? number).isSome ↔
    1 ≤ number.toNat ∧ number.toNat ≤ (ofOperands offered).ordered.length
  numbers_stay : numbersOf offered <+: numbersOf (offered ++ later)
  operands_stay : ∀ number operand, (ofOperands offered).get? number = some operand →
    (ofOperands (offered ++ later)).get? number = some operand
  /-- An operand that was added once gets its number again and changes nothing. -/
  again : ∀ number operand, (ofOperands offered).number? operand = some number →
    (ofOperands (offered ++ later)).add operand = (number, ofOperands (offered ++ later))
  /-- The table without a map gives the same numbers and the same operands. -/
  same_numbers : (OperandTable.empty.addAll offered).1 = numbersOf offered
  same_operands : ∀ number,
    (OperandTable.empty.addAll offered).2.get? number = (ofOperands offered).get? number

/-- The map and the list of a table stay inverse to each other, the list is that of the distinct
operands in the order in which they first came, and no number that was given ever changes. Numbers
are words of 64 bits, and no memory holds as many operands as there are words. -/
theorem indexed_operands_grow (hfits : (offered ++ later).eraseDups.length < 2 ^ 64) :
    Grows offered later := by
  have hindexes : ∀ operands : List Operand,
      numbersOf operands = (OperandTable.empty.addAll operands).1 ∧
        (ofOperands operands).Indexes (OperandTable.empty.addAll operands).2 :=
    fun operands => indexes_empty.addAll operands
  obtain ⟨hnumbers, hnow⟩ := hindexes offered
  obtain ⟨-, hlater⟩ := hindexes (offered ++ later)
  have hordered := hnow.ordered_eq.trans (operands_addAll_empty offered)
  have hprefix : offered.eraseDups <+: (offered ++ later).eraseDups := by
    rw [List.eraseDups_append]
    exact List.prefix_append _ _
  have hsizeLater : (OperandTable.empty.addAll (offered ++ later)).2.size < UInt64.size := by
    rwa [OperandTable.size, operands_addAll_empty]
  have hsize : (OperandTable.empty.addAll offered).2.size < UInt64.size := by
    rw [OperandTable.size, operands_addAll_empty]
    exact Nat.lt_of_le_of_lt hprefix.length_le hfits
  have hstay : ∀ number operand, (ofOperands offered).get? number = some operand →
      (ofOperands (offered ++ later)).get? number = some operand := by
    intro number operand hget
    obtain ⟨hpos, hplace⟩ := get?_eq_some_iff.mp hget
    rw [hordered] at hplace
    refine get?_eq_some_iff.mpr ⟨hpos, ?_⟩
    rw [hlater.ordered_eq, operands_addAll_empty]
    obtain ⟨more, hmore⟩ := hprefix
    rw [← hmore, List.getElem?_append_left (List.getElem?_eq_some_iff.mp hplace).1]
    exact hplace
  constructor
  case ordered_eq => exact hordered
  case inverse =>
    intro operand number
    rw [hnow.number?_eq_some_iff hsize, get?_eq_some_iff]
  case returned =>
    intro place operand hplace
    have hmem := List.mem_of_getElem? hplace
    have htable : operand ∈ (OperandTable.empty.addAll offered).2.operands := by
      rw [operands_addAll_empty]
      exact List.mem_eraseDups.mpr hmem
    refine ⟨(OperandTable.empty.addAll offered).2.indexOf operand, ?_, ?_, ?_⟩
    · rw [hnumbers, OperandTable.addAll_eq, List.getElem?_map, hplace]
      rfl
    · rw [OperandTable.toNat_indexOf hsize htable, operands_addAll_empty, idxOf_eraseDups hmem,
        Nat.add_comm]
    · rw [hnow.get?_eq]
      exact OperandTable.get?_indexOf hsize htable
  case answers => exact fun _ => isSome_get?_iff
  case numbers_stay =>
    rw [numbersOf, numbersOf, addAll_append]
    exact List.prefix_append _ _
  case operands_stay => exact hstay
  case again =>
    intro number operand hnumber
    have hget := hstay _ _ ((hnow.number?_eq_some_iff hsize).mp hnumber)
    exact add_of_number? ((hlater.number?_eq_some_iff hsizeLater).mpr hget)
  case same_numbers => exact hnumbers.symm
  case same_operands => exact fun number => (hnow.get?_eq number).symm

/-- A register that comes twice, an immediate between, and a third operand later. -/
theorem indexed_operands_grow_repeated :
    let offered : List Operand := [.register "RAX", .immediate 1, .register "RAX"]
    let later : List Operand := [.immediate (-1), .register "RAX"]
    (offered ++ later).eraseDups.length < 2 ^ 64 ∧ Grows offered later ∧
      numbersOf (offered ++ later) = [1, 2, 1, 3, 1] := by
  intro offered later
  have hfits : (offered ++ later).eraseDups.length < 2 ^ 64 := by decide
  exact ⟨hfits, indexed_operands_grow offered later hfits, by decide⟩

end IndexedOperands

end BinaryFacts
