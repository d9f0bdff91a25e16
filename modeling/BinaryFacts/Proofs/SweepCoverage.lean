import BinaryFacts.Loader.Header
import BinaryFacts.Proofs.OperandNumbers
import BinaryFacts.Proofs.SweepAttempts
import Mathlib.Data.List.Induction
import Mathlib.Data.List.Rotate

/-!
# What a sweep records

After any attempts, an address holds the instruction of the last attempt accepted there, and is
invalid exactly if all attempts there were rejected. The main statement says so of the relations
that a decoder fills from an empty store.
-/

namespace BinaryFacts

/-- The instruction that an accepted attempt puts at an address: its operands by their numbers in
the table, the destination last. -/
def NormalInstruction.entered (n : NormalInstruction) (table : OperandTable) (address : UInt64) :
    Instruction :=
  { address
    size := n.size
    modifier := n.modifier
    mnemonic := n.mnemonic
    operands := (n.operands.map table.indexOf).rotate 1
    code1 := 0
    code2 := 0 }

lemma NormalInstruction.address_entered (n : NormalInstruction) (table : OperandTable)
    (address : UInt64) : (n.entered table address).address = address := rfl

lemma NormalInstruction.operands_entered (n : NormalInstruction) (table : OperandTable)
    (address : UInt64) :
    (n.entered table address).operands = (n.operands.map table.indexOf).rotate 1 := rfl

lemma rotateDestination_eq_rotate {α : Type} (xs : List α) : rotateDestination xs = xs.rotate 1 := by
  cases xs with
  | nil => rfl
  | cons first rest => rw [List.rotate_cons_succ, List.rotate_zero]; rfl

namespace Listing

lemma record_some (listing : Listing) (address : UInt64) (n : NormalInstruction) :
    listing.record address (some n) =
      { listing with operands := listing.operands.insertAll n.operands }.add
        (n.entered (listing.operands.insertAll n.operands) address) := by
  simp only [record, OperandTable.addAll_eq, rotateDestination_eq_rotate,
    NormalInstruction.entered]

/-! ### One attempt -/

lemma operands_enter (listing : Listing) (x : Attempt) :
    (listing.enter x).operands =
      listing.operands.insertAll ((x.found.map NormalInstruction.operands).getD []) := by
  unfold enter
  cases x.found with
  | none => exact operands_markInvalid listing x.recordAt
  | some n => rw [record_some]; rfl

lemma instruction?_enter (listing : Listing) (x : Attempt) (address : UInt64) :
    (listing.enter x).instruction? address =
      if x.recordAt = address ∧ x.found.isSome then
        x.found.map (·.entered (listing.enter x).operands address)
      else listing.instruction? address := by
  rw [operands_enter]
  unfold enter
  cases x.found with
  | none => simp [record, instruction?_markInvalid]
  | some n =>
    rw [record_some, instruction?_add, NormalInstruction.address_entered]
    by_cases h : address = x.recordAt
    · rw [if_pos h, h]
      simp
    · rw [if_neg h, if_neg fun hrecord => h hrecord.1.symm]
      rfl

lemma isInvalid_enter (listing : Listing) (x : Attempt) (address : UInt64) :
    (listing.enter x).isInvalid address =
      if x.recordAt = address then
        x.found.isNone && (listing.isInvalid address || (listing.instruction? address).isNone)
      else listing.isInvalid address := by
  unfold enter
  cases x.found with
  | none => simp [record, isInvalid_markInvalid, eq_comm]
  | some n =>
    rw [record_some, isInvalid_add, NormalInstruction.address_entered]
    by_cases h : address = x.recordAt
    · rw [if_pos h, if_pos h.symm]
      rfl
    · rw [if_neg h, if_neg (Ne.symm h)]
      rfl

/-! ### All attempts -/

def enterAll (xs : List Attempt) : Listing := xs.foldl enter .empty

@[simp]
lemma enterAll_nil : enterAll [] = .empty := rfl

@[simp]
lemma enterAll_append_singleton (xs : List Attempt) (x : Attempt) :
    enterAll (xs ++ [x]) = (enterAll xs).enter x := by
  simp [enterAll]

lemma mem_operands_enterAll {xs : List Attempt} {operand : Operand} :
    operand ∈ (enterAll xs).operands.operands ↔
      ∃ x ∈ xs, ∃ n, x.found = some n ∧ operand ∈ n.operands := by
  induction xs using List.reverseRecOn with
  | nil => simp [Listing.empty, OperandTable.empty]
  | append_singleton xs x ih =>
    rw [enterAll_append_singleton, operands_enter, OperandTable.mem_insertAll, ih]
    simp only [List.mem_append, List.mem_singleton, or_and_right, exists_or, exists_eq_left]
    cases x.found <;> simp

/-- The attempts accepted at an address, in the order in which they were made. -/
def acceptedAt (xs : List Attempt) (address : UInt64) : List Attempt :=
  xs.filter fun x => x.recordAt = address ∧ x.found.isSome

lemma mem_acceptedAt {xs : List Attempt} {address : UInt64} {x : Attempt} :
    x ∈ acceptedAt xs address ↔ x ∈ xs ∧ x.recordAt = address ∧ x.found.isSome = true := by
  simp [acceptedAt]

lemma acceptedAt_append_singleton (xs : List Attempt) (x : Attempt) (address : UInt64) :
    acceptedAt (xs ++ [x]) address = acceptedAt xs address ++
      if x.recordAt = address ∧ x.found.isSome then [x] else [] := by
  unfold acceptedAt
  rw [List.filter_append, List.filter_singleton]
  simp

/-- The last accepted attempt determines the instruction. Its operands keep their numbers while the
table grows. -/
theorem instruction?_enterAll (xs : List Attempt) (address : UInt64) :
    (enterAll xs).instruction? address =
      ((acceptedAt xs address).getLast?.bind Attempt.found).map
        (·.entered (enterAll xs).operands address) := by
  induction xs using List.reverseRecOn with
  | nil => rfl
  | append_singleton xs x ih =>
    rw [enterAll_append_singleton, instruction?_enter, acceptedAt_append_singleton]
    by_cases h : x.recordAt = address ∧ x.found.isSome
    · rw [if_pos h, if_pos h, List.getLast?_append]
      rfl
    · rw [if_neg h, if_neg h, List.append_nil, ih]
      cases hlast : (acceptedAt xs address).getLast? with
      | none => rfl
      | some y =>
        obtain ⟨hy, -, -⟩ := mem_acceptedAt.mp (List.mem_of_getLast? hlast)
        cases hfound : y.found with
        | none => simp [hfound]
        | some n =>
          have hkeep : n.operands.map ((enterAll xs).enter x).operands.indexOf =
              n.operands.map (enterAll xs).operands.indexOf := by
            apply List.map_congr_left
            intro operand hoperand
            rw [operands_enter]
            exact OperandTable.indexOf_insertAll
              (mem_operands_enterAll.mpr ⟨y, hy, n, hfound, hoperand⟩) _
          simp [hfound, NormalInstruction.entered, hkeep]

lemma instruction?_enterAll_eq_none_iff {xs : List Attempt} {address : UInt64} :
    (enterAll xs).instruction? address = none ↔
      ∀ x ∈ xs, x.recordAt = address → x.found = none := by
  rw [instruction?_enterAll, Option.map_eq_none_iff]
  cases hlast : (acceptedAt xs address).getLast? with
  | none =>
    rw [List.getLast?_eq_none_iff] at hlast
    simp only [Option.bind_none, true_iff]
    intro x hx hrecord
    by_contra hfound
    have hmem := mem_acceptedAt.mpr ⟨hx, hrecord, Option.isSome_iff_ne_none.mpr hfound⟩
    exact List.not_mem_nil (hlast ▸ hmem)
  | some x =>
    obtain ⟨hx, hrecord, hfound⟩ := mem_acceptedAt.mp (List.mem_of_getLast? hlast)
    have hne := Option.isSome_iff_ne_none.mp hfound
    exact ⟨fun h => absurd h hne, fun h => absurd (h x hx hrecord) hne⟩

/-- An address is invalid once it has been tried and as long as nothing is accepted there. -/
theorem isInvalid_enterAll_iff {xs : List Attempt} {address : UInt64} :
    (enterAll xs).isInvalid address = true ↔
      (∃ x ∈ xs, x.recordAt = address) ∧ (enterAll xs).instruction? address = none := by
  rw [instruction?_enterAll_eq_none_iff]
  induction xs using List.reverseRecOn with
  | nil => simp [isInvalid, Listing.empty, OrderedMap.contains]
  | append_singleton xs x ih =>
    rw [enterAll_append_singleton, isInvalid_enter]
    by_cases h : x.recordAt = address
    · rw [if_pos h, Bool.and_eq_true, Bool.or_eq_true, ih, Option.isNone_iff_eq_none,
        Option.isNone_iff_eq_none, instruction?_enterAll_eq_none_iff]
      constructor
      · rintro ⟨hfound, hothers⟩
        refine ⟨⟨x, by simp, h⟩, fun y hy hrecord => ?_⟩
        rcases List.mem_append.mp hy with hy | hy
        · exact hothers.elim (fun hall => hall.2 y hy hrecord) (fun hall => hall y hy hrecord)
        · rw [List.mem_singleton.mp hy]
          exact hfound
      · rintro ⟨-, hall⟩
        exact ⟨hall x (by simp) h,
          .inr fun y hy hrecord => hall y (List.mem_append_left _ hy) hrecord⟩
    · rw [if_neg h, ih]
      simp [or_imp, forall_and, h]

end Listing

/-! ### The relations of a sweep -/

/-- The first column of a relation, none where it is no address. -/
def FactStore.firstColumn (store : FactStore) (relation : String) : List (Option UInt64) :=
  (store.rows relation).map fun row => row.head?.bind Value.unsigned?

/-- The last attempt accepted at its address of record. -/
def Attempt.IsLastAccepted (binary : Binary) (decoder : Decoder) (d : Disassembler)
    (x : Attempt) : Prop :=
  x.Of binary decoder d ∧ x.found.isSome ∧
    ∀ y : Attempt, y.Of binary decoder d → y.recordAt = x.recordAt → y.found.isSome →
      y = x ∨ y.Before x

lemma Attempt.IsLastAccepted.eq_of_recordAt {binary : Binary} {decoder : Decoder}
    {d : Disassembler} {x y : Attempt} (hx : x.IsLastAccepted binary decoder d)
    (hy : y.IsLastAccepted binary decoder d) (h : x.recordAt = y.recordAt) : x = y := by
  rcases hx.2.2 y hy.1 h.symm hy.2.1 with heq | hyx
  · exact heq.symm
  rcases hy.2.2 x hx.1 h hx.2.1 with heq | hxy
  · exact heq
  unfold Before at hxy hyx
  omega

/-- The relations of instructions and of invalid addresses tell what a sweep tried: `found` and
`missed` are their addresses. -/
structure SweepCoverage (binary : Binary) (decoder : Decoder) (d : Disassembler)
    (store : FactStore) (found missed : List UInt64) : Prop where
  found_column : store.firstColumn "instruction" = found.map some
  missed_rows : store.rows "invalid_instruction" = missed.map fun address => [.unsigned address]
  found_ascending : found.Pairwise (· < ·)
  missed_ascending : missed.Pairwise (· < ·)
  nodup : (found ++ missed).Nodup
  covered : ∀ address, address ∈ found ++ missed ↔
    ∃ x : Attempt, x.Of binary decoder d ∧ x.recordAt = address
  accepted : ∀ address, address ∈ found ↔
    ∃ x : Attempt, x.Of binary decoder d ∧ x.recordAt = address ∧ x.found.isSome
  last : ∀ row ∈ store.rows "instruction", ∃ (x : Attempt) (n : NormalInstruction),
    x.IsLastAccepted binary decoder d ∧ x.found = some n ∧
    row = [.unsigned x.recordAt, .unsigned n.size, .symbol n.modifier, .symbol n.mnemonic,
      .list ((n.operands.map (binary.sweep decoder d).operands.indexOf).rotate 1),
      .unsigned 0, .unsigned 0]

lemma Binary.isLastAccepted_of_getLast? {binary : Binary} {decoder : Decoder} {d : Disassembler}
    {address : UInt64} {x : Attempt}
    (h : (Listing.acceptedAt (binary.attempts decoder d) address).getLast? = some x) :
    x.recordAt = address ∧ x.IsLastAccepted binary decoder d := by
  obtain ⟨earlier, hsplit⟩ := List.getLast?_eq_some_iff.mp h
  have hmem : ∀ y, y ∈ earlier ++ [x] ↔ y ∈ binary.attempts decoder d ∧ y.recordAt = address ∧
      y.found.isSome = true := by
    intro y
    rw [← hsplit]
    exact Listing.mem_acceptedAt
  obtain ⟨hx, hrecord, hfound⟩ := (hmem x).mp (by simp)
  refine ⟨hrecord, mem_attempts_iff.mp hx, hfound, fun y hy hyrecord hyfound => ?_⟩
  have horder := (binary.attempts_pairwise decoder d).filter
    fun x => x.recordAt = address ∧ x.found.isSome
  change (Listing.acceptedAt _ _).Pairwise _ at horder
  rw [hsplit] at horder
  have hy' := (hmem y).mpr ⟨mem_attempts_iff.mpr hy, hyrecord.trans hrecord, hyfound⟩
  rcases List.mem_append.mp hy' with hearlier | hlast
  · exact .inr ((List.pairwise_append.mp horder).2.2 y hearlier x (by simp) hyrecord)
  · exact .inl (List.mem_singleton.mp hlast)

/-- A listed instruction is the one of the last accepted attempt, at the address that it has. -/
lemma Binary.instruction?_sweep {binary : Binary} {decoder : Decoder} {d : Disassembler}
    {address : UInt64} {instruction : Instruction}
    (h : (binary.sweep decoder d).instruction? address = some instruction) :
    ∃ (x : Attempt) (n : NormalInstruction), x.recordAt = address ∧
      x.IsLastAccepted binary decoder d ∧ x.found = some n ∧
      instruction = n.entered (binary.sweep decoder d).operands address := by
  rw [sweep_eq_foldl_attempts] at h ⊢
  change (Listing.enterAll _).instruction? address = some instruction at h
  rw [Listing.instruction?_enterAll] at h
  obtain ⟨n, hn, rfl⟩ := Option.map_eq_some_iff.mp h
  obtain ⟨x, hlast, hfound⟩ := Option.bind_eq_some_iff.mp hn
  obtain ⟨hrecord, hx⟩ := isLastAccepted_of_getLast? hlast
  exact ⟨x, n, hrecord, hx, hfound, rfl⟩

lemma Binary.mem_instructions_sweep_iff {binary : Binary} {decoder : Decoder} {d : Disassembler}
    {address : UInt64} :
    address ∈ (binary.sweep decoder d).instructions.keys ↔
      ∃ x : Attempt, x.Of binary decoder d ∧ x.recordAt = address ∧ x.found.isSome := by
  rw [OrderedMap.mem_keys_iff, ← Option.isSome_iff_exists, ← not_iff_not,
    Option.not_isSome_iff_eq_none, sweep_eq_foldl_attempts]
  change (Listing.enterAll _).instruction? address = none ↔ _
  rw [Listing.instruction?_enterAll_eq_none_iff]
  simp only [mem_attempts_iff, Option.isSome_iff_ne_none, not_exists, not_and, not_not]

lemma Binary.mem_invalid_sweep_iff {binary : Binary} {decoder : Decoder} {d : Disassembler}
    {address : UInt64} :
    address ∈ (binary.sweep decoder d).invalid.keys ↔
      (∃ x : Attempt, x.Of binary decoder d ∧ x.recordAt = address) ∧
        address ∉ (binary.sweep decoder d).instructions.keys := by
  rw [OrderedMap.mem_keys_iff, OrderedMap.mem_keys_iff, ← Option.isSome_iff_exists,
    ← Option.isSome_iff_exists, Option.not_isSome_iff_eq_none, sweep_eq_foldl_attempts]
  change (Listing.enterAll _).isInvalid address = true ↔
    _ ∧ (Listing.enterAll _).instruction? address = none
  rw [Listing.isInvalid_enterAll_iff]
  simp only [mem_attempts_iff]

lemma Listing.rows_instruction (listing : Listing) (program : String) :
    (listing.insertInto (.new program)).rows "instruction" =
      listing.instructions.values.map instructionRow := by
  simp [insertInto]

lemma Binary.mem_rows_instruction_iff {binary : Binary} {decoder : Decoder} {d : Disassembler}
    {program : String} {row : Row} :
    row ∈ ((binary.sweep decoder d).insertInto (.new program)).rows "instruction" ↔
      ∃ (x : Attempt) (n : NormalInstruction), x.IsLastAccepted binary decoder d ∧
        x.found = some n ∧
        row = Listing.instructionRow (n.entered (binary.sweep decoder d).operands x.recordAt) := by
  rw [Listing.rows_instruction, List.mem_map]
  constructor
  · rintro ⟨instruction, hmem, rfl⟩
    obtain ⟨address, hget⟩ := OrderedMap.mem_values_iff.mp hmem
    obtain ⟨x, n, rfl, hx, hfound, rfl⟩ := instruction?_sweep hget
    exact ⟨x, n, hx, hfound, rfl⟩
  · rintro ⟨x, n, hx, hfound, rfl⟩
    have hkey := mem_instructions_sweep_iff.mpr ⟨x, hx.1, rfl, hx.2.1⟩
    obtain ⟨instruction, hget⟩ := OrderedMap.mem_keys_iff.mp hkey
    obtain ⟨y, m, hrecord, hy, hyfound, rfl⟩ := instruction?_sweep hget
    obtain rfl := hx.eq_of_recordAt hy hrecord.symm
    obtain rfl : n = m := Option.some.inj (hfound.symm.trans hyfound)
    exact ⟨_, OrderedMap.mem_values_iff.mpr ⟨_, hget⟩, rfl⟩

lemma Listing.rows_invalid_instruction (listing : Listing) (program : String) :
    (listing.insertInto (.new program)).rows "invalid_instruction" =
      listing.invalid.keys.map fun address => [.unsigned address] := by
  simp [insertInto]

lemma OrderedMap.keys_pairwise_lt {ν : Type} (m : OrderedMap UInt64 ν) :
    m.keys.Pairwise (· < ·) :=
  m.keys_ascending.imp fun h => UInt64.lt_iff_toNat_lt.mpr (of_decide_eq_true h)

lemma OrderedMap.nodup_keys {ν : Type} (m : OrderedMap UInt64 ν) : m.keys.Nodup :=
  m.keys_pairwise_lt.imp fun h => UInt64.ne_of_lt h

/-- A sweep tries every candidate address and no other. Each address tried has one row, among the
instructions if anything was accepted there, and then the row of the last accepted attempt. -/
theorem sweep_covers_candidates (binary : Binary) (decoder : Decoder) (d : Disassembler)
    (program : String) :
    ∃ found missed, SweepCoverage binary decoder d
      (Loader.instructions decoder d binary (.new program)) found missed := by
  unfold Loader.instructions
  refine ⟨(binary.sweep decoder d).instructions.keys, (binary.sweep decoder d).invalid.keys, ?_⟩
  constructor
  case found_column =>
    unfold FactStore.firstColumn OrderedMap.keys
    rw [Listing.rows_instruction, OrderedMap.values, List.map_map, List.map_map, List.map_map]
    apply List.map_congr_left
    rintro ⟨address, instruction⟩ hentry
    obtain ⟨x, n, -, -, -, rfl⟩ :=
      Binary.instruction?_sweep (OrderedMap.get?_eq_some_iff.mpr hentry)
    rfl
  case missed_rows => exact Listing.rows_invalid_instruction _ _
  case found_ascending => exact OrderedMap.keys_pairwise_lt _
  case missed_ascending => exact OrderedMap.keys_pairwise_lt _
  case nodup =>
    refine List.nodup_append.mpr ⟨OrderedMap.nodup_keys _, OrderedMap.nodup_keys _, ?_⟩
    intro a ha b hb heq
    exact (Binary.mem_invalid_sweep_iff.mp hb).2 (heq ▸ ha)
  case covered =>
    intro address
    rw [List.mem_append, Binary.mem_invalid_sweep_iff, Binary.mem_instructions_sweep_iff]
    constructor
    · rintro (⟨x, hx, hrecord, -⟩ | ⟨hx, -⟩)
      · exact ⟨x, hx, hrecord⟩
      · exact hx
    · intro hx
      by_cases hfound : ∃ x : Attempt, x.Of binary decoder d ∧ x.recordAt = address ∧ x.found.isSome
      · exact .inl hfound
      · exact .inr ⟨hx, hfound⟩
  case accepted => exact fun address => Binary.mem_instructions_sweep_iff
  case last =>
    intro row hrow
    exact Binary.mem_rows_instruction_iff.mp hrow

end BinaryFacts
