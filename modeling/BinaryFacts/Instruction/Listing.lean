import BinaryFacts.Fact.Store
import BinaryFacts.Instruction.Operand

/-!
# Listings

What decoding a binary finds: the instruction at each address, the addresses where there is none,
and the operands they use. No address is both an instruction's and invalid.
-/

namespace BinaryFacts

structure Instruction where
  address : UInt64
  size : UInt64
  /-- The word in front of the opcode, such as a repetition; empty where there is none. -/
  modifier : String
  mnemonic : String
  /-- Numbers in the operand table. -/
  operands : List UInt64
  code1 : UInt64
  code2 : UInt64
deriving DecidableEq, Inhabited

structure Listing where
  instructions : OrderedMap UInt64 Instruction := .empty
  invalid : OrderedSet UInt64 := .empty
  operands : OperandTable := .empty
deriving DecidableEq, Inhabited

namespace Listing

def empty : Listing := {}

/-- Puts an instruction at its address, which is then no longer invalid. -/
def add (listing : Listing) (instruction : Instruction) : Listing :=
  { listing with
    instructions := listing.instructions.insert instruction.address instruction
    invalid := listing.invalid.erase instruction.address }

/-- Marks an address invalid unless an instruction is there. -/
def markInvalid (listing : Listing) (address : UInt64) : Listing :=
  if listing.instructions.contains address then listing
  else { listing with invalid := listing.invalid.insert address () }

def instruction? (listing : Listing) (address : UInt64) : Option Instruction :=
  listing.instructions.get? address

def isInvalid (listing : Listing) (address : UInt64) : Bool :=
  listing.invalid.contains address

def Disjoint (listing : Listing) : Prop :=
  ∀ address, ¬(listing.instructions.contains address = true ∧ listing.isInvalid address = true)

theorem operands_markInvalid (listing : Listing) (marked : UInt64) :
    (listing.markInvalid marked).operands = listing.operands := by
  unfold markInvalid
  split <;> rfl

theorem instruction?_add (listing : Listing) (instruction : Instruction) (address : UInt64) :
    (listing.add instruction).instruction? address =
      if address = instruction.address then some instruction else listing.instruction? address :=
  OrderedMap.get?_insert ..

theorem instruction?_markInvalid (listing : Listing) (marked address : UInt64) :
    (listing.markInvalid marked).instruction? address = listing.instruction? address := by
  unfold markInvalid
  split <;> rfl

theorem isInvalid_add (listing : Listing) (instruction : Instruction) (address : UInt64) :
    (listing.add instruction).isInvalid address =
      if address = instruction.address then false else listing.isInvalid address := by
  unfold isInvalid add OrderedMap.contains
  rw [OrderedMap.get?_erase]
  split <;> rfl

theorem isInvalid_markInvalid (listing : Listing) (marked address : UInt64) :
    (listing.markInvalid marked).isInvalid address =
      if address = marked then listing.isInvalid address || (listing.instruction? address).isNone
      else listing.isInvalid address := by
  unfold markInvalid isInvalid instruction?
  by_cases h : listing.instructions.contains marked = true
  · rw [if_pos h]
    split
    · next heq =>
      subst heq
      rw [Option.isNone_eq_false_iff.mpr h, Bool.or_false]
    · rfl
  · rw [if_neg h, OrderedMap.contains, OrderedMap.get?_insert]
    split
    · next heq =>
      subst heq
      have hnone : (listing.instructions.get? address).isNone = true := by
        simpa [OrderedMap.contains] using h
      rw [hnone, Bool.or_true]
      rfl
    · rfl

theorem disjoint_iff {listing : Listing} : listing.Disjoint ↔
    ∀ address, listing.isInvalid address = true → listing.instruction? address = none := by
  apply forall_congr'
  intro address
  rw [not_and', OrderedMap.contains, Option.not_isSome_iff_eq_none]
  rfl

theorem disjoint_empty : empty.Disjoint := by
  simp [Disjoint, empty, OrderedMap.contains]

theorem disjoint_add {listing : Listing} (h : listing.Disjoint) (instruction : Instruction) :
    (listing.add instruction).Disjoint := by
  rw [disjoint_iff] at h ⊢
  intro address hinvalid
  rw [isInvalid_add] at hinvalid
  split at hinvalid
  · cases hinvalid
  · next hne => rw [instruction?_add, if_neg hne, h address hinvalid]

theorem disjoint_markInvalid {listing : Listing} (h : listing.Disjoint) (marked : UInt64) :
    (listing.markInvalid marked).Disjoint := by
  rw [disjoint_iff] at h ⊢
  intro address hinvalid
  rw [instruction?_markInvalid]
  rw [isInvalid_markInvalid] at hinvalid
  split at hinvalid
  · rcases Bool.or_eq_true_iff.mp hinvalid with hinvalid | hnone
    · exact h address hinvalid
    · exact Option.isNone_iff_eq_none.mp hnone
  · exact h address hinvalid

/-! ### Listings as facts -/

def instructionRow (instruction : Instruction) : Row :=
  [.unsigned instruction.address, .unsigned instruction.size, .symbol instruction.modifier,
    .symbol instruction.mnemonic, .list instruction.operands, .unsigned instruction.code1,
    .unsigned instruction.code2]

def registerRow? : UInt64 × Operand → Option Row
  | (index, .register name) => some [.unsigned index, .symbol name]
  | _ => none

def immediateRow? : UInt64 × Operand → Option Row
  | (index, .immediate value) => some [.unsigned index, .number value]
  | _ => none

def indirectRow? : UInt64 × Operand → Option Row
  | (number, .indirect segment base index scale displacement size) =>
    some [.unsigned number, .symbol segment, .symbol base, .symbol index, .number scale,
      .number displacement, .unsigned size]
  | _ => none

/-- Appends the listing to the five relations of instructions. -/
def insertInto (listing : Listing) (store : FactStore) : FactStore :=
  let operands := listing.operands.entries
  store
    |>.insert "instruction" (listing.instructions.values.map instructionRow)
    |>.insert "invalid_instruction" (listing.invalid.keys.map fun address => [.unsigned address])
    |>.insert "operand_register" (operands.filterMap registerRow?)
    |>.insert "operand_immediate" (operands.filterMap immediateRow?)
    |>.insert "operand_indirect" (operands.filterMap indirectRow?)

end Listing

end BinaryFacts
