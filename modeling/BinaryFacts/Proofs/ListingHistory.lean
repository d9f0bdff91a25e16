import BinaryFacts.Instruction.Listing
import BinaryFacts.Proofs.LatestItems
import Mathlib.Data.List.Induction

/-!
# Listings by their history

A listing is filled by calls that add an instruction or mark an address invalid. An addition undoes
marks before it and stops marks behind it, so that it makes no difference when an address is marked:
it is invalid just if nothing is ever added there.
-/

namespace BinaryFacts

/-- A call that records something in a listing. -/
inductive ListingCall where
  | add (instruction : Instruction)
  | markInvalid (address : UInt64)
deriving DecidableEq

namespace ListingCall

def address : ListingCall → UInt64
  | add instruction => instruction.address
  | markInvalid address => address

def apply (listing : Listing) : ListingCall → Listing
  | add instruction => listing.add instruction
  | markInvalid address => listing.markInvalid address

def added? : ListingCall → Option Instruction
  | add instruction => some instruction
  | markInvalid _ => none

/-- The instructions that calls add, in the order of the calls. -/
def additions (calls : List ListingCall) : List Instruction := calls.filterMap added?

variable {calls : List ListingCall} {instruction : Instruction}

lemma mem_additions_iff : instruction ∈ additions calls ↔ .add instruction ∈ calls := by
  unfold additions
  rw [List.mem_filterMap]
  constructor
  · rintro ⟨call, hcall, hadded⟩
    cases call with
    | add other => rwa [← Option.some.inj hadded]
    | markInvalid marked => cases hadded
  · exact fun hcall => ⟨_, hcall, rfl⟩

lemma additions_append_add (calls : List ListingCall) (instruction : Instruction) :
    additions (calls ++ [.add instruction]) = additions calls ++ [instruction] :=
  List.filterMap_append

lemma additions_append_markInvalid (calls : List ListingCall) (marked : UInt64) :
    additions (calls ++ [.markInvalid marked]) = additions calls :=
  List.filterMap_append.trans (List.append_nil _)

/-- The calls at an address are marks and additions. -/
lemma exists_address_iff {address : UInt64} :
    (∃ call ∈ calls, call.address = address) ↔
      .markInvalid address ∈ calls ∨ ∃ added ∈ additions calls, added.address = address := by
  constructor
  · rintro ⟨added | marked, hcall, haddress⟩
    · exact .inr ⟨added, mem_additions_iff.mpr hcall, haddress⟩
    · exact .inl (haddress ▸ hcall)
  · rintro (hmark | ⟨added, hadded, haddress⟩)
    · exact ⟨_, hmark, rfl⟩
    · exact ⟨_, mem_additions_iff.mp hadded, haddress⟩

end ListingCall

namespace Listing

open ListingCall

def afterCalls (calls : List ListingCall) : Listing := calls.foldl ListingCall.apply .empty

@[simp]
lemma afterCalls_nil : afterCalls [] = .empty := rfl

lemma afterCalls_append_add (calls : List ListingCall) (instruction : Instruction) :
    afterCalls (calls ++ [.add instruction]) = (afterCalls calls).add instruction :=
  List.foldl_append

lemma afterCalls_append_markInvalid (calls : List ListingCall) (marked : UInt64) :
    afterCalls (calls ++ [.markInvalid marked]) = (afterCalls calls).markInvalid marked :=
  List.foldl_append

/-- Calls do not enter operands. -/
lemma operands_afterCalls (calls : List ListingCall) : (afterCalls calls).operands = .empty := by
  induction calls using List.reverseRecOn with
  | nil => rfl
  | append_singleton calls call ih =>
    cases call with
    | add instruction => rwa [afterCalls_append_add]
    | markInvalid marked => rwa [afterCalls_append_markInvalid, operands_markInvalid]

lemma disjoint_afterCalls (calls : List ListingCall) : (afterCalls calls).Disjoint := by
  induction calls using List.reverseRecOn with
  | nil => exact disjoint_empty
  | append_singleton calls call ih =>
    cases call with
    | add instruction =>
      rw [afterCalls_append_add]
      exact disjoint_add ih instruction
    | markInvalid marked =>
      rw [afterCalls_append_markInvalid]
      exact disjoint_markInvalid ih marked

/-- The instruction at an address is the last one added there, wherever the marks are. -/
theorem instruction?_afterCalls (calls : List ListingCall) (address : UInt64) :
    (afterCalls calls).instruction? address =
      (additions calls).reverse.find? fun added => decide (added.address = address) := by
  induction calls using List.reverseRecOn with
  | nil => rfl
  | append_singleton calls call ih =>
    cases call with
    | add instruction =>
      rw [afterCalls_append_add, instruction?_add, ih, additions_append_add, List.reverse_append,
        List.reverse_singleton, List.singleton_append, List.find?_cons]
      by_cases h : instruction.address = address
      · simp [h]
      · simp [h, Ne.symm h]
    | markInvalid marked =>
      rw [afterCalls_append_markInvalid, instruction?_markInvalid, ih, additions_append_markInvalid]

lemma instruction?_afterCalls_eq_none_iff {calls : List ListingCall} {address : UInt64} :
    (afterCalls calls).instruction? address = none ↔
      ∀ added ∈ additions calls, added.address ≠ address := by
  rw [instruction?_afterCalls, List.find?_eq_none]
  simp

/-- A mark counts unless something is added at its address, before it or after it. -/
theorem isInvalid_afterCalls_iff {calls : List ListingCall} {address : UInt64} :
    (afterCalls calls).isInvalid address = true ↔
      .markInvalid address ∈ calls ∧ ∀ added ∈ additions calls, added.address ≠ address := by
  induction calls using List.reverseRecOn with
  | nil => simp [isInvalid, Listing.empty, OrderedMap.contains]
  | append_singleton calls call ih =>
    rw [List.mem_append, List.mem_singleton]
    cases call with
    | add instruction =>
      rw [afterCalls_append_add, isInvalid_add, additions_append_add]
      by_cases h : instruction.address = address
      · simp [h]
      · simp [h, Ne.symm h, ih, or_imp, forall_and]
    | markInvalid marked =>
      rw [afterCalls_append_markInvalid, isInvalid_markInvalid, additions_append_markInvalid]
      by_cases h : marked = address
      · rw [if_pos h.symm, Bool.or_eq_true, ih, Option.isNone_iff_eq_none,
          instruction?_afterCalls_eq_none_iff]
        simp [h]
      · rw [if_neg (Ne.symm h), ih]
        simp [Ne.symm h]

/-- Which instructions were added last at their addresses, and which addresses were marked, decides
on the whole listing. -/
lemma afterCalls_congr {calls others : List ListingCall}
    (hadded : ∀ address, (additions calls).filter (·.address = address) =
      (additions others).filter (·.address = address))
    (hmarked : ∀ address, .markInvalid address ∈ calls ↔ .markInvalid address ∈ others) :
    afterCalls calls = afterCalls others := by
  have hinstruction : ∀ address,
      (afterCalls calls).instruction? address = (afterCalls others).instruction? address := by
    intro address
    rw [instruction?_afterCalls, instruction?_afterCalls, ← List.getLast?_filter,
      ← List.getLast?_filter, hadded]
  have hinvalid : ∀ address,
      (afterCalls calls).isInvalid address = (afterCalls others).isInvalid address := by
    intro address
    rw [Bool.eq_iff_iff, isInvalid_afterCalls_iff, isInvalid_afterCalls_iff, hmarked,
      ← instruction?_afterCalls_eq_none_iff, ← instruction?_afterCalls_eq_none_iff, hinstruction]
  rw [Listing.mk.injEq]
  exact ⟨OrderedMap.ext_get? hinstruction, OrderedSet.ext_contains hinvalid, by
    rw [operands_afterCalls, operands_afterCalls]⟩

end Listing

/-- What a listing tells of the calls that filled it. Every address that they name is either an
instruction's or invalid. -/
structure ListsCalls (calls : List ListingCall) (listing : Listing) : Prop where
  instruction_iff : ∀ address instruction, listing.instruction? address = some instruction ↔
    instruction.address = address ∧
      IsLatest Instruction.address (ListingCall.additions calls) instruction
  invalid_iff : ∀ address, listing.isInvalid address = true ↔
    .markInvalid address ∈ calls ∧
      ∀ instruction, .add instruction ∈ calls → instruction.address ≠ address
  disjoint : listing.Disjoint
  named_iff : ∀ address, (∃ call ∈ calls, call.address = address) ↔
    (listing.instructions.contains address ^^ listing.isInvalid address) = true

lemma Listing.listsCalls_afterCalls (calls : List ListingCall) :
    ListsCalls calls (afterCalls calls) where
  instruction_iff address instruction := by
    rw [instruction?_afterCalls, find?_reverse_eq_some_iff]
  invalid_iff address := by
    rw [isInvalid_afterCalls_iff]
    simp only [ListingCall.mem_additions_iff]
  disjoint := disjoint_afterCalls calls
  named_iff address := by
    have hinvalid := @isInvalid_afterCalls_iff calls address
    have hnone := @instruction?_afterCalls_eq_none_iff calls address
    rw [ListingCall.exists_address_iff]
    cases hinstruction : (afterCalls calls).instruction? address with
    | none =>
      have hcontains : (afterCalls calls).instructions.contains address = false :=
        congrArg Option.isSome hinstruction
      have hadded := hnone.mp hinstruction
      rw [hcontains, Bool.false_xor, hinvalid, and_iff_left hadded]
      exact or_iff_left fun ⟨added, hmem, haddress⟩ => hadded added hmem haddress
    | some instruction =>
      have hcontains : (afterCalls calls).instructions.contains address = true :=
        congrArg Option.isSome hinstruction
      have hsome := mt hnone.mpr (by simp [hinstruction])
      have hvalid : (afterCalls calls).isInvalid address = false := by
        rw [← Bool.not_eq_true, hinvalid]
        exact fun h => hsome h.2
      rw [hcontains, hvalid, Bool.true_xor]
      refine iff_of_true (.inr ?_) rfl
      simpa using hsome

/-- A listing does not tell in which order it was filled, but for the additions at each address. -/
theorem calls_determine_listing (calls : List ListingCall) :
    ListsCalls calls (Listing.afterCalls calls) ∧
      ∀ reordered : List ListingCall, reordered.Perm calls →
        (∀ address, (ListingCall.additions reordered).filter (·.address = address) =
          (ListingCall.additions calls).filter (·.address = address)) →
        Listing.afterCalls reordered = Listing.afterCalls calls := by
  refine ⟨Listing.listsCalls_afterCalls calls, fun reordered hperm hadded => ?_⟩
  exact Listing.afterCalls_congr hadded fun _ => hperm.mem_iff

/-- An instruction that is told by its first code. -/
def codedNop (code : UInt64) : Instruction := ⟨0x1000, 4, "", "NOP", [], code, 0⟩

/-- Two instructions added at one address, between marks at this address and at another. -/
def markedNops : List ListingCall :=
  [.markInvalid 0x1000, .add (codedNop 1), .markInvalid 0x1004, .add (codedNop 2)]

theorem calls_determine_listing_markedNops :
    let reordered : List ListingCall :=
      [.add (codedNop 1), .add (codedNop 2), .markInvalid 0x1004, .markInvalid 0x1000]
    reordered.Perm markedNops ∧
      Listing.afterCalls reordered = Listing.afterCalls markedNops ∧
      (Listing.afterCalls markedNops).instruction? 0x1000 = some (codedNop 2) ∧
      (Listing.afterCalls markedNops).isInvalid 0x1004 = true := by
  intro reordered
  have hperm : reordered.Perm markedNops := by decide
  obtain ⟨hlists, hreordered⟩ := calls_determine_listing markedNops
  refine ⟨hperm, hreordered reordered hperm fun _ => rfl, ?_, ?_⟩
  · refine (hlists.instruction_iff _ _).mpr ⟨rfl, [codedNop 1], [], rfl, ?_⟩
    exact fun _ hother => absurd hother List.not_mem_nil
  · refine (hlists.invalid_iff _).mpr ⟨by decide, fun instruction hadd => ?_⟩
    have hcases : instruction = codedNop 1 ∨ instruction = codedNop 2 := by
      simpa [markedNops] using hadd
    rcases hcases with rfl | rfl <;> decide

end BinaryFacts
