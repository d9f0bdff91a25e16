import BinaryFacts.Decoder.Sweep
import Mathlib.Algebra.Group.Nat.Defs
import Mathlib.Tactic.Lemma

/-!
# Attempts of a sweep

A sweep records attempts one by one: each view of each candidate address of each executable
section. This file lists the attempts with their places. The list holds exactly the attempts that
`Attempt.Of` describes, in order of sections and offsets, and the sweep is the run over it.
-/

namespace BinaryFacts

/-- One look at a binary: `steps` steps into a section, with the address of record and what the
view there shows. -/
structure Attempt where
  sectionIndex : Nat
  steps : Nat
  recordAt : UInt64
  found : Option NormalInstruction
deriving DecidableEq

/-- How a decoder reads the code at an address, and where it records each reading. -/
inductive Decoder.Reads : Decoder → UInt64 → CodeMode → UInt64 → Prop
  | x64 (address : UInt64) : Reads .x64 address .x64 address
  | mips32 (order : Endian) (address : UInt64) :
    Reads (.mips32 order) address (.mips32 order) address
  | thumb (order : Endian) (address : UInt64) :
    Reads (.arm32 order) address (.thumb order) (address ||| 1)
  | arm (order : Endian) (address : UInt64) (h : 4 ∣ address.toNat) :
    Reads (.arm32 order) address (.arm order) address

namespace Attempt

/-- The attempts of a sweep: readings of the addresses a whole number of steps into an executable
section with contents, within the contents and within the address space. -/
def Of (binary : Binary) (decoder : Decoder) (d : Disassembler) (x : Attempt) : Prop :=
  ∃ s bytes mode, binary.sections[x.sectionIndex]? = some s ∧ s.flags.executable = true ∧
    s.bytes = some bytes ∧ x.steps * decoder.step < bytes.length ∧
    s.address.toNat + x.steps * decoder.step < 2 ^ 64 ∧
    let address := s.address + UInt64.ofNat (x.steps * decoder.step)
    decoder.Reads address mode x.recordAt ∧
      x.found = (d mode (bytes.drop (x.steps * decoder.step)) address).bind mode.normalize?

/-- Whether an attempt comes earlier than another in order of sections and offsets. -/
def Before (x y : Attempt) : Prop :=
  x.sectionIndex < y.sectionIndex ∨ x.sectionIndex = y.sectionIndex ∧ x.steps < y.steps

end Attempt

lemma Decoder.mem_views_iff {decoder : Decoder} {address : UInt64} {view : CodeView} :
    view ∈ decoder.views address ↔ decoder.Reads address view.mode view.recordAt := by
  obtain ⟨mode, recordAt⟩ := view
  constructor
  · intro h
    cases decoder with
    | x64 =>
      obtain ⟨rfl, rfl⟩ : mode = .x64 ∧ recordAt = address := by simpa [views] using h
      exact .x64 recordAt
    | mips32 order =>
      obtain ⟨rfl, rfl⟩ : mode = .mips32 order ∧ recordAt = address := by simpa [views] using h
      exact .mips32 order recordAt
    | arm32 order =>
      rcases List.mem_append.mp h with h | h
      · split at h
        · next hfour =>
          obtain ⟨rfl, rfl⟩ : mode = .arm order ∧ recordAt = address := by simpa using h
          exact .arm order recordAt (Nat.dvd_of_mod_eq_zero hfour)
        · exact absurd h List.not_mem_nil
      · obtain ⟨rfl, rfl⟩ : mode = .thumb order ∧ recordAt = address ||| 1 := by simpa using h
        exact .thumb order address
  · intro h
    cases h with
    | x64 | mips32 => simp [views]
    | thumb => simp [views]
    | arm _ _ hfour => simp [views, Nat.mod_eq_zero_of_dvd hfour]

/-- The two views of ARM code have different addresses of record. -/
lemma Decoder.views_pairwise (decoder : Decoder) (address : UInt64) :
    (decoder.views address).Pairwise fun v w => v.recordAt ≠ w.recordAt := by
  cases decoder with
  | x64 | mips32 => simp [views]
  | arm32 order =>
    by_cases hfour : address.toNat % 4 = 0
    · have hne : address ≠ address ||| 1 := by
        intro heq
        -- the last bit of an address divisible by four is not set
        have hbit := congrArg (fun a => a.toNat.testBit 0) heq
        have heven : address.toNat % 2 = 0 := by omega
        simp [Nat.testBit_zero, heven] at hbit
      simpa [views, hfour] using hne
    · simp [views, hfour]

def Section.attemptsAt (s : Section) (decoder : Decoder) (d : Disassembler) (index : Nat)
    (bytes : List UInt8) (steps : Nat) : List Attempt :=
  let offset := steps * decoder.step
  if s.address.toNat + offset < UInt64.size then
    let address := s.address + UInt64.ofNat offset
    (decoder.views address).map fun view =>
      ⟨index, steps, view.recordAt, Decoder.look d (bytes.drop offset) address view⟩
  else []

def Section.attempts (s : Section) (decoder : Decoder) (d : Disassembler) (index : Nat) :
    List Attempt :=
  match s.bytes with
  | none => []
  | some bytes =>
    (List.range ((bytes.length + decoder.step - 1) / decoder.step)).flatMap
      (s.attemptsAt decoder d index bytes)

/-- The attempts of a sweep in the order in which they are made. -/
def Binary.attempts (binary : Binary) (decoder : Decoder) (d : Disassembler) : List Attempt :=
  binary.sections.zipIdx.flatMap fun (s, index) =>
    if s.flags.executable then s.attempts decoder d index else []

def Listing.enter (listing : Listing) (x : Attempt) : Listing :=
  listing.record x.recordAt x.found

/-! ### The sweep as a run over its attempts -/

lemma Section.foldl_attempts (s : Section) (decoder : Decoder) (d : Disassembler) (index : Nat)
    (listing : Listing) :
    (s.attempts decoder d index).foldl Listing.enter listing =
      (s.candidates decoder.step).foldl
        (fun listing (address, bytes) => decoder.decode d bytes address listing) listing := by
  unfold attempts candidates
  cases s.bytes with
  | none => rfl
  | some bytes =>
    dsimp only
    rw [List.foldl_flatMap, List.foldl_filterMap]
    congr 1
    funext listing steps
    unfold attemptsAt
    by_cases h : s.address.toNat + steps * decoder.step < UInt64.size
    · simp only [h, if_true, List.foldl_map]
      rfl
    · simp only [h, if_false]
      rfl

theorem Binary.sweep_eq_foldl_attempts (binary : Binary) (decoder : Decoder) (d : Disassembler) :
    binary.sweep decoder d = (binary.attempts decoder d).foldl Listing.enter .empty := by
  have hindex : ∀ (sections : List Section) (start : Nat) (listing : Listing),
      (sections.zipIdx start).foldl (fun listing (s, index) =>
        (if s.flags.executable then s.attempts decoder d index else []).foldl Listing.enter listing)
        listing =
      sections.foldl (fun listing s =>
        if s.flags.executable then (s.candidates decoder.step).foldl
          (fun listing (address, bytes) => decoder.decode d bytes address listing) listing
        else listing) listing := by
    intro sections
    induction sections with
    | nil => intro start listing; rfl
    | cons s rest ih =>
      intro start listing
      rw [List.zipIdx_cons, List.foldl_cons, List.foldl_cons, ih]
      congr 1
      by_cases h : s.flags.executable = true
      · simp only [h, if_true]
        exact s.foldl_attempts decoder d start listing
      · simp only [h]
        rfl
  unfold sweep candidates attempts
  rw [List.foldl_flatMap, List.foldl_filter, List.foldl_flatMap]
  exact (hindex binary.sections 0 .empty).symm

/-! ### Which attempts there are -/

lemma Section.mem_attemptsAt_iff {s : Section} {decoder : Decoder} {d : Disassembler}
    {index steps : Nat} {bytes : List UInt8} {x : Attempt} :
    x ∈ s.attemptsAt decoder d index bytes steps ↔
      x.sectionIndex = index ∧ x.steps = steps ∧
      s.address.toNat + steps * decoder.step < 2 ^ 64 ∧
      ∃ view ∈ decoder.views (s.address + UInt64.ofNat (steps * decoder.step)),
        x.recordAt = view.recordAt ∧ x.found = Decoder.look d (bytes.drop (steps * decoder.step))
          (s.address + UInt64.ofNat (steps * decoder.step)) view := by
  obtain ⟨sectionIndex, stepIndex, recordAt, found⟩ := x
  unfold attemptsAt
  dsimp only
  by_cases h : s.address.toNat + steps * decoder.step < UInt64.size
  · rw [if_pos h]
    simp only [List.mem_map, Attempt.mk.injEq]
    constructor
    · rintro ⟨view, hview, rfl, rfl, rfl, rfl⟩
      exact ⟨rfl, rfl, h, view, hview, rfl, rfl⟩
    · rintro ⟨rfl, rfl, -, view, hview, rfl, rfl⟩
      exact ⟨view, hview, rfl, rfl, rfl, rfl⟩
  · rw [if_neg h]
    constructor
    · intro hx
      exact absurd hx List.not_mem_nil
    · rintro ⟨-, -, hfits, -⟩
      exact absurd hfits h

lemma lt_steps_iff {length step k : Nat} (hstep : 0 < step) :
    k < (length + step - 1) / step ↔ k * step < length := by
  rw [Nat.lt_iff_add_one_le, Nat.le_div_iff_mul_le hstep, Nat.succ_mul]
  omega

theorem Binary.mem_attempts_iff {binary : Binary} {decoder : Decoder} {d : Disassembler}
    {x : Attempt} : x ∈ binary.attempts decoder d ↔ x.Of binary decoder d := by
  unfold attempts Attempt.Of
  rw [List.mem_flatMap]
  constructor
  · rintro ⟨⟨s, index⟩, hs, hx⟩
    have hs := List.mk_mem_zipIdx_iff_getElem?.mp hs
    by_cases hexec : s.flags.executable = true
    · simp only [hexec, if_true, Section.attempts] at hx
      split at hx
      · exact absurd hx List.not_mem_nil
      · next bytes hbytes =>
        obtain ⟨k, hk, hx⟩ := List.mem_flatMap.mp hx
        obtain ⟨rfl, rfl, hfits, view, hview, hrecord, hfound⟩ := Section.mem_attemptsAt_iff.mp hx
        have hlength := (lt_steps_iff decoder.step_pos).mp (List.mem_range.mp hk)
        have hreads := Decoder.mem_views_iff.mp hview
        rw [← hrecord] at hreads
        exact ⟨s, bytes, view.mode, hs, hexec, hbytes, hlength, hfits, hreads, hfound⟩
    · simp [hexec] at hx
  · rintro ⟨s, bytes, mode, hs, hexec, hbytes, hlength, hfits, hreads, hfound⟩
    refine ⟨(s, x.sectionIndex), List.mk_mem_zipIdx_iff_getElem?.mpr hs, ?_⟩
    simp only [hexec, if_true, Section.attempts, hbytes]
    refine List.mem_flatMap.mpr
      ⟨x.steps, List.mem_range.mpr ((lt_steps_iff decoder.step_pos).mpr hlength), ?_⟩
    apply Section.mem_attemptsAt_iff.mpr
    exact ⟨rfl, rfl, hfits, ⟨mode, x.recordAt⟩, Decoder.mem_views_iff.mpr hreads, rfl, hfound⟩

/-! ### The order of attempts -/

lemma Section.attemptsAt_pairwise (s : Section) (decoder : Decoder) (d : Disassembler)
    (index : Nat) (bytes : List UInt8) (steps : Nat) :
    (s.attemptsAt decoder d index bytes steps).Pairwise fun x y => x.recordAt ≠ y.recordAt := by
  unfold attemptsAt
  dsimp only
  split
  · exact List.pairwise_map.mpr (decoder.views_pairwise _)
  · exact .nil

lemma Section.attempts_pairwise (s : Section) (decoder : Decoder) (d : Disassembler)
    (index : Nat) :
    (s.attempts decoder d index).Pairwise fun x y => x.recordAt = y.recordAt → x.Before y := by
  unfold attempts
  split
  · exact .nil
  · next bytes _ =>
    refine List.pairwise_flatMap.mpr ⟨fun k _ => ?_, ?_⟩
    · exact (s.attemptsAt_pairwise decoder d index bytes k).imp fun hne heq => absurd heq hne
    · apply List.pairwise_lt_range.imp
      intro j k hjk x hx y hy _
      obtain ⟨hxi, hxk, -⟩ := mem_attemptsAt_iff.mp hx
      obtain ⟨hyi, hyk, -⟩ := mem_attemptsAt_iff.mp hy
      exact .inr ⟨hxi.trans hyi.symm, by omega⟩

lemma Section.sectionIndex_of_mem_attempts {s : Section} {decoder : Decoder} {d : Disassembler}
    {index : Nat} {x : Attempt} (h : x ∈ s.attempts decoder d index) : x.sectionIndex = index := by
  unfold attempts at h
  split at h
  · exact absurd h List.not_mem_nil
  · obtain ⟨k, -, hx⟩ := List.mem_flatMap.mp h
    exact (mem_attemptsAt_iff.mp hx).1

/-- Attempts with the same address of record are made in the order of their places. -/
theorem Binary.attempts_pairwise (binary : Binary) (decoder : Decoder) (d : Disassembler) :
    (binary.attempts decoder d).Pairwise fun x y => x.recordAt = y.recordAt → x.Before y := by
  refine List.pairwise_flatMap.mpr ⟨fun ⟨s, index⟩ _ => ?_, ?_⟩
  · dsimp only
    split
    · exact s.attempts_pairwise decoder d index
    · exact .nil
  · have hlt : (binary.sections.zipIdx.map Prod.snd).Pairwise (· < ·) := by
      rw [List.zipIdx_map_snd]
      exact List.pairwise_lt_range'
    apply (List.pairwise_map.mp hlt).imp
    rintro ⟨s, i⟩ ⟨t, j⟩ hij x hx y hy _
    dsimp only at hij hx hy
    split at hx
    · split at hy
      · rw [← s.sectionIndex_of_mem_attempts hx, ← t.sectionIndex_of_mem_attempts hy] at hij
        exact .inl hij
      · exact absurd hy List.not_mem_nil
    · exact absurd hx List.not_mem_nil

end BinaryFacts
