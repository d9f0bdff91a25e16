import BinaryFacts.Proofs.ViewRecords

/-!
# Asking about recorded instructions

The library counts operands and tells how an instruction uses them. It is asked by the address of
record, which for Thumb code is not the address of the code, and it has the destination in front.
The main statement says that its answers fit the listed instruction all the same.
-/

namespace BinaryFacts

lemma toNat_or_one {address : UInt64} (heven : 2 ∣ address.toNat) :
    (address ||| 1).toNat = address.toNat + 1 := by
  obtain ⟨half, hhalf⟩ := heven
  rw [UInt64.toNat_or, hhalf]
  exact (Nat.two_pow_add_eq_or_of_lt (i := 1) (b := 1) (by decide) half).symm

namespace Decoder

variable {decoder : Decoder} {d : Disassembler} {bytes : List UInt8} {address recordAt : UInt64}

/-- An address of record leads back to the reading behind it. -/
lemma locate_of_reads {mode : CodeMode} (h : decoder.Reads address mode recordAt)
    (heven : ∀ order, decoder = .arm32 order → 2 ∣ address.toNat) :
    decoder.locate recordAt = (mode, address) := by
  cases h with
  | x64 | mips32 => rfl
  | thumb order =>
    have heven := heven order rfl
    have htag := toNat_or_one heven
    have hodd : (address ||| 1).toNat % 2 = 1 := by omega
    have hle : 1 ≤ address ||| 1 := by
      rw [UInt64.le_iff_toNat_le, htag]
      exact Nat.le_add_left ..
    have hback : (address ||| 1) - 1 = address := by
      apply UInt64.toNat_inj.mp
      rw [UInt64.toNat_sub_of_le _ _ hle, htag]
      rfl
    rw [locate, if_pos hodd, hback]
  | arm order _ hfour =>
    have hlast : ¬ address.toNat % 2 = 1 := by omega
    rw [locate, if_neg hlast]

lemma decode_empty (decoder : Decoder) (d : Disassembler) (bytes : List UInt8)
    (address : UInt64) :
    decoder.decode d bytes address .empty = Listing.enterAll ((decoder.views address).map
      fun view => ⟨0, 0, view.recordAt, look d bytes address view⟩) := by
  unfold decode Listing.enterAll
  rw [List.foldl_map]
  rfl

/-- An instruction that decoding puts into an empty listing comes from one of the views. -/
lemma instruction?_decode {instruction : Instruction}
    (h : (decoder.decode d bytes address .empty).instruction? recordAt = some instruction) :
    ∃ mode raw n, decoder.Reads address mode recordAt ∧ d mode bytes address = some raw ∧
      mode.Yields (some raw) (some n) ∧
      (∀ operand ∈ n.operands,
        operand ∈ (decoder.decode d bytes address .empty).operands.operands) ∧
      instruction = n.entered (decoder.decode d bytes address .empty).operands recordAt := by
  rw [decode_empty] at h ⊢
  rw [Listing.instruction?_enterAll] at h
  obtain ⟨n, hn, rfl⟩ := Option.map_eq_some_iff.mp h
  obtain ⟨x, hlast, hfound⟩ := Option.bind_eq_some_iff.mp hn
  obtain ⟨hx, hrecord, -⟩ := Listing.mem_acceptedAt.mp (List.mem_of_getLast? hlast)
  obtain ⟨view, hview, rfl⟩ := List.mem_map.mp hx
  obtain rfl : view.recordAt = recordAt := hrecord
  obtain ⟨raw, hraw, hnormal⟩ := Option.bind_eq_some_iff.mp hfound
  refine ⟨view.mode, raw, n, mem_views_iff.mp hview, hraw, ?_, ?_, rfl⟩
  · exact CodeMode.yields_iff.mpr hnormal.symm
  · intro operand hoperand
    exact Listing.mem_operands_enterAll.mpr ⟨_, hx, n, hfound, hoperand⟩

lemma operandCount?_eq {mode : CodeMode} {raw : RawInstruction}
    (hlocate : decoder.locate recordAt = (mode, address))
    (hraw : d mode bytes address = some raw) :
    (decoder.operandCount? d bytes recordAt).map UInt8.toNat =
      if raw.operands.length ≤ 255 then some raw.operands.length else none := by
  have hcount : decoder.operandCount? d bytes recordAt =
      if raw.operands.length < 256 then some (UInt8.ofNat raw.operands.length) else none := by
    unfold operandCount?
    rw [hlocate]
    dsimp only
    rw [hraw]
    rfl
  rw [hcount]
  by_cases hfits : raw.operands.length < 256
  · rw [if_pos hfits, if_pos (by omega), Option.map_some, UInt8.toNat_ofNat_of_lt' hfits]
  · rw [if_neg hfits, if_neg (by omega), Option.map_none]

lemma operandAccess?_eq {mode : CodeMode} {raw : RawInstruction} {index : Nat}
    {operand : RawOperand} (h : decoder.Reads address mode recordAt)
    (hraw : d mode bytes address = some raw) (hoperand : raw.operands[index]? = some operand) :
    decoder.operandAccess? d bytes recordAt index =
      if decoder = .x64 then operand.access else none := by
  cases h with
  | x64 =>
    unfold operandAccess?
    rw [hraw]
    dsimp only [Option.bind_eq_bind, Option.bind_some]
    rw [hoperand]
    rfl
  | mips32 | thumb | arm => rfl

end Decoder

lemma exists_getElem?_of_forall₂ {α β : Type} {related : α → β → Prop} {first : List α}
    {second : List β} (h : List.Forall₂ related first second) {index : Nat} {image : β}
    (himage : second[index]? = some image) :
    ∃ item, first[index]? = some item ∧ related item image := by
  obtain ⟨hindex, rfl⟩ := List.getElem?_eq_some_iff.mp himage
  have hfirst : index < first.length := h.length_eq ▸ hindex
  exact ⟨first[index], List.getElem?_eq_getElem hfirst, h.get hfirst hindex⟩

namespace NormalInstruction

variable {n : NormalInstruction} {table : OperandTable} {address : UInt64}

lemma length_operands_entered : (n.entered table address).operands.length = n.operands.length := by
  rw [operands_entered, List.length_rotate, List.length_map]

/-- A number stands for the operand at the place after it, since the destination has gone from the
front to the end. -/
lemma getElem?_operands_entered {place : Nat} {number : UInt64}
    (h : (n.entered table address).operands[place]? = some number) :
    ∃ normal, n.operands[(place + 1) % (n.entered table address).operands.length]? = some normal ∧
      number = table.indexOf normal := by
  obtain ⟨hplace, -⟩ := List.getElem?_eq_some_iff.mp h
  rw [length_operands_entered] at hplace ⊢
  rw [operands_entered, ← List.map_rotate, List.getElem?_map, List.getElem?_rotate hplace] at h
  obtain ⟨normal, hnormal, hnumber⟩ := Option.map_eq_some_iff.mp h
  exact ⟨normal, hnormal, hnumber.symm⟩

end NormalInstruction

/-- Whether the library, asked by an address of record, answers as a listed instruction has it that
the library reported as `raw`. -/
structure Introspects (decoder : Decoder) (d : Disassembler) (bytes : List UInt8)
    (recordAt : UInt64) (listing : Listing) (instruction : Instruction) (mode : CodeMode)
    (raw : RawInstruction) : Prop where
  count : ¬ ((∃ order, decoder = .mips32 order) ∧ instruction.mnemonic = "NOP") →
    (decoder.operandCount? d bytes recordAt).map UInt8.toNat =
      if instruction.operands.length ≤ 255 then some instruction.operands.length else none
  /-- The library has the destination in front, the listing has it at the end. Numbers are words of
  64 bits. -/
  operand : ∀ (place : Nat) (number : UInt64), instruction.operands[place]? = some number →
    let index := (place + 1) % instruction.operands.length
    ∃ operand normal, raw.operands[index]? = some operand ∧
      mode.operand? operand.kind = some normal ∧
      (listing.operands.size < 2 ^ 64 → listing.operands.get? number = some normal) ∧
      decoder.operandAccess? d bytes recordAt index =
        if decoder = .x64 then operand.access else none

/-- What decoding an address puts into an empty listing is what the library tells of it, for ARM
code and for Thumb code alike. -/
theorem library_agrees_with_listing (decoder : Decoder) (d : Disassembler) (bytes : List UInt8)
    (address : UInt64) (heven : ∀ order, decoder = .arm32 order → 2 ∣ address.toNat)
    (recordAt : UInt64) (instruction : Instruction)
    (h : (decoder.decode d bytes address .empty).instruction? recordAt = some instruction) :
    ∃ mode raw, decoder.Reads address mode recordAt ∧ d mode bytes address = some raw ∧
      Introspects decoder d bytes recordAt (decoder.decode d bytes address .empty) instruction mode
        raw := by
  obtain ⟨mode, raw, n, hreads, hraw, hyields, htable, rfl⟩ := Decoder.instruction?_decode h
  refine ⟨mode, raw, hreads, hraw, ?_⟩
  cases hyields with
  | nop hnop =>
    obtain ⟨⟨order, rfl⟩, -⟩ := hnop
    obtain ⟨_, rfl⟩ : ∃ order, decoder = .mips32 order := by
      cases hreads
      exact ⟨_, rfl⟩
    constructor
    case count => exact fun hcount => absurd ⟨⟨_, rfl⟩, rfl⟩ hcount
    case operand =>
      intro place number hnumber
      cases hnumber
  | @normal _ operands hnop hoperands =>
    have hlength := hoperands.length_eq
    constructor
    case count =>
      intro _
      rw [Decoder.operandCount?_eq (Decoder.locate_of_reads hreads heven) hraw,
        NormalInstruction.length_operands_entered, hlength]
    case operand =>
      intro place number hnumber index
      obtain ⟨normal, hnormal, rfl⟩ := NormalInstruction.getElem?_operands_entered hnumber
      obtain ⟨operand, hoperand, hkind⟩ := exists_getElem?_of_forall₂ hoperands hnormal
      refine ⟨operand, normal, hoperand, hkind, ?_, Decoder.operandAccess?_eq hreads hraw hoperand⟩
      intro hfits
      exact OperandTable.get?_indexOf hfits (htable normal (List.mem_of_getElem? hnormal))

/-- Shows an instruction in either mode; they share two operands. -/
def bothModes : Disassembler := fun mode _ _ =>
  match mode with
  | .arm _ => some ⟨"mov", 4, [⟨.immediate 1, none⟩, ⟨.immediate 2, none⟩]⟩
  | _ => some ⟨"add", 2, [⟨.immediate 2, none⟩, ⟨.immediate 3, none⟩, ⟨.immediate 1, none⟩]⟩

theorem library_agrees_with_listing_thumb :
    let listing := (Decoder.arm32 .little).decode bothModes [] 4096 .empty
    (∀ order, Decoder.arm32 .little = .arm32 order → 2 ∣ (4096 : UInt64).toNat) ∧
      ∃ instruction, listing.instruction? 4097 = some instruction ∧
        instruction.operands = [3, 1, 2] ∧ ∃ mode raw,
          Decoder.Reads (.arm32 .little) 4096 mode 4097 ∧ bothModes mode [] 4096 = some raw ∧
          Introspects (.arm32 .little) bothModes [] 4097 listing instruction mode raw := by
  intro listing
  have heven : ∀ order, Decoder.arm32 .little = .arm32 order → 2 ∣ (4096 : UInt64).toNat := by
    intro _ _
    decide
  have hnumbers : (listing.instruction? 4097).map (·.operands) = some [3, 1, 2] := by decide
  obtain ⟨instruction, hinstruction, hoperands⟩ := Option.map_eq_some_iff.mp hnumbers
  exact ⟨heven, instruction, hinstruction, hoperands,
    library_agrees_with_listing (.arm32 .little) bothModes [] 4096 heven 4097 instruction
      hinstruction⟩

end BinaryFacts
