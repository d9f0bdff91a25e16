import BinaryFacts.Proofs.SweepCoverage
import Mathlib.Data.List.Forall2

/-!
# What a view leaves behind

A view is recorded as a whole or not at all: where one operand has no normal form, none joins the
table. The main statement says what one call to decode an address makes of a listing, view by view,
and that a rejected view does not matter to the other one.
-/

namespace BinaryFacts

lemma mapM_eq_some_iff {α β : Type} {f : α → Option β} {items : List α} {images : List β} :
    items.mapM f = some images ↔ List.Forall₂ (fun item image => f item = some image)
      items images := by
  induction items generalizing images with
  | nil => cases images <;> simp
  | cons item rest ih =>
    rw [List.mapM_cons]
    constructor
    · intro h
      obtain ⟨image, hitem, h⟩ := Option.bind_eq_some_iff.mp h
      obtain ⟨others, hrest, h⟩ := Option.bind_eq_some_iff.mp h
      obtain rfl := Option.some.inj h
      exact .cons hitem (ih.mp hrest)
    · rintro (_ | ⟨hitem, hrest⟩)
      rw [hitem, ih.mpr hrest]
      rfl

lemma mapM_eq_none_iff {α β : Type} {f : α → Option β} {items : List α} :
    items.mapM f = none ↔ ∃ item ∈ items, f item = none := by
  induction items with
  | nil => simp
  | cons item rest ih =>
    rw [List.mapM_cons]
    simp only [List.mem_cons, exists_eq_or_imp, ← ih]
    cases f item with
    | none => simp
    | some image => cases rest.mapM f <;> simp

namespace CodeMode

/-- Whether operands of a kind have a normal form in code of a mode. -/
def Supports (mode : CodeMode) : RawOperandKind → Prop
  | .register _ | .immediate _ | .memory .. => True
  | .systemRegister _ | .coprocessorRegister _ | .coprocessor _ =>
    ∃ order, mode = .arm order ∨ mode = .thumb order
  | .floatingPoint | .endianness | .invalid => False

def IsNop (mode : CodeMode) (raw : RawInstruction) : Prop :=
  (∃ order, mode = .mips32 order) ∧ Text.upper raw.mnemonic = "NOP"

/-- What the library's answer comes to in a mode: an instruction with all its operands, or none. -/
inductive Yields (mode : CodeMode) : Option RawInstruction → Option NormalInstruction → Prop
  | unreported : Yields mode none none
  | unsupported {raw : RawInstruction} {operand : RawOperand} (hnop : ¬ mode.IsNop raw)
      (hoperand : operand ∈ raw.operands) (hkind : ¬ mode.Supports operand.kind) :
      Yields mode (some raw) none
  | nop {raw : RawInstruction} (hnop : mode.IsNop raw) :
      Yields mode (some raw)
        (some { size := raw.size, modifier := "", mnemonic := "NOP", operands := [] })
  | normal {raw : RawInstruction} {operands : List Operand} (hnop : ¬ mode.IsNop raw)
      (hoperands : List.Forall₂ (fun operand normal => mode.operand? operand.kind = some normal)
        raw.operands operands) :
      Yields mode (some raw)
        (some { size := raw.size
                modifier := (mode.mnemonic raw.mnemonic).1
                mnemonic := (mode.mnemonic raw.mnemonic).2
                operands })

variable {mode : CodeMode} {raw : RawInstruction}

lemma operand?_eq_none_iff {kind : RawOperandKind} :
    mode.operand? kind = none ↔ ¬ mode.Supports kind := by
  cases kind <;> cases mode <;> simp [operand?, Supports]

lemma normalize?_of_nop (h : mode.IsNop raw) :
    mode.normalize? raw =
      some { size := raw.size, modifier := "", mnemonic := "NOP", operands := [] } := by
  obtain ⟨⟨order, rfl⟩, hnop⟩ := h
  simp [normalize?, operands?, mnemonic, hnop]

lemma operands?_of_not_nop (h : ¬ mode.IsNop raw) :
    mode.operands? raw = raw.operands.mapM fun operand => mode.operand? operand.kind := by
  cases mode with
  | mips32 order => exact if_neg fun hnop => h ⟨⟨order, rfl⟩, hnop⟩
  | x64 | arm | thumb => rfl

/-- An answer comes to one thing and no other. -/
lemma yields_iff {answer : Option RawInstruction} {found : Option NormalInstruction} :
    mode.Yields answer found ↔ found = answer.bind mode.normalize? := by
  constructor
  · intro h
    cases h with
    | unreported => rfl
    | @unsupported raw operand hnop hoperand hkind =>
      have hnone : raw.operands.mapM (fun operand => mode.operand? operand.kind) = none :=
        mapM_eq_none_iff.mpr ⟨operand, hoperand, operand?_eq_none_iff.mpr hkind⟩
      rw [Option.bind_some, normalize?, operands?_of_not_nop hnop, hnone]
      rfl
    | nop hnop => exact (normalize?_of_nop hnop).symm
    | normal hnop hoperands =>
      rw [Option.bind_some, normalize?, operands?_of_not_nop hnop, mapM_eq_some_iff.mpr hoperands]
      rfl
  · rintro rfl
    cases answer with
    | none => exact .unreported
    | some raw =>
      rw [Option.bind_some]
      by_cases hnop : mode.IsNop raw
      · rw [normalize?_of_nop hnop]
        exact .nop hnop
      rw [normalize?, operands?_of_not_nop hnop]
      cases hoperands : raw.operands.mapM fun operand => mode.operand? operand.kind with
      | some normals => exact .normal hnop (mapM_eq_some_iff.mp hoperands)
      | none =>
        obtain ⟨operand, hoperand, hkind⟩ := mapM_eq_none_iff.mp hoperands
        exact .unsupported hnop hoperand (operand?_eq_none_iff.mp hkind)

end CodeMode

namespace Listing

/-- What a rejected view leaves: a mark at its address of record if no instruction is there. -/
structure Rejects (recordAt : UInt64) (before after : Listing) : Prop where
  operands : after.operands = before.operands
  instructions : after.instructions = before.instructions
  invalid : ∀ address, after.isInvalid address = true ↔
    before.isInvalid address = true ∨ address = recordAt ∧ before.instruction? recordAt = none

/-- What an accepted view leaves: its instruction, with the destination behind the other operands,
and those of its operands that are new. -/
structure Accepts (recordAt : UInt64) (n : NormalInstruction) (before after : Listing) :
    Prop where
  operands : after.operands.operands =
    before.operands.operands ++ newcomers before.operands.operands n.operands
  numbers : ∀ operand ∈ before.operands.operands,
    after.operands.indexOf operand = before.operands.indexOf operand
  instruction : after.instruction? recordAt = some
    { address := recordAt
      size := n.size
      modifier := n.modifier
      mnemonic := n.mnemonic
      operands := (n.operands.map after.operands.indexOf).rotate 1
      code1 := 0
      code2 := 0 }
  others : ∀ address, address ≠ recordAt →
    after.instruction? address = before.instruction? address
  invalid : ∀ address, after.isInvalid address = true ↔
    address ≠ recordAt ∧ before.isInvalid address = true

def Records (recordAt : UInt64) (before after : Listing) : Option NormalInstruction → Prop
  | none => Rejects recordAt before after
  | some n => Accepts recordAt n before after

/-- Whether two listings differ at most in marks at other addresses than those given. -/
structure AgreesOn (addresses : UInt64 → Prop) (first second : Listing) : Prop where
  operands : first.operands = second.operands
  instructions : first.instructions = second.instructions
  invalid : ∀ address, addresses address → first.isInvalid address = second.isInvalid address

/-- A reading of the bytes at an address, and the record of what it comes to. -/
def Enters (d : Disassembler) (bytes : List UInt8) (address : UInt64) (mode : CodeMode)
    (recordAt : UInt64) (before after : Listing) : Prop :=
  ∃ found, mode.Yields (d mode bytes address) found ∧ Records recordAt before after found

variable {recordAt : UInt64} {before after : Listing}

lemma rejects_record (recordAt : UInt64) (before : Listing) :
    Rejects recordAt before (before.record recordAt none) := by
  change Rejects recordAt before (before.markInvalid recordAt)
  refine ⟨?_, ?_, ?_⟩
  · unfold markInvalid
    split <;> rfl
  · unfold markInvalid
    split <;> rfl
  · intro address
    have hmark : (before.markInvalid recordAt).isInvalid address = _ :=
      before.isInvalid_enter ⟨0, 0, recordAt, none⟩ address
    rw [hmark]
    by_cases haddress : recordAt = address
    · subst haddress
      simp
    · simp [haddress, Ne.symm haddress]

lemma accepts_record (recordAt : UInt64) (n : NormalInstruction) (before : Listing) :
    Accepts recordAt n before (before.record recordAt (some n)) := by
  have hfound := fun address => before.instruction?_enter ⟨0, 0, recordAt, some n⟩ address
  have hinvalid := fun address => before.isInvalid_enter ⟨0, 0, recordAt, some n⟩ address
  have hoperands : (before.record recordAt (some n)).operands =
      before.operands.insertAll n.operands := before.operands_enter ⟨0, 0, recordAt, some n⟩
  refine ⟨?_, ?_, ?_, ?_, ?_⟩
  · rw [hoperands, OperandTable.operands_insertAll]
  · intro operand hoperand
    rw [hoperands, OperandTable.indexOf_insertAll hoperand]
  · exact (hfound recordAt).trans (if_pos ⟨rfl, rfl⟩)
  · intro address haddress
    exact (hfound address).trans (if_neg fun h => haddress h.1.symm)
  · intro address
    have hmark : (before.record recordAt (some n)).isInvalid address = _ := hinvalid address
    rw [hmark]
    by_cases haddress : recordAt = address
    · simp [haddress]
    · simp [haddress, Ne.symm haddress]

lemma records_record (recordAt : UInt64) (before : Listing) (found : Option NormalInstruction) :
    Records recordAt before (before.record recordAt found) found := by
  cases found with
  | none => exact rejects_record recordAt before
  | some n => exact accepts_record recordAt n before

/-- A record depends on no other marks. -/
lemma Records.agreesOn {addresses : UInt64 → Prop} {first second first' second' : Listing}
    {found : Option NormalInstruction} (h : AgreesOn addresses first second)
    (hfirst : Records recordAt first first' found)
    (hsecond : Records recordAt second second' found) : AgreesOn addresses first' second' := by
  cases found with
  | none =>
    refine ⟨?_, ?_, ?_⟩
    · rw [hfirst.operands, hsecond.operands, h.operands]
    · rw [hfirst.instructions, hsecond.instructions, h.instructions]
    · intro address haddress
      rw [Bool.eq_iff_iff, hfirst.invalid, hsecond.invalid, h.invalid address haddress,
        instruction?, h.instructions]
      rfl
  | some n =>
    have hoperands : first'.operands = second'.operands := by
      apply OperandTable.ext
      rw [hfirst.operands, hsecond.operands, h.operands]
    refine ⟨hoperands, ?_, ?_⟩
    · apply OrderedMap.ext_get?
      intro address
      change first'.instruction? address = second'.instruction? address
      by_cases haddress : address = recordAt
      · rw [haddress, hfirst.instruction, hsecond.instruction, hoperands]
      · rw [hfirst.others address haddress, hsecond.others address haddress, instruction?,
          h.instructions]
        rfl
    · intro address haddress
      rw [Bool.eq_iff_iff, hfirst.invalid, hsecond.invalid, h.invalid address haddress]

lemma AgreesOn.eq {first second : Listing} (h : AgreesOn (fun _ => True) first second) :
    first = second := by
  have hinvalid : first.invalid = second.invalid := by
    apply OrderedMap.ext_get?
    intro address
    have hmark := h.invalid address trivial
    unfold isInvalid OrderedMap.contains at hmark
    cases hfirst : first.invalid.get? address <;> cases hsecond : second.invalid.get? address <;>
      simp_all
  cases first
  cases second
  rw [mk.injEq]
  exact ⟨h.instructions, hinvalid, h.operands⟩

lemma records_iff {found : Option NormalInstruction} :
    Records recordAt before after found ↔ after = before.record recordAt found := by
  constructor
  · intro h
    have hsame : AgreesOn (fun _ => True) before before := ⟨rfl, rfl, fun _ _ => rfl⟩
    exact (Records.agreesOn hsame h (records_record recordAt before found)).eq
  · rintro rfl
    exact records_record recordAt before found

lemma enters_iff {d : Disassembler} {bytes : List UInt8} {address : UInt64} {mode : CodeMode} :
    Enters d bytes address mode recordAt before after ↔
      after = before.record recordAt (Decoder.look d bytes address ⟨mode, recordAt⟩) := by
  unfold Enters Decoder.look
  simp only [CodeMode.yields_iff, records_iff, exists_eq_left]

lemma Rejects.agreesOn (h : Rejects recordAt before after) :
    AgreesOn (· ≠ recordAt) before after where
  operands := h.operands.symm
  instructions := h.instructions.symm
  invalid address haddress := by
    rw [Bool.eq_iff_iff, h.invalid]
    simp [haddress]

namespace Enters

variable {d : Disassembler} {bytes : List UInt8} {address : UInt64} {mode : CodeMode}

lemma rejects (h : Enters d bytes address mode recordAt before after)
    (hrejected : mode.Yields (d mode bytes address) none) : Rejects recordAt before after := by
  obtain ⟨found, hfound, hrecords⟩ := h
  obtain rfl := (CodeMode.yields_iff.mp hfound).trans (CodeMode.yields_iff.mp hrejected).symm
  exact hrecords

lemma agreesOn {addresses : UInt64 → Prop} {first second first' second' : Listing}
    (hfirst : Enters d bytes address mode recordAt first first')
    (h : AgreesOn addresses first second)
    (hsecond : Enters d bytes address mode recordAt second second') :
    AgreesOn addresses first' second' := by
  obtain ⟨found, hfound, hfirst⟩ := hfirst
  obtain ⟨other, hother, hsecond⟩ := hsecond
  obtain rfl := (CodeMode.yields_iff.mp hfound).trans (CodeMode.yields_iff.mp hother).symm
  exact Records.agreesOn h hfirst hsecond

end Enters

end Listing

/-- What decoding an address makes of a listing. ARM code is read as ARM first and then as
Thumb. -/
inductive Decoder.Decodes (d : Disassembler) (bytes : List UInt8) (address : UInt64)
    (before : Listing) : Decoder → Listing → Prop
  | x64 {after : Listing} (h : before.Enters d bytes address .x64 address after) :
      Decodes d bytes address before .x64 after
  | mips32 {order : Endian} {after : Listing}
      (h : before.Enters d bytes address (.mips32 order) address after) :
      Decodes d bytes address before (.mips32 order) after
  | arm32 {order : Endian} {between after : Listing} (hfour : 4 ∣ address.toNat)
      (harm : before.Enters d bytes address (.arm order) address between)
      (hthumb : between.Enters d bytes address (.thumb order) (address ||| 1) after) :
      Decodes d bytes address before (.arm32 order) after
  | thumb {order : Endian} {after : Listing} (hfour : ¬ 4 ∣ address.toNat)
      (hthumb : before.Enters d bytes address (.thumb order) (address ||| 1) after) :
      Decodes d bytes address before (.arm32 order) after

variable {d : Disassembler} {bytes : List UInt8} {address : UInt64} {before after : Listing}

lemma Decoder.decode_arm32 {order : Endian} (hfour : 4 ∣ address.toNat) :
    (arm32 order).decode d bytes address before =
      (before.record address (look d bytes address ⟨.arm order, address⟩)).record (address ||| 1)
        (look d bytes address ⟨.thumb order, address ||| 1⟩) := by
  simp [decode, views, Nat.mod_eq_zero_of_dvd hfour]

lemma Decoder.decode_thumb {order : Endian} (hfour : ¬ 4 ∣ address.toNat) :
    (arm32 order).decode d bytes address before =
      before.record (address ||| 1) (look d bytes address ⟨.thumb order, address ||| 1⟩) := by
  have hmod : ¬ address.toNat % 4 = 0 := fun h => hfour (Nat.dvd_of_mod_eq_zero h)
  simp [decode, views, hmod]

lemma Decoder.decodes_iff {decoder : Decoder} :
    decoder.Decodes d bytes address before after ↔
      after = decoder.decode d bytes address before := by
  cases decoder with
  | x64 =>
    refine Iff.trans ⟨fun h => ?_, .x64⟩ Listing.enters_iff
    cases h with
    | x64 h => exact h
  | mips32 order =>
    refine Iff.trans ⟨fun h => ?_, .mips32⟩ Listing.enters_iff
    cases h with
    | mips32 h => exact h
  | arm32 order =>
    by_cases hfour : 4 ∣ address.toNat
    · rw [decode_arm32 hfour]
      constructor
      · intro h
        cases h with
        | arm32 _ harm hthumb => rw [Listing.enters_iff.mp hthumb, Listing.enters_iff.mp harm]
        | thumb hother _ => exact absurd hfour hother
      · rintro rfl
        exact .arm32 hfour (Listing.enters_iff.mpr rfl) (Listing.enters_iff.mpr rfl)
    · rw [decode_thumb hfour]
      constructor
      · intro h
        cases h with
        | arm32 hother _ _ => exact absurd hother hfour
        | thumb _ hthumb => exact Listing.enters_iff.mp hthumb
      · rintro rfl
        exact .thumb hfour (Listing.enters_iff.mpr rfl)

/-- Decoding an address records each view of it as a whole or not at all, whatever the listing
holds. Where one of the two views of ARM code is rejected, the other leaves what it leaves alone. -/
theorem views_are_recorded_whole (d : Disassembler) (bytes : List UInt8) (address : UInt64)
    (before : Listing) :
    (∀ (decoder : Decoder) after, decoder.Decodes d bytes address before after ↔
      after = decoder.decode d bytes address before) ∧
    ∀ order armOnly thumbOnly, 4 ∣ address.toNat →
      before.Enters d bytes address (.arm order) address armOnly →
      before.Enters d bytes address (.thumb order) (address ||| 1) thumbOnly →
      let after := (Decoder.arm32 order).decode d bytes address before
      ((CodeMode.arm order).Yields (d (.arm order) bytes address) none →
        Listing.AgreesOn (· ≠ address) thumbOnly after) ∧
      ((CodeMode.thumb order).Yields (d (.thumb order) bytes address) none →
        Listing.AgreesOn (· ≠ address ||| 1) armOnly after) := by
  refine ⟨fun decoder after => Decoder.decodes_iff, ?_⟩
  intro order armOnly thumbOnly hfour harm hthumb after
  have hboth : armOnly.Enters d bytes address (.thumb order) (address ||| 1) after := by
    apply Listing.enters_iff.mpr
    rw [Listing.enters_iff.mp harm]
    exact Decoder.decode_arm32 hfour
  constructor
  · intro hrejected
    have hleft : Listing.AgreesOn (· ≠ address) before armOnly := (harm.rejects hrejected).agreesOn
    exact hthumb.agreesOn hleft hboth
  · intro hrejected
    exact (hboth.rejects hrejected).agreesOn

/-- Shows an instruction in either mode, in ARM code with a last operand that has no normal form. -/
def halfRead : Disassembler := fun mode _ _ =>
  match mode with
  | .arm _ => some ⟨"mov", 4, [⟨.immediate 1, none⟩, ⟨.floatingPoint, none⟩]⟩
  | _ => some ⟨"mov", 2, [⟨.immediate 2, none⟩]⟩

theorem views_are_recorded_whole_halfRead :
    ∃ armOnly thumbOnly, 4 ∣ (4096 : UInt64).toNat ∧
      Listing.empty.Enters halfRead [] 4096 (.arm .little) 4096 armOnly ∧
      Listing.empty.Enters halfRead [] 4096 (.thumb .little) (4096 ||| 1) thumbOnly ∧
      (CodeMode.arm .little).Yields (halfRead (.arm .little) [] 4096) none ∧
      let after := (Decoder.arm32 .little).decode halfRead [] 4096 .empty
      Listing.AgreesOn (· ≠ 4096) thumbOnly after ∧
        after.operands.operands = [.immediate 2] ∧ after.isInvalid 4096 = true := by
  have hfour : 4 ∣ (4096 : UInt64).toNat := by decide
  have hrejected : (CodeMode.arm .little).Yields (halfRead (.arm .little) [] 4096) none := by
    have hfloat : (⟨.floatingPoint, none⟩ : RawOperand) ∈
        [⟨.immediate 1, none⟩, ⟨.floatingPoint, none⟩] := by decide
    refine CodeMode.Yields.unsupported ?_ hfloat id
    rintro ⟨⟨_, hmode⟩, _⟩
    cases hmode
  refine ⟨_, _, hfour, Listing.enters_iff.mpr rfl, Listing.enters_iff.mpr rfl, hrejected, ?_⟩
  refine ⟨?_, by decide, by decide⟩
  exact ((views_are_recorded_whole halfRead [] 4096 .empty).2 .little _ _ hfour
    (Listing.enters_iff.mpr rfl) (Listing.enters_iff.mpr rfl)).1 hrejected

end BinaryFacts
