import BinaryFacts.Binary.Report
import Mathlib.Tactic.Lemma

/-!
# Images in the address space

An image has a binary just if each offset of its report leads from the base to an address. The
binary then has these addresses, and otherwise the program stops.
-/

namespace BinaryFacts

/-! ### Guarded computations -/

/-- What a computation gives that stops with an error unless a condition holds. -/
inductive GivesIf {ε α : Type} (error : ε) (fits : Prop) (value : α) : Except ε α → Prop
  | gives (h : fits) : GivesIf error fits value (.ok value)
  | stops (h : ¬ fits) : GivesIf error fits value (.error error)

namespace GivesIf

variable {ε α β : Type} {error : ε} {fits fits' : Prop} {value : α} {result : Except ε α}

lemma of_iff (hresult : GivesIf error fits value result) (h : fits ↔ fits') :
    GivesIf error fits' value result := by
  obtain rfl := propext h
  exact hresult

lemma bind {next : α → Except ε β} {value' : β} (hresult : GivesIf error fits value result)
    (hnext : GivesIf error fits' value' (next value)) :
    GivesIf error (fits ∧ fits') value' (result >>= next) := by
  cases hresult with
  | stops h => exact .stops fun hboth => h hboth.1
  | gives h => exact hnext.of_iff (and_iff_right h).symm

lemma bind_pure (hresult : GivesIf error fits value result) (make : α → β) :
    GivesIf error fits (make value) (result >>= fun found => pure (make found)) := by
  cases hresult with
  | stops h => exact .stops h
  | gives h => exact .gives h

variable {fitsOf : α → Prop}

lemma mapM {read : α → Except ε β} {valueOf : α → β}
    (h : ∀ item, GivesIf error (fitsOf item) (valueOf item) (read item)) (items : List α) :
    GivesIf error (∀ item ∈ items, fitsOf item) (items.map valueOf) (items.mapM read) := by
  induction items with
  | nil => exact .gives fun _ hitem => absurd hitem List.not_mem_nil
  | cons item items ih =>
    rw [List.mapM_cons]
    exact ((h item).bind (ih.bind_pure _)).of_iff (List.forall_mem_cons).symm

lemma filterMapM {read : α → Except ε (Option β)} {valueOf : α → Option β}
    (h : ∀ item, GivesIf error (fitsOf item) (valueOf item) (read item)) (items : List α) :
    GivesIf error (∀ item ∈ items, fitsOf item) (items.filterMap valueOf)
      (items.filterMapM read) := by
  induction items with
  | nil => exact .gives fun _ hitem => absurd hitem List.not_mem_nil
  | cons item items ih =>
    rw [List.filterMapM_cons, List.filterMap_cons]
    have hitem := h item
    cases hvalue : valueOf item with
    | none =>
      rw [hvalue] at hitem
      exact (hitem.bind ih).of_iff List.forall_mem_cons.symm
    | some found =>
      rw [hvalue] at hitem
      exact (hitem.bind (ih.bind_pure _)).of_iff List.forall_mem_cons.symm

end GivesIf

/-! ### Addresses -/

lemma givesIf_imageAddress (base offset : UInt64) :
    GivesIf .overflow (base.toNat + offset.toNat < UInt64.size) (base + offset)
      (imageAddress base offset) := by
  unfold imageAddress checkedSum?
  by_cases hfits : base.toNat + offset.toNat < UInt64.size
  · rw [if_pos hfits]
    exact .gives hfits
  · rw [if_neg hfits]
    exact .stops hfits

lemma toNat_add_of_fits {base offset : UInt64} (h : base.toNat + offset.toNat < UInt64.size) :
    (base + offset).toNat = base.toNat + offset.toNat := by
  rw [UInt64.toNat_add]
  exact Nat.mod_eq_of_lt h

/-- Whether an export is listed: it has a name and does not lie at the base. -/
def PeExport.isListed (entry : PeExport) : Bool := entry.name.getD "" != "" && entry.offset != 0

namespace PeReport

/-- What the report adds to the base for each address of the binary. -/
inductive Offset (report : PeReport) : UInt64 → Prop
  | entry : Offset report report.entry
  | ofSection (header : PeSection) (h : header ∈ report.sections) :
      Offset report header.virtualAddress.toUInt64
  | ofExport (entry : PeExport) (h : entry ∈ report.exports) (hlisted : entry.isListed = true) :
      Offset report entry.offset

def FitsAddressSpace (report : PeReport) : Prop :=
  ∀ offset, report.Offset offset → report.imageBase.toNat + offset.toNat < UInt64.size

lemma fitsAddressSpace_iff {report : PeReport} : report.FitsAddressSpace ↔
    report.imageBase.toNat + report.entry.toNat < UInt64.size ∧
      (∀ header ∈ report.sections,
        report.imageBase.toNat + header.virtualAddress.toUInt64.toNat < UInt64.size) ∧
      ∀ entry ∈ report.exports, entry.isListed = true →
        report.imageBase.toNat + entry.offset.toNat < UInt64.size := by
  constructor
  · intro h
    exact ⟨h _ .entry, fun header hheader => h _ (.ofSection header hheader),
      fun entry hentry hlisted => h _ (.ofExport entry hentry hlisted)⟩
  · rintro ⟨hentry, hsections, hexports⟩ offset (_ | ⟨header, hheader⟩ | ⟨entry, hmem, hlisted⟩)
    · exact hentry
    · exact hsections header hheader
    · exact hexports entry hmem hlisted

end PeReport

/-! ### Binaries -/

/-- The symbol of an export that is listed, at the base plus its offset. -/
def PeExport.placed? (base : UInt64) (entry : PeExport) : Option Symbol :=
  if entry.isListed then some (.exported (entry.name.getD "") (base + entry.offset)) else none

lemma PeExport.givesIf_toSymbol? (base : UInt64) (entry : PeExport) :
    GivesIf .overflow (entry.isListed = true → base.toNat + entry.offset.toNat < UInt64.size)
      (entry.placed? base) (entry.toSymbol? base) := by
  have hunlisted (h : entry.isListed = false) (hread : entry.toSymbol? base = .ok none) :
      GivesIf .overflow (entry.isListed = true → base.toNat + entry.offset.toNat < UInt64.size)
        (entry.placed? base) (entry.toSymbol? base) := by
    rw [hread, PeExport.placed?, h, if_neg Bool.false_ne_true]
    exact .gives nofun
  obtain ⟨_ | name, offset⟩ := entry
  · exact hunlisted rfl rfl
  by_cases hname : name = ""
  · subst hname
    exact hunlisted rfl rfl
  by_cases hoffset : offset = 0
  · subst hoffset
    apply hunlisted
    · simp [isListed]
    · unfold toSymbol?
      split <;> rfl
  · have hlisted : (PeExport.mk (some name) offset).isListed = true := by
      simp [isListed, hname, hoffset]
    have hread : (PeExport.mk (some name) offset).toSymbol? base =
        imageAddress base offset >>= fun address =>
          Pure.pure (some (Symbol.exported name address)) := by
      unfold toSymbol?
      split
      · next h => cases h
      · next h => exact absurd (Option.some.inj h) hname
      · next h =>
        obtain rfl := Option.some.inj h
        rw [if_neg (by simpa using hoffset)]
    rw [hread, placed?, hlisted, if_pos rfl]
    have hgives := (givesIf_imageAddress base offset).bind_pure fun address =>
      some (Symbol.exported name address)
    exact hgives.of_iff ⟨fun h _ => h, fun h => h rfl⟩

namespace Binary

/-- The binary whose addresses are the sums of the base and the offsets, in words. -/
def placedImage (name : String) (file : List UInt8) (report : PeReport) : Binary :=
  ofPeParts name report (report.imageBase + report.entry)
    (report.sections.map fun header =>
      header.sectionAt file (report.imageBase + header.virtualAddress.toUInt64))
    (report.exports.filterMap (PeExport.placed? report.imageBase))

lemma givesIf_ofPe (name : String) (file : List UInt8) (report : PeReport) :
    GivesIf .overflow report.FitsAddressSpace (placedImage name file report)
      (ofPe name file report) := by
  have hsections := GivesIf.mapM (fun header : PeSection =>
    (givesIf_imageAddress report.imageBase header.virtualAddress.toUInt64).bind_pure
      (header.sectionAt file)) report.sections
  have hsymbols := GivesIf.filterMapM (PeExport.givesIf_toSymbol? report.imageBase) report.exports
  have hentry := givesIf_imageAddress report.imageBase report.entry
  exact (hentry.bind (hsections.bind (hsymbols.bind_pure _))).of_iff
    PeReport.fitsAddressSpace_iff.symm

/-- An image has a binary just if its addresses fit, and only the one. -/
lemma ofPe_eq_ok_iff {name : String} {file : List UInt8} {report : PeReport} {binary : Binary} :
    ofPe name file report = .ok binary ↔
      report.FitsAddressSpace ∧ binary = placedImage name file report := by
  have hgives := givesIf_ofPe name file report
  generalize ofPe name file report = result at hgives
  cases hgives with
  | gives h => simp [h, eq_comm]
  | stops h => simp [h]

end Binary

end BinaryFacts
