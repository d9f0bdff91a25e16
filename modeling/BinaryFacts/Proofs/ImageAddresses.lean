import BinaryFacts.Proofs.SymbolTables

/-!
# Addresses in an image

The headers of an image give addresses relative to its base. The binary has the exact sums. An image
with a sum past the last address is not refused: it stops the program.
-/

namespace BinaryFacts

/-- Whether an address lies at an offset from the base of the image, as numbers. -/
def PeReport.LiesAt (report : PeReport) (offset address : UInt64) : Prop :=
  address.toNat = report.imageBase.toNat + offset.toNat

namespace Binary

/-- Whether each address of a binary lies at its offset in the report. -/
structure Places (report : PeReport) (binary : Binary) : Prop where
  entry : ∃ address, binary.entryPoint = some address ∧ report.LiesAt report.entry address
  sections : List.Forall₂ (fun header s => report.LiesAt header.virtualAddress.toUInt64 s.address)
    report.sections binary.sections
  exports : ∀ entry ∈ report.exports, entry.isListed = true →
    ∃ symbol ∈ binary.symbols, entry.name = some symbol.name ∧
      ∃ address, symbol.address = some address ∧ report.LiesAt entry.offset address
  symbols : ∀ symbol ∈ binary.symbols, ∃ entry ∈ report.exports, entry.isListed = true ∧
    entry.name = some symbol.name ∧
      ∃ address, symbol.address = some address ∧ report.LiesAt entry.offset address

lemma places_placedImage (name : String) (file : List UInt8) {report : PeReport}
    (hfits : report.FitsAddressSpace) : Places report (placedImage name file report) := by
  have hlies (offset : UInt64) (hoffset : report.Offset offset) :
      report.LiesAt offset (report.imageBase + offset) := toNat_add_of_fits (hfits offset hoffset)
  refine ⟨⟨_, entryPoint_placedImage name file report, hlies _ .entry⟩, ?_, ?_, ?_⟩
  · rw [sections_placedImage]
    refine List.forall₂_map_right_iff.mpr (List.forall₂_same.mpr ?_)
    exact fun header hheader => hlies _ (.ofSection header hheader)
  · intro entry hentry hlisted
    obtain ⟨symbol, hsymbol, hname, haddress⟩ := exists_symbol_placedImage name file hentry hlisted
    exact ⟨symbol, hsymbol, hname, _, haddress, hlies _ (.ofExport entry hentry hlisted)⟩
  · intro symbol hsymbol
    rw [(listsOnce_placedImage name file report).symbols] at hsymbol
    have hread := (firstOfEach_sublist Symbol.key _).subset hsymbol
    obtain ⟨entry, hentry, hread⟩ := List.mem_filterMap.mp hread
    cases hlisted : entry.isListed with
    | false => cases (PeExport.placed?_eq_none _ hlisted).symm.trans hread
    | true =>
      obtain ⟨found, hfound, hreads⟩ := PeExport.exists_placed? report.imageBase hlisted
      obtain rfl := Option.some.inj (hfound.symm.trans hread)
      exact ⟨entry, hentry, hlisted, hreads.name, _, by rw [hreads.symbol_eq],
        hlies _ (.ofExport entry hentry hlisted)⟩

end Binary

/-- An image has a binary just if no sum of its base and an offset of the report runs past the last
address, and the binary then lies at these sums. Any other image stops the program, with no error
for the caller. -/
theorem image_addresses_exact_iff (name : String) (file : List UInt8) (report : PeReport) :
    (report.FitsAddressSpace ∧
      ∃ binary, Binary.ofFile name file (.pe report) = .ok binary ∧ binary.Places report) ∨
    (¬ report.FitsAddressSpace ∧ Binary.ofFile name file (.pe report) = .error .overflow) := by
  have hgives := Binary.givesIf_ofPe name file report
  rw [Binary.ofFile]
  generalize Binary.ofPe name file report = result at hgives
  cases hgives with
  | gives h => exact .inl ⟨h, _, rfl, Binary.places_placedImage name file h⟩
  | stops h => exact .inr ⟨h, rfl⟩

/-- A library whose base is one page below the end of the address space. -/
def highImage : PeReport :=
  { machine := 0x8664, imageBase := 0xfffffffffffff000, entry := 0x1000, isLibrary := true
    sections := [
      ⟨some ".text", 0x60000020, 3, 3, 0x1000, 0x400⟩,
      ⟨some ".data", 0xc0000040, 32, 4, 0x2000, 0x600⟩,
      ⟨some ".bss", 0xc0000080, 64, 0, 0x3000, 0x800⟩,
      ⟨some ".edata", 0x40000040, 137, 137, 0x8000, 0x800⟩]
    exports := [⟨some "alpha", 0x1000⟩, ⟨some "beta", 0x1001⟩, ⟨some "alpha", 0x1000⟩,
      ⟨some "zero", 0⟩, ⟨some "", 0x1002⟩, ⟨some "gamma", 0x10⟩] }

/-- The image is well-formed but for its base, and yet no error is returned for it: the first sum,
that of the entry point, stops the program. -/
theorem high_image_overflows :
    ¬ highImage.FitsAddressSpace ∧
      Binary.ofFile "library" [] (.pe highImage) = .error .overflow ∧
      ∀ error, Binary.ofFile "library" [] (.pe highImage) ≠ .error (.rejected error) := by
  refine ⟨fun hfits => ?_, rfl, nofun⟩
  exact absurd (hfits _ .entry) (by decide)

end BinaryFacts
