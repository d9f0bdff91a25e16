import BinaryFacts.Proofs.SymbolTables
import Mathlib.Algebra.Group.Nat.Defs

/-!
# Contents of sections

The sections of a parsed file stand in the order of their headers. Each holds all bytes of the part
of the file that its header names, or none if the section starts as zeros or the part is not wholly
in the file. In words of 64 bits the end of the part is a checked sum.
-/

namespace BinaryFacts

/-- The bytes from one place of a file up to another, none unless the places are in order and in the
file. -/
def fileRange? (file : List UInt8) (start stop : UInt64) : Option (List UInt8) :=
  if start ≤ stop ∧ stop.toNat ≤ file.length then some (file.extract start.toNat stop.toNat)
  else none

lemma fileSlice?_eq_range {file : List UInt8} (h : file.length < 2 ^ 64) (offset size : UInt64) :
    fileSlice? file offset.toNat size.toNat =
      (checkedSum? offset size).bind (fileRange? file offset) := by
  change file.length < UInt64.size at h
  unfold fileSlice? checkedSum?
  by_cases hfits : offset.toNat + size.toNat < UInt64.size
  · have hstop : (offset + size).toNat = offset.toNat + size.toNat := toNat_add_of_fits hfits
    have horder : offset ≤ offset + size := by
      rw [UInt64.le_iff_toNat_le, hstop]
      omega
    rw [if_pos hfits, Option.bind_some, fileRange?, hstop, List.extract_eq_take_drop,
      Nat.add_sub_cancel_left]
    by_cases hfile : offset.toNat + size.toNat ≤ file.length
    · rw [if_pos hfile, if_pos ⟨horder, hfile⟩]
    · rw [if_neg hfile, if_neg (fun hboth => hfile hboth.2)]
  · rw [if_neg hfits, if_neg (by omega)]
    rfl

/-- What the header of a section says of its place in memory and of its part of the file. -/
structure SectionHeader where
  name : String
  address : UInt64
  size : UInt64
  offset : UInt64
  /-- The size of the part of the file. -/
  length : UInt64
  zeroFill : Bool

def ElfSection.header (header : ElfSection) : SectionHeader :=
  ⟨header.name.getD "", header.address, header.size, header.offset, header.size, header.type == 8⟩

/-- The part of the file may be longer than the section in memory, which then holds its start. -/
def PeSection.header (base : UInt64) (header : PeSection) : SectionHeader :=
  let size := if header.virtualSize = 0 then header.rawSize else header.virtualSize
  ⟨header.name.getD "", base + header.virtualAddress.toUInt64, size.toUInt64,
    header.rawOffset.toUInt64, (min header.rawSize size).toUInt64,
    header.characteristics &&& 0x80 != 0⟩

/-- The headers of a report in order, without the null entry of an ELF file. -/
def ContainerReport.headers : ContainerReport → List SectionHeader
  | .elf report => (report.sections.drop 1).map ElfSection.header
  | .pe report => report.sections.map (PeSection.header report.imageBase)
  | _ => []

namespace Section

/-- How a section holds the part of the file that its header names. -/
structure HoldsPart (file : List UInt8) (header : SectionHeader) (s : Section) : Prop where
  name : s.name = header.name
  address : s.address = header.address
  size : s.size = header.size
  isSome_iff : s.bytes.isSome = true ↔ header.zeroFill = false ∧
    header.offset.toNat + header.length.toNat ≤ file.length
  part : ∀ bytes, s.bytes = some bytes → bytes.length = header.length.toNat ∧
    ∃ before after, file = before ++ bytes ++ after ∧ before.length = header.offset.toNat
  length_le : ∀ bytes, s.bytes = some bytes → bytes.length ≤ s.size.toNat
  initialized : s.bytes.isSome = true → s.flags.initialized = true
  /-- The same by words, where no sum wraps and only places in the file are read. -/
  checked : file.length < 2 ^ 64 → s.bytes = if header.zeroFill then none else
    (checkedSum? header.offset header.length).bind (fileRange? file header.offset)

variable {file : List UInt8} {header : SectionHeader} {s : Section}

lemma holdsPart_of_fileSlice? (hname : s.name = header.name) (haddress : s.address = header.address)
    (hsize : s.size = header.size) (hlength : header.length.toNat ≤ header.size.toNat)
    (hflag : s.flags.initialized = !header.zeroFill)
    (hbytes : s.bytes = if header.zeroFill then none else
      fileSlice? file header.offset.toNat header.length.toNat) : s.HoldsPart file header := by
  have hslice : ∀ bytes, s.bytes = some bytes →
      header.zeroFill = false ∧
        fileSlice? file header.offset.toNat header.length.toNat = some bytes := by
    intro bytes h
    rw [hbytes] at h
    cases hzero : header.zeroFill with
    | false => exact ⟨rfl, by simpa [hzero] using h⟩
    | true => simp [hzero] at h
  refine ⟨hname, haddress, hsize, ?_, ?_, ?_, ?_, ?_⟩
  · rw [hbytes]
    cases header.zeroFill <;> simp [fileSlice?]
  · intro bytes h
    have hpart := (hslice bytes h).2
    obtain ⟨hfit, rfl⟩ := fileSlice?_eq_some_iff.mp hpart
    refine ⟨length_of_fileSlice? hpart, file.take header.offset.toNat,
      (file.drop header.offset.toNat).drop header.length.toNat, ?_, ?_⟩
    · rw [List.append_assoc, List.take_append_drop, List.take_append_drop]
    · exact List.length_take_of_le (by omega)
  · intro bytes h
    rw [length_of_fileSlice? (hslice bytes h).2, hsize]
    exact hlength
  · intro h
    obtain ⟨bytes, h⟩ := Option.isSome_iff_exists.mp h
    rw [hflag, (hslice bytes h).1]
    rfl
  · intro hfile
    rw [hbytes, fileSlice?_eq_range hfile]

end Section

lemma ElfSection.holdsPart (file : List UInt8) (header : ElfSection) :
    (header.toSection file).HoldsPart file header.header :=
  Section.holdsPart_of_fileSlice? rfl rfl rfl (Nat.le_refl _) rfl rfl

lemma toNat_min_toUInt64 (x y : UInt32) : (min x y).toUInt64.toNat = min x.toNat y.toNat := by
  have hmin : min x y = if x ≤ y then x else y := rfl
  rw [UInt32.toNat_toUInt64, hmin]
  by_cases h : x ≤ y
  · rw [if_pos h, Nat.min_eq_left (UInt32.le_iff_toNat_le.mp h)]
  · rw [UInt32.le_iff_toNat_le] at h
    rw [if_neg (UInt32.le_iff_toNat_le.not.mpr h), Nat.min_eq_right (by omega)]

lemma PeSection.size_eq_ite (header : PeSection) :
    header.size = if header.virtualSize = 0 then header.rawSize else header.virtualSize := by
  by_cases h : header.virtualSize = 0 <;> simp [size, h]

lemma PeSection.holdsPart (base : UInt64) (file : List UInt8) (header : PeSection) :
    (header.sectionAt file (base + header.virtualAddress.toUInt64)).HoldsPart file
      (header.header base) := by
  have hsize : (header.header base).size = header.size.toUInt64 := by
    rw [header.size_eq_ite]
    rfl
  have hlength : (header.header base).length.toNat =
      min header.rawSize.toNat header.size.toNat := by
    rw [← toNat_min_toUInt64, header.size_eq_ite]
    rfl
  refine Section.holdsPart_of_fileSlice? rfl rfl hsize.symm ?_ rfl ?_
  · rw [hlength, hsize, UInt32.toNat_toUInt64]
    exact Nat.min_le_right _ _
  · rw [hlength]
    rfl

/-- The sections of a parsed file in the order of its headers: each has all bytes of its part of
the file, unless it starts as zeros or the part is not in the file. -/
theorem contents_are_file_parts {name : String} {file : List UInt8} {report : ContainerReport}
    {binary : Binary} (h : Binary.ofFile name file report = .ok binary) :
    List.Forall₂ (fun header (s : Section) => s.HoldsPart file header)
      report.headers binary.sections := by
  cases report with
  | elf report =>
    cases h
    rw [Binary.sections_ofElf]
    refine List.forall₂_map_left_iff.mpr (List.forall₂_map_right_iff.mpr ?_)
    exact List.forall₂_same.mpr fun header _ => header.holdsPart file
  | pe report =>
    obtain ⟨-, rfl⟩ := Binary.ofPe_eq_ok_iff.mp h
    rw [Binary.sections_placedImage]
    refine List.forall₂_map_left_iff.mpr (List.forall₂_map_right_iff.mpr ?_)
    exact List.forall₂_same.mpr fun header _ => header.holdsPart report.imageBase file
  | failure => cases h
  | mach => cases h
  | archive => cases h
  | other => cases h

/-- An image with a section that is longer in the file than in memory, one that starts as zeros and
two that run past the end of the file. -/
def torn : PeReport :=
  { machine := 0x14c, imageBase := 0x400000, entry := 0x1000, isLibrary := false
    sections := [
      ⟨some ".text", 0x60000020, 3, 4, 0x1000, 1⟩,
      ⟨some ".bss", 0xc0000080, 4, 4, 0x2000, 0⟩,
      ⟨some ".data", 0xc0000040, 8, 2, 0x3000, 4⟩,
      ⟨some ".rdata", 0x40000040, 0, 2, 0x4000, 5⟩,
      ⟨some ".wild", 0x40000040, 0xffffffff, 0xffffffff, 0x5000, 0xffffffff⟩]
    exports := [] }

theorem torn_contents_are_file_parts :
    ∃ binary, Binary.ofFile "torn" [1, 2, 3, 4, 5, 6] (.pe torn) = .ok binary ∧
      List.Forall₂ (fun header (s : Section) => s.HoldsPart [1, 2, 3, 4, 5, 6] header)
        (ContainerReport.pe torn).headers binary.sections ∧
      binary.sections.map (·.bytes) = [some [2, 3, 4], none, some [5, 6], none, none] :=
  ⟨_, rfl, contents_are_file_parts rfl, by decide +kernel⟩

end BinaryFacts
