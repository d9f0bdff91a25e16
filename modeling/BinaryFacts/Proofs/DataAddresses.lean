import BinaryFacts.Proofs.DataLookup

/-!
# Addresses of data

The loader of data counts on past the last address from zero. So its rows lie in the section that
they come from up to the last address, and outside of it, at low addresses, behind.
-/

namespace BinaryFacts

namespace Section

variable {s : Section} {offset : Nat}

lemma contains_offset_iff (h : offset < s.size.toNat) :
    s.contains (s.address + UInt64.ofNat offset) = true ↔ s.address.toNat + offset < 2 ^ 64 := by
  have hsize := s.size.toNat_lt
  have haddress := s.address.toNat_lt
  rw [contains_iff, UInt64.toNat_add, UInt64.toNat_ofNat']
  omega

lemma toNat_offset_of_le (h : offset < s.size.toNat) (hpast : 2 ^ 64 ≤ s.address.toNat + offset) :
    (s.address + UInt64.ofNat offset).toNat = s.address.toNat + offset - 2 ^ 64 := by
  have hsize := s.size.toNat_lt
  have haddress := s.address.toNat_lt
  rw [UInt64.toNat_add, UInt64.toNat_ofNat']
  omega

end Section

namespace Loader

/-- The rows that the loader of data makes of one section, in both of its relations. -/
def sectionRows (pointer : PointerSize) (order : Endian) (binary : Binary) (s : Section) :
    List Row :=
  dataByteRows s ++ pointerRows pointer order binary s

/-- Whether a row is a word at an offset of the section's data, behind the address that the loader
counts up to. -/
def IsWordAt (s : Section) (offset : Nat) (row : Row) : Prop :=
  offset < s.dataBytes.length ∧
    ∃ word, row = [.unsigned (s.address + UInt64.ofNat offset), .unsigned word]

/-- Whether a row starts with an address in the section. -/
def StartsIn (s : Section) (row : Row) : Prop :=
  ∃ address word, row = [.unsigned address, .unsigned word] ∧ s.contains address = true

variable {pointer : PointerSize} {order : Endian} {binary : Binary} {s : Section} {row : Row}
  {offset : Nat}

lemma exists_mem_dataByteRows (h : offset < s.dataBytes.length) :
    ∃ row ∈ dataByteRows s, IsWordAt s offset row :=
  ⟨_, List.mem_mapIdx.mpr ⟨offset, h, rfl⟩, h, _, rfl⟩

lemma exists_isWordAt_of_mem (h : row ∈ sectionRows pointer order binary s) :
    ∃ offset, IsWordAt s offset row := by
  rcases List.mem_append.mp h with h | h
  · obtain ⟨offset, hoffset, rfl⟩ := List.mem_mapIdx.mp h
    exact ⟨offset, hoffset, _, rfl⟩
  · obtain ⟨word, hword, rfl⟩ := List.mem_map.mp h
    obtain ⟨offset, hoffset, rfl⟩ := List.mem_mapIdx.mp (List.mem_filter.mp hword).1
    have hle := length_windows_le pointer.bytes_pos s.dataBytes
    exact ⟨offset, by omega, _, rfl⟩

/-- Every pointer is an address in a loaded section, wherever it was found. -/
lemma isLoadedAddress_of_mem (h : row ∈ pointerRows pointer order binary s) :
    ∃ address value, row = [.unsigned address, .unsigned value] ∧
      ∃ t ∈ binary.sections, t.flags.loaded = true ∧ t.contains value = true := by
  obtain ⟨word, hword, rfl⟩ := List.mem_map.mp h
  refine ⟨word.1, word.2, rfl, ?_⟩
  simpa [isLoadedAddress] using (List.mem_filter.mp hword).2

lemma IsWordAt.startsIn_iff (h : IsWordAt s offset row)
    (hfilled : s.dataBytes.length ≤ s.size.toNat) :
    StartsIn s row ↔ s.address.toNat + offset < 2 ^ 64 := by
  obtain ⟨hoffset, word, rfl⟩ := h
  rw [← Section.contains_offset_iff (by omega : offset < s.size.toNat)]
  constructor
  · rintro ⟨address, other, hrow, hcontains⟩
    cases hrow
    exact hcontains
  · exact fun hcontains => ⟨_, word, rfl, hcontains⟩

lemma forall_startsIn_iff (hfilled : s.dataBytes.length ≤ s.size.toNat) :
    (∀ row ∈ sectionRows pointer order binary s, StartsIn s row) ↔
      s.address.toNat + s.dataBytes.length ≤ 2 ^ 64 := by
  constructor
  · intro h
    by_contra hpast
    have haddress := s.address.toNat_lt
    -- the last byte lies behind the last address
    obtain ⟨row, hrow, hword⟩ :=
      exists_mem_dataByteRows (by omega : s.dataBytes.length - 1 < s.dataBytes.length)
    have hinside := (hword.startsIn_iff hfilled).mp (h row (List.mem_append_left _ hrow))
    omega
  · intro hend row hrow
    obtain ⟨offset, hword⟩ := exists_isWordAt_of_mem hrow
    have hoffset := hword.1
    exact (hword.startsIn_iff hfilled).mpr (by omega)

/-- Where the rows lie that the loader of data makes of a section. -/
structure PlacedRows (pointer : PointerSize) (order : Endian) (binary : Binary) (s : Section) :
    Prop where
  inside_iff : (∀ row ∈ sectionRows pointer order binary s, StartsIn s row) ↔
    s.address.toNat + s.dataBytes.length ≤ 2 ^ 64
  /-- A row from behind the last address starts with an address counted on from zero. -/
  word_at : ∀ row ∈ sectionRows pointer order binary s, ∃ offset, IsWordAt s offset row ∧
    (StartsIn s row ↔ s.address.toNat + offset < 2 ^ 64) ∧
    (2 ^ 64 ≤ s.address.toNat + offset →
      (s.address + UInt64.ofNat offset).toNat = s.address.toNat + offset - 2 ^ 64)
  loaded : ∀ row ∈ pointerRows pointer order binary s, ∃ address value,
    row = [.unsigned address, .unsigned value] ∧
      ∃ t ∈ binary.sections, t.flags.loaded = true ∧ t.contains value = true

lemma placedRows (hfilled : s.dataBytes.length ≤ s.size.toNat) :
    PlacedRows pointer order binary s where
  inside_iff := forall_startsIn_iff hfilled
  word_at := by
    intro row hrow
    obtain ⟨offset, hword⟩ := exists_isWordAt_of_mem hrow
    have hoffset := hword.1
    exact ⟨offset, hword, hword.startsIn_iff hfilled, Section.toNat_offset_of_le (by omega)⟩
  loaded := fun _ hrow => isLoadedAddress_of_mem hrow

end Loader

/-- The rows of data lie in the sections that they come from just if the data of no section runs
past the last address. Behind that the rows start at address zero. -/
theorem data_rows_stay_inside_iff (binary : Binary)
    (hfilled : ∀ s ∈ binary.sections, ∀ bytes, s.bytes = some bytes → bytes.length ≤ s.size.toNat)
    (pointer : PointerSize) (order : Endian) (program : String) :
    let store := Loader.data pointer order binary (.new program)
    store.rows "data_byte" = binary.sections.flatMap Loader.dataByteRows ∧
      store.rows "address_in_data" =
        binary.sections.flatMap (Loader.pointerRows pointer order binary) ∧
      ((∀ s ∈ binary.sections, ∀ row ∈ Loader.sectionRows pointer order binary s,
          Loader.StartsIn s row) ↔
        ∀ s ∈ binary.sections, s.address.toNat + s.dataBytes.length ≤ 2 ^ 64) ∧
      ∀ s ∈ binary.sections, Loader.PlacedRows pointer order binary s := by
  have hplaced : ∀ s ∈ binary.sections, Loader.PlacedRows pointer order binary s :=
    fun s hs => Loader.placedRows (Section.length_dataBytes_le_of_filled (hfilled s hs))
  refine ⟨by simp [Loader.data], by simp [Loader.data], ?_, hplaced⟩
  exact forall₂_congr fun s hs => (hplaced s hs).inside_iff

/-- Data up to the last address: its rows lie in their section. -/
theorem data_rows_stay_inside_iff_highData :
    (∀ s ∈ highData.sections, ∀ bytes, s.bytes = some bytes → bytes.length ≤ s.size.toNat) ∧
      ∀ s ∈ highData.sections, ∀ row ∈ Loader.sectionRows .dword .little highData s,
        Loader.StartsIn s row := by
  have hfilled := laidOut_highData.filled
  obtain ⟨-, -, hinside, -⟩ := data_rows_stay_inside_iff highData hfilled .dword .little "p"
  exact ⟨hfilled, hinside.mpr (by decide)⟩

/-- Data that runs past the last address. -/
def pastTheTop : Binary :=
  { name := "p", format := .elf, isa := .x64, byteOrder := .little
    sections := [⟨".data", 0xfffffffffffffffc, 12, "PROGBITS", 1,
      { readable := true, loaded := true, initialized := true },
      some [1, 2, 3, 4, 0xfc, 0xff, 0xff, 0xff, 0xff, 0xff, 0xff, 0xff]⟩] }

/-- A byte and a pointer from behind the last address stand at address zero, which is in no
section. -/
theorem data_rows_start_at_zero :
    let store := Loader.data .qword .little pastTheTop (.new "p")
    (∀ s ∈ pastTheTop.sections, ∀ bytes, s.bytes = some bytes → bytes.length ≤ s.size.toNat) ∧
      [.unsigned 0, .unsigned 0xfc] ∈ store.rows "data_byte" ∧
      [.unsigned 0, .unsigned 0xfffffffffffffffc] ∈ store.rows "address_in_data" ∧
      ∀ s ∈ pastTheTop.sections, s.contains 0 = false := by
  refine ⟨?_, by decide +kernel, by decide +kernel, by decide⟩
  intro s hs bytes hbytes
  obtain rfl := List.mem_singleton.mp hs
  cases hbytes
  decide

end BinaryFacts
