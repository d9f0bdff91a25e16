import BinaryFacts.Proofs.DataLookup

/-!
# Hidden bytes

A look-up by address asks only the first section that contains the address. It misses an initialized
byte just if that section has no contents there and a later one has, such as a section that starts
as zeros in front of one with data at the same address.
-/

namespace BinaryFacts

namespace Section

/-- Whether the contents of the section reach an address in it. -/
def HoldsAt (s : Section) (address : UInt64) : Prop :=
  s.contains address = true ∧
    ∃ bytes, s.bytes = some bytes ∧ address.toNat - s.address.toNat < bytes.length

/-- Whether the section ends at the last address or before it and holds no more bytes than its
size. -/
structure Fits (s : Section) : Prop where
  inside : s.address.toNat + s.size.toNat ≤ 2 ^ 64
  filled : ∀ bytes, s.bytes = some bytes → bytes.length ≤ s.size.toNat

variable {s : Section}

/-- The loader of data finds a byte only where the section holds one. -/
lemma Fits.holdsAt (h : s.Fits) {address value : UInt64}
    (hrow : [.unsigned address, .unsigned value] ∈ Loader.dataByteRows s) : s.HoldsAt address := by
  obtain ⟨offset, hoffset, heq⟩ := List.mem_mapIdx.mp hrow
  obtain ⟨rfl, -⟩ : address = s.address + UInt64.ofNat offset ∧ _ := by simpa using heq.symm
  have hplaced : (s.address + UInt64.ofNat offset, s.dataBytes[offset]) ∈
      s.placed s.dataBytes := List.mem_mapIdx.mpr ⟨offset, hoffset, rfl⟩
  obtain ⟨hcontains, hbyte⟩ :=
    (mem_placed_iff h.inside (length_dataBytes_le_of_filled h.filled)).mp hplaced
  have hne : s.dataBytes ≠ [] := List.ne_nil_of_length_pos (by omega)
  exact ⟨hcontains, _, (isData_of_dataBytes_ne_nil hne).2, (List.getElem?_eq_some_iff.mp hbyte).1⟩

end Section

namespace Binary

/-- Whether the first section that contains an address holds no byte there although a later section
does. -/
def Hides (binary : Binary) (address : UInt64) : Prop :=
  ∃ earlier first later, binary.sections = earlier ++ first :: later ∧
    (∀ s ∈ earlier, s.contains address = false) ∧ first.contains address = true ∧
    ¬ first.HoldsAt address ∧ ∃ s ∈ later, s.HoldsAt address

variable {binary : Binary} {address : UInt64} {count : Nat}

lemma not_holdsAt_of_sectionContaining? (h : binary.sectionContaining? address = none) :
    ∀ s ∈ binary.sections, ¬ s.HoldsAt address := by
  rintro s hs ⟨hcontains, -⟩
  exact List.find?_eq_none.mp h s hs hcontains

lemma hides_iff {first : Section} (h : binary.sectionContaining? address = some first) :
    binary.Hides address ↔
      ¬ first.HoldsAt address ∧ ∃ s ∈ binary.sections, s.HoldsAt address := by
  obtain ⟨hfirst, earlier, later, hsections, hearlier⟩ := List.find?_eq_some_iff_append.mp h
  constructor
  · rintro ⟨earlier', first', later', hsections', hearlier', hfirst', hnone, s, hs, hholds⟩
    have hfound : binary.sectionContaining? address = some first' := by
      refine List.find?_eq_some_iff_append.mpr ⟨hfirst', earlier', later', hsections', ?_⟩
      intro s hs
      rw [hearlier' s hs]
      rfl
    obtain rfl := Option.some.inj (h.symm.trans hfound)
    refine ⟨hnone, s, ?_, hholds⟩
    rw [hsections']
    exact List.mem_append_right _ (List.mem_cons_of_mem _ hs)
  · rintro ⟨hnone, s, hs, hholds⟩
    refine ⟨earlier, first, later, hsections, fun s hs => ?_, hfirst, hnone, ?_⟩
    · simpa using hearlier s hs
    · rw [hsections] at hs
      rcases List.mem_append.mp hs with hs | hs
      · -- a section before the first one that contains the address holds no byte there
        exact absurd hholds.1 (by simpa using hearlier s hs)
      rcases List.mem_cons.mp hs with rfl | hs
      · exact absurd hholds hnone
      · exact ⟨s, hs, hholds⟩

lemma bytesAt?_eq_none_iff {first : Section}
    (h : binary.sectionContaining? address = some first) :
    binary.bytesAt? address count = none ↔ ¬ first.HoldsAt address := by
  have hcontains : first.contains address = true := (List.find?_eq_some_iff_append.mp h).1
  unfold bytesAt? Section.HoldsAt
  rw [h, hcontains]
  cases hbytes : first.bytes with
  | none => simp [hbytes]
  | some bytes => simp [hbytes]

lemma ne_nil_of_bytesAt? (hcount : 0 < count) {found : List UInt8}
    (h : binary.bytesAt? address count = some found) : found ≠ [] := by
  unfold bytesAt? at h
  obtain ⟨s, -, h⟩ := Option.bind_eq_some_iff.mp h
  obtain ⟨bytes, -, h⟩ := Option.bind_eq_some_iff.mp h
  dsimp only at h
  split at h
  · next hlt =>
    obtain rfl := Option.some.inj h
    apply List.ne_nil_of_length_pos
    rw [List.length_take, List.length_drop]
    omega
  · cases h

lemma bytesAt?_eq_none_iff_or :
    binary.bytesAt? address count = none ↔
      (∀ s ∈ binary.sections, ¬ s.HoldsAt address) ∨ binary.Hides address := by
  cases hfind : binary.sectionContaining? address with
  | none =>
    refine iff_of_true ?_ (.inl (not_holdsAt_of_sectionContaining? hfind))
    rw [bytesAt?, hfind]
    rfl
  | some first =>
    have hfirst : first ∈ binary.sections := List.mem_of_find?_eq_some hfind
    rw [bytesAt?_eq_none_iff hfind, hides_iff hfind]
    constructor
    · intro hnone
      by_cases hheld : ∃ s ∈ binary.sections, s.HoldsAt address
      · exact .inr ⟨hnone, hheld⟩
      · exact .inl fun s hs hholds => hheld ⟨s, hs, hholds⟩
    · rintro (hnone | ⟨hnone, -⟩)
      · exact hnone first hfirst
      · exact hnone

end Binary

/-- A look-up finds at least one byte just where some section holds a byte and the first section
that contains the address does not hide it. So a byte that the loader of data finds in a section
that fits is looked up in vain just if it is hidden. -/
theorem initialized_byte_is_found_iff (binary : Binary) (address : UInt64) (count : Nat)
    (hcount : 0 < count) :
    ((∃ found, binary.bytesAt? address count = some found ∧ found ≠ []) ↔
        (∃ s ∈ binary.sections, s.HoldsAt address) ∧ ¬ binary.Hides address) ∧
      (binary.bytesAt? address count = none ↔
        (∀ s ∈ binary.sections, ¬ s.HoldsAt address) ∨ binary.Hides address) ∧
      ∀ s ∈ binary.sections, s.Fits → ∀ value,
        [.unsigned address, .unsigned value] ∈ Loader.dataByteRows s →
          (binary.bytesAt? address count = none ↔ binary.Hides address) := by
  have hnone : binary.bytesAt? address count = none ↔
      (∀ s ∈ binary.sections, ¬ s.HoldsAt address) ∨ binary.Hides address :=
    Binary.bytesAt?_eq_none_iff_or
  refine ⟨?_, hnone, ?_⟩
  · have hfound : (∃ found, binary.bytesAt? address count = some found ∧ found ≠ []) ↔
        binary.bytesAt? address count ≠ none := by
      rw [Option.ne_none_iff_exists']
      exact exists_congr fun found => and_iff_left_of_imp (Binary.ne_nil_of_bytesAt? hcount)
    rw [hfound, Ne, hnone, not_or]
    simp only [not_forall, not_not, exists_prop]
  · intro s hs hfits value hrow
    rw [hnone, or_iff_right]
    exact fun h => h s hs (hfits.holdsAt hrow)

/-- A section of thread data that starts as zeros, in front of one with data at its address. -/
def threadData : Binary :=
  { name := "p", format := .elf, isa := .x64, byteOrder := .little
    sections := [
      ⟨".tbss", 0x1000, 4, "NOBITS", 4, { readable := true, writable := true, loaded := true },
        none⟩,
      ⟨".data", 0x1000, 8, "PROGBITS", 4,
        { readable := true, writable := true, loaded := true, initialized := true },
        some [1, 2, 3, 4, 5, 6, 7, 8]⟩] }

theorem initialized_byte_is_found_iff_threadData :
    0 < 2 ∧ threadData.bytesAt? 0x1004 2 = some [5, 6] ∧ ¬ threadData.Hides 0x1004 ∧
      threadData.Hides 0x1000 := by
  obtain ⟨hfound, -⟩ := initialized_byte_is_found_iff threadData 0x1004 2 (by decide)
  obtain ⟨-, hnone, -⟩ := initialized_byte_is_found_iff threadData 0x1000 2 (by decide)
  have hlater : threadData.bytesAt? 0x1004 2 = some [5, 6] := by decide
  have hdata : (Section.HoldsAt threadData.sections[1] 0x1000) :=
    ⟨by decide, _, rfl, by decide⟩
  refine ⟨by decide, hlater, (hfound.mp ⟨_, hlater, by decide⟩).2, ?_⟩
  refine (hnone.mp (by decide)).resolve_left fun h => ?_
  exact h _ (List.getElem_mem _) hdata

/-- The loader of data finds the byte at the start of the data, and no look-up does. -/
theorem hidden_byte_is_not_found :
    (∀ s ∈ threadData.sections, s.Fits) ∧
      (∃ s ∈ threadData.sections, s.HoldsAt 0x1000) ∧
      [.unsigned 0x1000, .unsigned 1] ∈
        (Loader.data .qword .little threadData (.new "p")).rows "data_byte" ∧
      threadData.bytesAt? 0x1000 1 = none := by
  refine ⟨?_, ⟨threadData.sections[1], List.getElem_mem _, by decide, _, rfl, by decide⟩,
    by decide +kernel, by decide⟩
  intro s hs
  rcases List.mem_cons.mp hs with rfl | hs
  · exact ⟨by decide, fun bytes hbytes => by cases hbytes⟩
  · obtain rfl := List.mem_singleton.mp hs
    exact ⟨by decide, fun bytes hbytes => by cases hbytes; decide⟩

end BinaryFacts
