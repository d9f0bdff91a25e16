import BinaryFacts.Loader.Data
import Mathlib.Data.List.TakeDrop
import Mathlib.Data.Nat.Digits.Defs
import Mathlib.Tactic.Lemma

/-!
# Data facts and byte look-up

Where sections lie apart, the bytes and pointers that the loader of data finds section by section
are those that a look-up by address finds, each once and in the order of sections and offsets.
-/

namespace BinaryFacts

/-- The number that bytes spell in radix 256, the lowest or the highest byte first. -/
def Endian.positional : Endian → List UInt8 → Nat
  | little, bytes => Nat.ofDigits 256 (bytes.map UInt8.toNat)
  | big, bytes => Nat.ofDigits 256 (bytes.reverse.map UInt8.toNat)

lemma toNat_foldr_bytes (bytes : List UInt8) :
    (bytes.foldr (fun (byte : UInt8) high => high * 256 + byte.toUInt64) 0).toNat =
      Nat.ofDigits 256 (bytes.map UInt8.toNat) % 2 ^ 64 := by
  induction bytes with
  | nil => rfl
  | cons byte bytes ih =>
    have hbyte := byte.toNat_lt
    rw [List.foldr_cons, List.map_cons, Nat.ofDigits_cons, UInt64.toNat_add, UInt64.toNat_mul, ih,
      UInt8.toNat_toUInt64]
    generalize Nat.ofDigits 256 (bytes.map UInt8.toNat) = high
    change (high % 2 ^ 64 * 256 % 2 ^ 64 + byte.toNat) % 2 ^ 64 = (byte.toNat + 256 * high) % 2 ^ 64
    omega

lemma ofDigits_bytes_lt_pow (bytes : List UInt8) :
    Nat.ofDigits 256 (bytes.map UInt8.toNat) < 256 ^ bytes.length := by
  have hdigits : ∀ digit ∈ bytes.map UInt8.toNat, digit < 256 := by
    intro digit hdigit
    obtain ⟨byte, -, rfl⟩ := List.mem_map.mp hdigit
    exact byte.toNat_lt
  have hlt := Nat.ofDigits_lt_base_pow_length (by decide) hdigits
  rwa [List.length_map] at hlt

lemma ofDigits_bytes_lt {bytes : List UInt8} (h : bytes.length ≤ 8) :
    Nat.ofDigits 256 (bytes.map UInt8.toNat) < 2 ^ 64 :=
  calc Nat.ofDigits 256 (bytes.map UInt8.toNat)
      < 256 ^ bytes.length := ofDigits_bytes_lt_pow bytes
    _ ≤ 256 ^ 8 := Nat.pow_le_pow_right (by decide) h
    _ = 2 ^ 64 := by decide

lemma Endian.positional_lt (order : Endian) (bytes : List UInt8) :
    order.positional bytes < 256 ^ bytes.length := by
  cases order with
  | little => exact ofDigits_bytes_lt_pow bytes
  | big =>
    have hlt := ofDigits_bytes_lt_pow bytes.reverse
    rwa [List.length_reverse] at hlt

lemma Endian.toNat_value (order : Endian) {bytes : List UInt8} (h : bytes.length ≤ 8) :
    (order.value bytes).toNat = order.positional bytes := by
  cases order with
  | little =>
    change (bytes.reverse.foldl (fun high (byte : UInt8) => high * 256 + byte.toUInt64) 0).toNat = _
    rw [List.foldl_reverse, toNat_foldr_bytes, Nat.mod_eq_of_lt (ofDigits_bytes_lt h)]
    rfl
  | big =>
    change (bytes.foldl (fun high (byte : UInt8) => high * 256 + byte.toUInt64) 0).toNat = _
    rw [← List.foldr_reverse, toNat_foldr_bytes,
      Nat.mod_eq_of_lt (ofDigits_bytes_lt (by rwa [List.length_reverse]))]
    rfl

lemma getElem?_windows {α : Type} {width : Nat} (hwidth : 0 < width) (items : List α) (i : Nat) :
    (windows width items)[i]? =
      if i + width ≤ items.length then some ((items.drop i).take width) else none := by
  induction items generalizing i with
  | nil => rw [windows, if_neg (by simp only [List.length_nil]; omega)]; rfl
  | cons first rest ih =>
    rw [windows]
    by_cases hfull : ((first :: rest).take width).length = width
    · rw [if_pos hfull]
      rw [List.length_take, List.length_cons] at hfull
      cases i with
      | zero => rw [if_pos (by rw [List.length_cons]; omega)]; rfl
      | succ i =>
        rw [List.getElem?_cons_succ, ih, List.drop_succ_cons, List.length_cons]
        congr 1
        simp only [eq_iff_iff]
        omega
    · rw [if_neg hfull]
      rw [List.length_take, List.length_cons] at hfull
      rw [if_neg (by rw [List.length_cons]; omega)]
      rfl

lemma length_windows_le {α : Type} {width : Nat} (hwidth : 0 < width) (items : List α) :
    (windows width items).length ≤ items.length := by
  rw [← List.getElem?_eq_none_iff, getElem?_windows hwidth, if_neg (by omega)]

namespace Section

/-- Items at the addresses from the start of the section on, one behind the other. -/
def placed {α : Type} (s : Section) (items : List α) : List (UInt64 × α) :=
  items.mapIdx fun offset item => (s.address + UInt64.ofNat offset, item)

variable {α : Type} {s : Section} {items : List α}

lemma map_placed {β : Type} (f : UInt64 × α → β) :
    (s.placed items).map f =
      items.mapIdx fun offset item => f (s.address + UInt64.ofNat offset, item) := by
  apply List.ext_getElem?
  intro i
  rw [placed, List.getElem?_map, List.getElem?_mapIdx, List.getElem?_mapIdx, Option.map_map]
  rfl

lemma placed_map {β : Type} (f : α → β) :
    s.placed (items.map f) =
      items.mapIdx fun offset item => (s.address + UInt64.ofNat offset, f item) := by
  apply List.ext_getElem?
  intro i
  rw [placed, List.getElem?_mapIdx, List.getElem?_mapIdx, List.getElem?_map, Option.map_map]
  rfl

lemma contains_iff {address : UInt64} :
    s.contains address = true ↔
      s.address.toNat ≤ address.toNat ∧ address.toNat < s.address.toNat + s.size.toNat := by
  rw [contains, Bool.and_eq_true, decide_eq_true_eq, decide_eq_true_eq]

lemma toNat_address_add {offset : Nat} (hend : s.address.toNat + s.size.toNat ≤ 2 ^ 64)
    (hoffset : offset < s.size.toNat) :
    (s.address + UInt64.ofNat offset).toNat = s.address.toNat + offset := by
  rw [UInt64.toNat_add, UInt64.toNat_ofNat']
  omega

lemma mem_placed_iff (hend : s.address.toNat + s.size.toNat ≤ 2 ^ 64)
    (hitems : items.length ≤ s.size.toNat) {address : UInt64} {item : α} :
    (address, item) ∈ s.placed items ↔
      s.contains address = true ∧ items[address.toNat - s.address.toNat]? = some item := by
  rw [placed, List.mem_iff_getElem?, contains_iff]
  simp only [List.getElem?_mapIdx, Option.map_eq_some_iff, Prod.mk.injEq]
  constructor
  · rintro ⟨offset, found, hfound, rfl, rfl⟩
    have hoffset := (List.getElem?_eq_some_iff.mp hfound).1
    rw [toNat_address_add hend (by omega), Nat.add_sub_cancel_left]
    exact ⟨by omega, hfound⟩
  · rintro ⟨⟨hlow, hhigh⟩, hitem⟩
    refine ⟨address.toNat - s.address.toNat, item, hitem, ?_, rfl⟩
    apply UInt64.toNat_inj.mp
    rw [toNat_address_add hend (by omega)]
    omega

lemma placed_pairwise (hend : s.address.toNat + s.size.toNat ≤ 2 ^ 64)
    (hitems : items.length ≤ s.size.toNat) :
    (s.placed items).Pairwise fun x y => x.1 < y.1 := by
  rw [placed, List.pairwise_iff_getElem]
  intro i j hi hj hij
  rw [List.length_mapIdx] at hi hj
  rw [List.getElem_mapIdx, List.getElem_mapIdx, UInt64.lt_iff_toNat_lt,
    toNat_address_add hend (by omega), toNat_address_add hend (by omega)]
  omega

end Section

namespace Binary

/-- No address lies in two sections, no section runs past the last address, and none holds more
bytes than its size. -/
structure LaidOut (binary : Binary) : Prop where
  apart : binary.sections.Pairwise fun (s t : Section) =>
    ∀ address, ¬ (s.contains address = true ∧ t.contains address = true)
  inside : ∀ s ∈ binary.sections, s.address.toNat + s.size.toNat ≤ 2 ^ 64
  filled : ∀ s ∈ binary.sections, ∀ bytes, s.bytes = some bytes → bytes.length ≤ s.size.toNat

/-- Whether an address lies in a section that is loaded, initialized and not executable. -/
def IsDataAddress (binary : Binary) (address : UInt64) : Prop :=
  ∃ s ∈ binary.sections, s.contains address = true ∧ s.flags.loaded = true ∧
    s.flags.initialized = true ∧ s.flags.executable = false

/-- Whether an address lies in an earlier section than another, or earlier in the same one. -/
def Precedes (binary : Binary) (x y : UInt64) : Prop :=
  ∃ (i j : Nat) (s t : Section), binary.sections[i]? = some s ∧ binary.sections[j]? = some t ∧
    s.contains x = true ∧ t.contains y = true ∧ (i < j ∨ i = j ∧ x < y)

def placed {α : Type} (binary : Binary) (items : Section → List α) : List (UInt64 × α) :=
  binary.sections.flatMap fun s => s.placed (items s)

namespace LaidOut

variable {binary : Binary}

lemma index_eq (h : binary.LaidOut) {i j : Nat} {s t : Section} {address : UInt64}
    (hs : binary.sections[i]? = some s) (ht : binary.sections[j]? = some t)
    (hsa : s.contains address = true) (hta : t.contains address = true) : i = j := by
  obtain ⟨hi, rfl⟩ := List.getElem?_eq_some_iff.mp hs
  obtain ⟨hj, rfl⟩ := List.getElem?_eq_some_iff.mp ht
  have happart := List.pairwise_iff_getElem.mp h.apart
  rcases Nat.lt_trichotomy i j with hij | hij | hij
  · exact absurd ⟨hsa, hta⟩ (happart i j hi hj hij address)
  · exact hij
  · exact absurd ⟨hta, hsa⟩ (happart j i hj hi hij address)

lemma sectionContaining? (h : binary.LaidOut) {s : Section} (hs : s ∈ binary.sections)
    {address : UInt64} (hsa : s.contains address = true) :
    binary.sectionContaining? address = some s := by
  have hsome : (binary.sectionContaining? address).isSome :=
    List.find?_isSome.mpr ⟨s, hs, hsa⟩
  obtain ⟨t, ht⟩ := Option.isSome_iff_exists.mp hsome
  obtain ⟨i, hi⟩ := List.mem_iff_getElem?.mp hs
  obtain ⟨j, hj⟩ := List.mem_iff_getElem?.mp (List.mem_of_find?_eq_some ht)
  have htcontains : t.contains address = true := (List.find?_eq_some_iff_append.mp ht).1
  obtain rfl := h.index_eq hi hj hsa htcontains
  rw [ht, ← hi, hj]

/-- A look-up finds the bytes of the section that contains the address. -/
lemma bytesAt?_eq_some_iff (h : binary.LaidOut) {s : Section} (hs : s ∈ binary.sections)
    {address : UInt64} (hsa : s.contains address = true) {count : Nat} {found : List UInt8} :
    binary.bytesAt? address count = some found ↔
      ∃ bytes, s.bytes = some bytes ∧ address.toNat - s.address.toNat < bytes.length ∧
        found = (bytes.drop (address.toNat - s.address.toNat)).take count := by
  unfold bytesAt?
  rw [h.sectionContaining? hs hsa]
  change s.bytes.bind _ = some found ↔ _
  rw [Option.bind_eq_some_iff]
  refine exists_congr fun bytes => and_congr_right fun _ => ?_
  dsimp only
  split
  · next hlt => rw [Option.some.injEq, eq_comm, and_iff_right hlt]
  · next hlt => simp [hlt]

variable {α : Type} {items : Section → List α}

lemma mem_placed_iff (h : binary.LaidOut)
    (hitems : ∀ s ∈ binary.sections, (items s).length ≤ s.size.toNat) {address : UInt64}
    {item : α} :
    (address, item) ∈ binary.placed items ↔
      ∃ s ∈ binary.sections, s.contains address = true ∧
        (items s)[address.toNat - s.address.toNat]? = some item := by
  unfold placed
  rw [List.mem_flatMap]
  exact exists_congr fun s => and_congr_right fun hs =>
    Section.mem_placed_iff (h.inside s hs) (hitems s hs)

lemma placed_pairwise (h : binary.LaidOut)
    (hitems : ∀ s ∈ binary.sections, (items s).length ≤ s.size.toNat) :
    (binary.placed items).Pairwise fun x y => binary.Precedes x.1 y.1 := by
  have hcontains : ∀ s ∈ binary.sections, ∀ x ∈ s.placed (items s), s.contains x.1 = true :=
    fun s hs x hx => ((Section.mem_placed_iff (h.inside s hs) (hitems s hs)).mp hx).1
  unfold placed
  rw [List.pairwise_flatMap]
  constructor
  · intro s hs
    obtain ⟨i, hi⟩ := List.mem_iff_getElem?.mp hs
    refine (Section.placed_pairwise (h.inside s hs) (hitems s hs)).imp_of_mem ?_
    intro x y hx hy hlt
    exact ⟨i, i, s, s, hi, hi, hcontains s hs x hx, hcontains s hs y hy, .inr ⟨rfl, hlt⟩⟩
  · rw [List.pairwise_iff_getElem]
    intro i j hi hj hij x hx y hy
    exact ⟨i, j, _, _, List.getElem?_eq_getElem hi, List.getElem?_eq_getElem hj,
      hcontains _ (List.getElem_mem hi) x hx, hcontains _ (List.getElem_mem hj) y hy, .inl hij⟩

lemma not_precedes_self (h : binary.LaidOut) (address : UInt64) :
    ¬ binary.Precedes address address := by
  rintro ⟨i, j, s, t, hs, ht, hsa, hta, hlt | ⟨-, hlt⟩⟩
  · exact absurd (h.index_eq hs ht hsa hta) (Nat.ne_of_lt hlt)
  · exact absurd hlt (UInt64.lt_irrefl address)

lemma nodup_of_pairwise (h : binary.LaidOut) {addresses : List UInt64}
    (hordered : addresses.Pairwise binary.Precedes) : addresses.Nodup := by
  refine hordered.imp ?_
  rintro x _ hxy rfl
  exact h.not_precedes_self x hxy

end LaidOut

end Binary

namespace Section

lemma length_dataBytes_le_of_filled {s : Section}
    (h : ∀ bytes, s.bytes = some bytes → bytes.length ≤ s.size.toNat) :
    s.dataBytes.length ≤ s.size.toNat := by
  unfold dataBytes
  split
  · cases hbytes : s.bytes with
    | none => exact Nat.zero_le _
    | some bytes => exact h bytes hbytes
  · exact Nat.zero_le _

lemma length_dataBytes_le {binary : Binary} (h : binary.LaidOut) {s : Section}
    (hs : s ∈ binary.sections) : s.dataBytes.length ≤ s.size.toNat :=
  length_dataBytes_le_of_filled (h.filled s hs)

lemma dataBytes_eq {s : Section} {bytes : List UInt8} (hdata : s.isData = true)
    (hbytes : s.bytes = some bytes) : s.dataBytes = bytes := by
  rw [dataBytes, if_pos hdata, hbytes]
  rfl

/-- Contents are found in data sections only. -/
lemma isData_of_dataBytes_ne_nil {s : Section} (h : s.dataBytes ≠ []) :
    s.isData = true ∧ s.bytes = some s.dataBytes := by
  unfold dataBytes at h ⊢
  split at h
  · next hdata =>
    refine ⟨hdata, ?_⟩
    rw [if_pos hdata]
    cases hbytes : s.bytes with
    | none => exact absurd (by rw [hbytes]; rfl) h
    | some bytes => rfl
  · exact absurd rfl h

lemma isData_iff {s : Section} :
    s.isData = true ↔ s.flags.loaded = true ∧ s.flags.initialized = true ∧
      s.flags.executable = false := by
  simp only [isData, Bool.and_eq_true, Bool.not_eq_true']
  tauto

end Section

lemma PointerSize.bytes_pos (pointer : PointerSize) : 0 < pointer.bytes := by
  cases pointer <;> decide

lemma PointerSize.bytes_le (pointer : PointerSize) : pointer.bytes ≤ 8 := by
  cases pointer <;> decide

namespace Loader

/-- The pointers of a binary with the addresses where they lie. -/
def dataPointers (pointer : PointerSize) (order : Endian) (binary : Binary) :
    List (UInt64 × UInt64) :=
  (binary.placed fun s => (windows pointer.bytes s.dataBytes).map order.value).filter
    fun word => isLoadedAddress binary word.2

/-- The row of an address and the word found there. -/
def wordRow (word : UInt64 × UInt64) : Row := [.unsigned word.1, .unsigned word.2]

lemma rows_data_byte (pointer : PointerSize) (order : Endian) (binary : Binary)
    (program : String) :
    (data pointer order binary (.new program)).rows "data_byte" =
      (binary.placed Section.dataBytes).map fun word => wordRow (word.1, word.2.toUInt64) := by
  have hrows : (data pointer order binary (.new program)).rows "data_byte" =
      binary.sections.flatMap dataByteRows := by simp [data]
  rw [hrows, Binary.placed, List.map_flatMap]
  congr 1
  funext s
  rw [Section.map_placed]
  rfl

lemma rows_address_in_data (pointer : PointerSize) (order : Endian) (binary : Binary)
    (program : String) :
    (data pointer order binary (.new program)).rows "address_in_data" =
      (dataPointers pointer order binary).map wordRow := by
  have hrows : (data pointer order binary (.new program)).rows "address_in_data" =
      binary.sections.flatMap (pointerRows pointer order binary) := by simp [data]
  rw [hrows, dataPointers, Binary.placed, List.filter_flatMap, List.map_flatMap]
  congr 1
  funext s
  rw [Section.placed_map]
  rfl

end Loader

namespace Binary.LaidOut

variable {binary : Binary}

/-- In a data section a look-up finds the contents from the address on. -/
lemma bytesAt?_of_isData (h : binary.LaidOut) {s : Section} (hs : s ∈ binary.sections)
    {address : UInt64} (hsa : s.contains address = true) (hdata : s.isData = true) {count : Nat}
    {found : List UInt8} :
    binary.bytesAt? address count = some found ↔
      address.toNat - s.address.toNat < s.dataBytes.length ∧
        found = (s.dataBytes.drop (address.toNat - s.address.toNat)).take count := by
  rw [h.bytesAt?_eq_some_iff hs hsa]
  constructor
  · rintro ⟨bytes, hbytes, hfound⟩
    rw [Section.dataBytes_eq hdata hbytes]
    exact hfound
  · rintro ⟨hlt, hfound⟩
    have hne : s.dataBytes ≠ [] := List.ne_nil_of_length_pos (by omega)
    exact ⟨_, (Section.isData_of_dataBytes_ne_nil hne).2, hlt, hfound⟩

lemma mem_dataBytes_iff (h : binary.LaidOut) {address : UInt64} {byte : UInt8} :
    (address, byte) ∈ binary.placed Section.dataBytes ↔
      binary.IsDataAddress address ∧ binary.bytesAt? address 1 = some [byte] := by
  rw [h.mem_placed_iff fun s hs => Section.length_dataBytes_le h hs]
  constructor
  · rintro ⟨s, hs, hsa, hbyte⟩
    obtain ⟨hlt, hget⟩ := List.getElem?_eq_some_iff.mp hbyte
    have hne : s.dataBytes ≠ [] := List.ne_nil_of_length_pos (by omega)
    have hdata := (Section.isData_of_dataBytes_ne_nil hne).1
    refine ⟨⟨s, hs, hsa, Section.isData_iff.mp hdata⟩, ?_⟩
    rw [h.bytesAt?_of_isData hs hsa hdata, List.take_one_drop_eq_of_lt_length hlt]
    exact ⟨hlt, congrArg ([·]) hget.symm⟩
  · rintro ⟨⟨s, hs, hsa, hflags⟩, hfound⟩
    obtain ⟨hlt, hbyte⟩ :=
      (h.bytesAt?_of_isData hs hsa (Section.isData_iff.mpr hflags)).mp hfound
    rw [List.take_one_drop_eq_of_lt_length hlt] at hbyte
    exact ⟨s, hs, hsa, List.getElem?_eq_some_iff.mpr ⟨hlt, (List.singleton_inj.mp hbyte).symm⟩⟩

lemma length_words_le (h : binary.LaidOut) (pointer : PointerSize) (order : Endian) {s : Section}
    (hs : s ∈ binary.sections) :
    ((windows pointer.bytes s.dataBytes).map order.value).length ≤ s.size.toNat := by
  rw [List.length_map]
  exact (length_windows_le pointer.bytes_pos _).trans (Section.length_dataBytes_le h hs)

lemma mem_dataPointers_iff (h : binary.LaidOut) {pointer : PointerSize} {order : Endian}
    {address value : UInt64} :
    (address, value) ∈ Loader.dataPointers pointer order binary ↔
      binary.IsDataAddress address ∧
      (∃ found, binary.bytesAt? address pointer.bytes = some found ∧
        found.length = pointer.bytes ∧ value.toNat = order.positional found) ∧
      ∃ s ∈ binary.sections, s.flags.loaded = true ∧ s.contains value = true := by
  have hloaded : Loader.isLoadedAddress binary value = true ↔
      ∃ s ∈ binary.sections, s.flags.loaded = true ∧ s.contains value = true := by
    simp only [Loader.isLoadedAddress, List.any_eq_true, Bool.and_eq_true]
  rw [Loader.dataPointers, List.mem_filter, hloaded, ← and_assoc, and_congr_left_iff]
  intro _
  rw [h.mem_placed_iff fun s hs => h.length_words_le pointer order hs]
  constructor
  · rintro ⟨s, hs, hsa, hword⟩
    rw [List.getElem?_map, getElem?_windows pointer.bytes_pos, Option.map_eq_some_iff] at hword
    obtain ⟨found, hfound, rfl⟩ := hword
    obtain ⟨hfull, rfl⟩ : _ ∧ _ = found := by simpa using hfound
    have hpos := pointer.bytes_pos
    have hne : s.dataBytes ≠ [] := List.ne_nil_of_length_pos (by omega)
    have hdata := (Section.isData_of_dataBytes_ne_nil hne).1
    have hlength : ((s.dataBytes.drop (address.toNat - s.address.toNat)).take
        pointer.bytes).length = pointer.bytes := by
      rw [List.length_take, List.length_drop]
      omega
    refine ⟨⟨s, hs, hsa, Section.isData_iff.mp hdata⟩, _,
      (h.bytesAt?_of_isData hs hsa hdata).mpr ⟨by omega, rfl⟩, hlength, ?_⟩
    exact order.toNat_value (hlength.trans_le pointer.bytes_le)
  · rintro ⟨⟨s, hs, hsa, hflags⟩, found, hfound, hlength, hvalue⟩
    obtain ⟨hlt, rfl⟩ := (h.bytesAt?_of_isData hs hsa (Section.isData_iff.mpr hflags)).mp hfound
    refine ⟨s, hs, hsa, ?_⟩
    rw [← order.toNat_value (hlength.trans_le pointer.bytes_le)] at hvalue
    rw [List.length_take, List.length_drop] at hlength
    rw [List.getElem?_map, getElem?_windows pointer.bytes_pos, if_pos (by omega),
      UInt64.toNat_inj.mp hvalue]
    rfl

end Binary.LaidOut

/-- The relations of the loader of data agree with byte look-up: `bytes` and `words` are their
rows. -/
structure DataFacts (binary : Binary) (pointer : PointerSize) (order : Endian) (store : FactStore)
    (bytes : List (UInt64 × UInt8)) (words : List (UInt64 × UInt64)) : Prop where
  byte_rows : store.rows "data_byte" =
    bytes.map fun (address, byte) => [.unsigned address, .unsigned byte.toUInt64]
  word_rows : store.rows "address_in_data" =
    words.map fun (address, value) => [.unsigned address, .unsigned value]
  mem_bytes_iff : ∀ address byte, (address, byte) ∈ bytes ↔
    binary.IsDataAddress address ∧ binary.bytesAt? address 1 = some [byte]
  mem_words_iff : ∀ address value, (address, value) ∈ words ↔
    binary.IsDataAddress address ∧
    (∃ found, binary.bytesAt? address pointer.bytes = some found ∧
      found.length = pointer.bytes ∧ value.toNat = order.positional found) ∧
    ∃ s ∈ binary.sections, s.flags.loaded = true ∧ s.contains value = true
  bytes_ordered : (bytes.map Prod.fst).Pairwise binary.Precedes
  words_ordered : (words.map Prod.fst).Pairwise binary.Precedes
  bytes_nodup : (bytes.map Prod.fst).Nodup
  words_nodup : (words.map Prod.fst).Nodup

/-- What the loader of data finds section by section is what a look-up by address finds. -/
theorem data_facts_agree_with_lookup (binary : Binary) (h : binary.LaidOut)
    (pointer : PointerSize) (order : Endian) (program : String) :
    ∃ bytes words, DataFacts binary pointer order
      (Loader.data pointer order binary (.new program)) bytes words := by
  have hbytes : ((binary.placed Section.dataBytes).map Prod.fst).Pairwise binary.Precedes :=
    List.pairwise_map.mpr (h.placed_pairwise fun s hs => Section.length_dataBytes_le h hs)
  have hwords : ((Loader.dataPointers pointer order binary).map Prod.fst).Pairwise
      binary.Precedes :=
    List.pairwise_map.mpr
      ((h.placed_pairwise fun s hs => h.length_words_le pointer order hs).filter _)
  refine ⟨binary.placed Section.dataBytes, Loader.dataPointers pointer order binary, ?_⟩
  constructor
  case byte_rows => exact Loader.rows_data_byte pointer order binary program
  case word_rows => exact Loader.rows_address_in_data pointer order binary program
  case mem_bytes_iff => exact fun address byte => h.mem_dataBytes_iff
  case mem_words_iff => exact fun address value => h.mem_dataPointers_iff
  case bytes_ordered => exact hbytes
  case words_ordered => exact hwords
  case bytes_nodup => exact h.nodup_of_pairwise hbytes
  case words_nodup => exact h.nodup_of_pairwise hwords

/-- Data up to the last address, with a pointer into a section that starts as zeros. -/
def highData : Binary :=
  let flags : SectionFlags := { loaded := true, initialized := true }
  { name := "p", format := .elf, isa := .mips32, byteOrder := .little
    sections := [
      ⟨".bss", 0x2000, 16, "NOBITS", 4, flags, none⟩,
      ⟨".empty", 0x2008, 0, "PROGBITS", 1, flags, some []⟩,
      ⟨".data", 0xfffffffffffffffa, 6, "PROGBITS", 4, flags, some [0xff, 0x0c, 0x20, 0, 0]⟩] }

lemma laidOut_highData : highData.LaidOut where
  apart := by
    simp only [highData, List.pairwise_cons, List.forall_mem_cons, Section.contains_iff]
    refine ⟨⟨fun address => ?_, fun address => ?_, by simp⟩, ⟨fun address => ?_, by simp⟩, by simp⟩
    all_goals simp <;> omega
  inside := by decide
  filled := by simp [highData]

theorem data_facts_agree_with_lookup_highData :
    highData.LaidOut ∧
      highData.bytesAt? 0xfffffffffffffffb 4 = some [0x0c, 0x20, 0, 0] ∧
      ∃ bytes words, DataFacts highData .dword .little
        (Loader.data .dword .little highData (.new "p")) bytes words :=
  ⟨laidOut_highData, by decide, data_facts_agree_with_lookup highData laidOut_highData .dword
    .little "p"⟩

end BinaryFacts
