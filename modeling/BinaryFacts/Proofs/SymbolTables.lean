import BinaryFacts.Loader.Symbol
import BinaryFacts.Proofs.PlacedImages
import Mathlib.Data.List.Forall2
import Mathlib.Data.List.Induction
import Mathlib.Data.List.Nodup
import Mathlib.Tactic.Lemma

/-!
# Symbol tables

The symbols that a binary takes from the tables of its container, one by one. They are the named
entries of the tables in order, without those that have the name and address of an entry before
them.
-/

namespace BinaryFacts

/-! ### First occurrences -/

section FirstOfEach

variable {α κ : Type} [DecidableEq κ] (key : α → κ)

/-- The items of a list, without those that share their key with an item before them. -/
def firstOfEach (items : List α) : List α :=
  (items.zipIdx.filter fun (item, place) => key item ∉ (items.take place).map key).map Prod.fst

/-- What comes behind an item does not decide whether it is kept. -/
lemma firstOfEach_append_singleton (items : List α) (item : α) :
    firstOfEach key (items ++ [item]) =
      if key item ∈ items.map key then firstOfEach key items
      else firstOfEach key items ++ [item] := by
  have hearlier : items.zipIdx.filter (fun (other, place) =>
      key other ∉ ((items ++ [item]).take place).map key) =
      items.zipIdx.filter fun (other, place) => key other ∉ (items.take place).map key := by
    apply List.filter_congr
    rintro ⟨other, place⟩ hmem
    have hplace : place < items.length := List.snd_lt_of_mem_zipIdx hmem
    dsimp only
    rw [List.take_append_of_le_length (Nat.le_of_lt hplace)]
  unfold firstOfEach
  rw [List.zipIdx_append, List.filter_append, hearlier, List.map_append, List.zipIdx_singleton,
    Nat.zero_add]
  by_cases hkey : key item ∈ items.map key
  · rw [if_pos hkey, List.filter_cons_of_neg (by simpa using hkey)]
    exact List.append_nil _
  · rw [if_neg hkey, List.filter_cons_of_pos (by simpa using hkey)]
    rfl

lemma firstOfEach_sublist (items : List α) : (firstOfEach key items).Sublist items := by
  have hsublist := (List.filter_sublist (l := items.zipIdx)
    (p := fun (item, place) => key item ∉ (items.take place).map key)).map Prod.fst
  rwa [List.zipIdx_map_fst] at hsublist

lemma mem_map_firstOfEach {items : List α} {k : κ} :
    k ∈ (firstOfEach key items).map key ↔ k ∈ items.map key := by
  induction items using List.reverseRecOn with
  | nil => rfl
  | append_singleton items item ih =>
    rw [firstOfEach_append_singleton]
    by_cases hitem : key item ∈ items.map key
    · rw [if_pos hitem, ih, List.map_append, List.mem_append]
      refine (or_iff_left_of_imp ?_).symm
      intro hk
      rwa [List.mem_singleton.mp hk]
    · rw [if_neg hitem, List.map_append, List.mem_append, ih, List.map_append, List.mem_append]

lemma nodup_map_firstOfEach (items : List α) : ((firstOfEach key items).map key).Nodup := by
  induction items using List.reverseRecOn with
  | nil => exact List.nodup_nil
  | append_singleton items item ih =>
    rw [firstOfEach_append_singleton]
    by_cases hitem : key item ∈ items.map key
    · rwa [if_pos hitem]
    · rw [if_neg hitem, List.map_append]
      refine ih.append (List.nodup_singleton _) (List.disjoint_singleton.mpr ?_)
      rwa [mem_map_firstOfEach]

end FirstOfEach

/-- The items that a partial function reads, beside what it reads them as. -/
lemma forall₂_filterMap {α β : Type} {read : α → Option β} {listed : α → Bool} {R : α → β → Prop}
    (hlisted : ∀ item, listed item = true → ∃ found, read item = some found ∧ R item found)
    (hother : ∀ item, listed item = false → read item = none) (items : List α) :
    List.Forall₂ R (items.filter listed) (items.filterMap read) := by
  induction items with
  | nil => exact .nil
  | cons item items ih =>
    cases hitem : listed item with
    | false =>
      rw [List.filter_cons_of_neg (by simp [hitem]), List.filterMap_cons_none (hother item hitem)]
      exact ih
    | true =>
      obtain ⟨found, hread, hR⟩ := hlisted item hitem
      rw [List.filter_cons_of_pos hitem, List.filterMap_cons_some hread]
      exact .cons hR ih

/-! ### Entries -/

/-- What makes two symbols the same to a binary. -/
def Symbol.key (symbol : Symbol) : String × Option UInt64 := (symbol.name, symbol.address)

namespace ElfSymbol

variable {entry : ElfSymbol}

/-- What an entry of a table says of its symbol. Only an entry of section 0 gives no address. -/
structure ReadsAs (entry : ElfSymbol) (symbol : Symbol) : Prop where
  name : entry.name = some symbol.name
  address : symbol.address = if entry.sectionIndex = 0 then none else some entry.value
  size : symbol.size = entry.size
  kind : symbol.kind = entry.type
  binding : symbol.binding = entry.binding
  visibility : symbol.visibility = entry.visibility
  sectionIndex : symbol.sectionIndex = entry.sectionIndex

def isNamed (entry : ElfSymbol) : Bool := entry.name.getD "" != ""

lemma exists_toSymbol? (h : entry.isNamed = true) :
    ∃ symbol, entry.toSymbol? = some symbol ∧ entry.ReadsAs symbol := by
  unfold isNamed at h
  unfold toSymbol?
  split
  · next hname => simp [hname] at h
  · next hname => simp [hname] at h
  · next name _ hname =>
    refine ⟨_, rfl, hname, ?_, rfl, rfl, rfl, rfl, rfl⟩
    simp only [beq_iff_eq]

lemma toSymbol?_eq_none (h : entry.isNamed = false) : entry.toSymbol? = none := by
  unfold isNamed at h
  unfold toSymbol?
  split
  · rfl
  · rfl
  · next name hne hname =>
    rw [hname] at h
    exact absurd (by simpa using h) hne

end ElfSymbol

namespace PeExport

variable {entry : PeExport}

/-- What an export says of its symbol: a global one at an address relative to the base. -/
structure ReadsAs (base : UInt64) (entry : PeExport) (symbol : Symbol) : Prop where
  name : entry.name = some symbol.name
  symbol_eq : symbol =
    ⟨symbol.name, some (base + entry.offset), 0, "NOTYPE", "GLOBAL", "DEFAULT", 0⟩

lemma exists_placed? (base : UInt64) (h : entry.isListed = true) :
    ∃ symbol, entry.placed? base = some symbol ∧ entry.ReadsAs base symbol := by
  have hnamed : entry.name.getD "" ≠ "" := by simpa using (Bool.and_eq_true_iff.mp h).1
  refine ⟨_, if_pos h, ?_, rfl⟩
  cases hname : entry.name with
  | none => simp [hname] at hnamed
  | some name => rfl

lemma placed?_eq_none (base : UInt64) (h : entry.isListed = false) : entry.placed? base = none :=
  if_neg (Bool.eq_false_iff.mp h)

end PeExport

/-! ### Tables -/

namespace Binary

lemma any_iff_mem_map_key {binary : Binary} {symbol : Symbol} :
    binary.symbols.any (fun s => s.name == symbol.name && s.address == symbol.address) = true ↔
      symbol.key ∈ binary.symbols.map Symbol.key := by
  simp [Symbol.key]

lemma addSymbols_append_singleton (binary : Binary) (entries : List Symbol) (entry : Symbol) :
    binary.addSymbols (entries ++ [entry]) = (binary.addSymbols entries).addSymbol entry :=
  List.foldl_append

/-- Nothing but the symbols changes. -/
lemma addSymbols_eq (binary : Binary) (entries : List Symbol) :
    binary.addSymbols entries = { binary with symbols := (binary.addSymbols entries).symbols } := by
  induction entries using List.reverseRecOn with
  | nil => rfl
  | append_singleton entries entry ih =>
    rw [addSymbols_append_singleton, addSymbol]
    split
    · exact ih
    · rw [ih]

/-- Adding symbols one by one to a binary without symbols keeps the first of each key. -/
lemma symbols_addSymbols {binary : Binary} (h : binary.symbols = []) (entries : List Symbol) :
    (binary.addSymbols entries).symbols = firstOfEach Symbol.key entries := by
  induction entries using List.reverseRecOn with
  | nil => exact h
  | append_singleton entries entry ih =>
    have hkeys : entry.key ∈ (binary.addSymbols entries).symbols.map Symbol.key ↔
        entry.key ∈ entries.map Symbol.key := by
      rw [ih]
      exact mem_map_firstOfEach Symbol.key
    rw [addSymbols_append_singleton, addSymbol, firstOfEach_append_singleton, ← ih]
    by_cases hkey : entry.key ∈ entries.map Symbol.key
    · rw [if_pos hkey, if_pos (any_iff_mem_map_key.mpr (hkeys.mpr hkey))]
    · rw [if_neg hkey, if_neg (mt (hkeys.mp ∘ any_iff_mem_map_key.mp) hkey)]

/-- How the symbols of a binary stem from the entries of its tables. -/
structure ListsOnce (binary : Binary) (entries : List Symbol) : Prop where
  symbols : binary.symbols = firstOfEach Symbol.key entries
  once : (binary.symbols.map fun symbol => (symbol.name, symbol.address)).Nodup
  kept : ∀ entry ∈ entries, ∃ symbol ∈ binary.symbols,
    symbol.name = entry.name ∧ symbol.address = entry.address
  rows : ∀ store, ∃ rows,
    (Loader.symbols binary store).rows "elf_symbol" = store.rows "elf_symbol" ++ rows ∧
      List.Forall₂ (fun symbol row => ∃ address, symbol.address = some address ∧
          row = [.unsigned address, .unsigned symbol.size, .symbol symbol.kind,
            .symbol symbol.binding, .symbol symbol.visibility, .unsigned symbol.sectionIndex,
            .symbol symbol.name])
        (binary.symbols.filter (·.address.isSome)) rows

lemma listsOnce_addSymbols {binary : Binary} (h : binary.symbols = []) (entries : List Symbol) :
    (binary.addSymbols entries).ListsOnce entries where
  symbols := symbols_addSymbols h entries
  once := by
    rw [symbols_addSymbols h]
    exact nodup_map_firstOfEach Symbol.key entries
  kept entry hentry := by
    have hkey := (mem_map_firstOfEach Symbol.key).mpr (List.mem_map_of_mem hentry)
    rw [← symbols_addSymbols h] at hkey
    obtain ⟨symbol, hsymbol, hsame⟩ := List.mem_map.mp hkey
    exact ⟨symbol, hsymbol, Prod.mk.inj hsame⟩
  rows store := by
    refine ⟨_, FactStore.rows_insert .., ?_⟩
    rw [if_pos rfl]
    apply forall₂_filterMap
    · intro symbol haddress
      obtain ⟨address, haddress⟩ := Option.isSome_iff_exists.mp haddress
      exact ⟨_, by rw [Loader.symbolRow?, haddress, Option.map_some], address, haddress, rfl⟩
    · intro symbol haddress
      rw [Loader.symbolRow?, Option.isNone_iff_eq_none.mp (Option.isSome_eq_false_iff.mp haddress),
        Option.map_none]

variable (name : String) (file : List UInt8)

lemma listsOnce_ofElf (report : ElfReport) : (ofElf name file report).ListsOnce
    ((report.symbols ++ report.dynamicSymbols).filterMap ElfSymbol.toSymbol?) :=
  listsOnce_addSymbols rfl _

lemma listsOnce_placedImage (report : PeReport) : (placedImage name file report).ListsOnce
    (report.exports.filterMap (PeExport.placed? report.imageBase)) :=
  listsOnce_addSymbols rfl _

lemma exists_symbol_ofElf {report : ElfReport} {entry : ElfSymbol}
    (hentry : entry ∈ report.symbols ++ report.dynamicSymbols) (hnamed : entry.isNamed = true) :
    ∃ symbol ∈ (ofElf name file report).symbols, entry.name = some symbol.name ∧
      symbol.address = if entry.sectionIndex = 0 then none else some entry.value := by
  obtain ⟨read, hread, hreads⟩ := ElfSymbol.exists_toSymbol? hnamed
  obtain ⟨symbol, hsymbol, hname, haddress⟩ :=
    (listsOnce_ofElf name file report).kept read (List.mem_filterMap.mpr ⟨entry, hentry, hread⟩)
  exact ⟨symbol, hsymbol, by rw [hname, hreads.name], by rw [haddress, hreads.address]⟩

lemma exists_symbol_placedImage {report : PeReport} {entry : PeExport}
    (hentry : entry ∈ report.exports) (hlisted : entry.isListed = true) :
    ∃ symbol ∈ (placedImage name file report).symbols, entry.name = some symbol.name ∧
      symbol.address = some (report.imageBase + entry.offset) := by
  obtain ⟨read, hread, hreads⟩ := PeExport.exists_placed? report.imageBase hlisted
  obtain ⟨symbol, hsymbol, hname, haddress⟩ := (listsOnce_placedImage name file report).kept read
    (List.mem_filterMap.mpr ⟨entry, hentry, hread⟩)
  exact ⟨symbol, hsymbol, by rw [hname, hreads.name], by rw [haddress, hreads.symbol_eq]⟩

lemma sections_ofElf (report : ElfReport) : (ofElf name file report).sections =
    (report.sections.drop 1).map (ElfSection.toSection file) :=
  congrArg sections (addSymbols_eq _ _)

lemma sections_placedImage (report : PeReport) : (placedImage name file report).sections =
    report.sections.map fun header =>
      header.sectionAt file (report.imageBase + header.virtualAddress.toUInt64) :=
  congrArg sections (addSymbols_eq _ _)

lemma entryPoint_placedImage (report : PeReport) :
    (placedImage name file report).entryPoint = some (report.imageBase + report.entry) :=
  congrArg entryPoint (addSymbols_eq _ _)

end Binary

/-- The symbols of a binary are the named entries of its container's tables, the first of each name
and address, and the loader of symbols has rows for those with an address. So a name that is both
defined and imported is listed twice. Only an image whose addresses do not fit has no binary. -/
theorem symbol_tables_keep_first (name : String) (file : List UInt8) :
    (∀ report : ElfReport, ∃ binary entries,
      Binary.ofFile name file (.elf report) = .ok binary ∧
      List.Forall₂ ElfSymbol.ReadsAs
        ((report.symbols ++ report.dynamicSymbols).filter ElfSymbol.isNamed) entries ∧
      binary.ListsOnce entries ∧
      ∀ defined ∈ report.symbols ++ report.dynamicSymbols,
        ∀ imported ∈ report.symbols ++ report.dynamicSymbols,
          defined.isNamed = true → defined.name = imported.name →
          defined.sectionIndex ≠ 0 → imported.sectionIndex = 0 →
          (∃ symbol ∈ binary.symbols, defined.name = some symbol.name ∧
            symbol.address = some defined.value) ∧
          ∃ symbol ∈ binary.symbols, imported.name = some symbol.name ∧ symbol.address = none) ∧
    ∀ report : PeReport,
      (∃ binary entries,
        Binary.ofFile name file (.pe report) = .ok binary ∧
        List.Forall₂ (PeExport.ReadsAs report.imageBase) (report.exports.filter PeExport.isListed)
          entries ∧
        binary.ListsOnce entries) ∨
      ¬ report.FitsAddressSpace ∧ Binary.ofFile name file (.pe report) = .error .overflow := by
  constructor
  · intro report
    refine ⟨_, _, rfl, forall₂_filterMap (fun _ => ElfSymbol.exists_toSymbol?)
      (fun _ => ElfSymbol.toSymbol?_eq_none) _, Binary.listsOnce_ofElf name file report, ?_⟩
    intro defined hdefined imported himported hnamed hsame hsection hzero
    have hnamed' : imported.isNamed = true := by rwa [ElfSymbol.isNamed, ← hsame]
    obtain ⟨first, hfirst, hname, haddress⟩ := Binary.exists_symbol_ofElf name file hdefined hnamed
    obtain ⟨second, hsecond, hname', haddress'⟩ :=
      Binary.exists_symbol_ofElf name file himported hnamed'
    rw [if_neg hsection] at haddress
    rw [if_pos hzero] at haddress'
    exact ⟨⟨first, hfirst, hname, haddress⟩, second, hsecond, hname', haddress'⟩
  · intro report
    have hgives := Binary.givesIf_ofPe name file report
    rw [Binary.ofFile]
    generalize Binary.ofPe name file report = result at hgives
    cases hgives with
    | gives _ =>
      exact .inl ⟨_, _, rfl, forall₂_filterMap (fun _ => PeExport.exists_placed? _)
        (fun _ => PeExport.placed?_eq_none _) _, Binary.listsOnce_placedImage name file report⟩
    | stops h => exact .inr ⟨h, rfl⟩

end BinaryFacts
