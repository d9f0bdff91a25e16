import BinaryFacts.Proofs.LoaderOrder
import Mathlib.Data.List.Forall2

/-!
# The schema of extracted facts

Stores take rows of any shape, and rule programs rely on what the loaders put in. The store that the
loaders of a target fill has the relations of one schema and no others, and each row has the columns
that the schema says.
-/

namespace BinaryFacts

/-- What a column of a relation holds. -/
inductive ColumnKind where
  | symbol
  | number
  | unsigned
  | byte
  | list
deriving DecidableEq

def ColumnKind.admits : ColumnKind → Value → Bool
  | symbol, .symbol _ => true
  | number, .number _ => true
  | unsigned, .unsigned _ => true
  | byte, .unsigned value => value.toNat < 256
  | list, .list _ => true
  | _, _ => false

/-- Relations with the kinds of their columns. -/
abbrev Schema := List (String × List ColumnKind)

def Row.Fits (columns : List ColumnKind) (row : Row) : Prop :=
  List.Forall₂ (fun column value => column.admits value) columns row

namespace LoaderKind

/-- The relations that a loader fills. Those of exception frames come with their section. -/
def schema (framed : Bool) : LoaderKind → Schema
  | header =>
    [("binary_type", [.symbol]), ("binary_format", [.symbol]), ("binary_isa", [.symbol]),
      ("base_address", [.unsigned]), ("entry_point", [.unsigned]), ("endianness", [.symbol])]
  | sections =>
    [("section", [.symbol, .unsigned, .unsigned, .symbol, .unsigned]),
      ("section_property", [.symbol, .symbol])]
  | instructions _ =>
    [("instruction", [.unsigned, .unsigned, .symbol, .symbol, .list, .unsigned, .unsigned]),
      ("invalid_instruction", [.unsigned]), ("operand_register", [.unsigned, .symbol]),
      ("operand_immediate", [.unsigned, .number]),
      ("operand_indirect",
        [.unsigned, .symbol, .symbol, .symbol, .number, .number, .unsigned])]
  | data _ _ => [("data_byte", [.unsigned, .byte]), ("address_in_data", [.unsigned, .unsigned])]
  | dynamicEntries => [("dynamic_entry", [.symbol, .unsigned])]
  | symbols =>
    [("elf_symbol", [.unsigned, .unsigned, .symbol, .symbol, .symbol, .unsigned, .symbol])]
  | exceptionFrames =>
    if framed then
      [("cie_encoding", [.unsigned, .byte, .byte]), ("fde_addresses", [.unsigned, .unsigned])]
    else []
  | rawEntry => [("raw_entry", [.unsigned])]

end LoaderKind

/-- The relations of a target's store. -/
def TargetSpec.schema (spec : TargetSpec) (framed : Bool) : Schema :=
  spec.kinds.flatMap (·.schema framed)

example : ((TargetSpec.standard .elf .x64 .little "disasm_x64" .x64).schema true).map Prod.fst =
    ["binary_type", "binary_format", "binary_isa", "base_address", "entry_point", "endianness",
      "section", "section_property", "instruction", "invalid_instruction", "operand_register",
      "operand_immediate", "operand_indirect", "data_byte", "address_in_data", "dynamic_entry",
      "elf_symbol", "cie_encoding", "fde_addresses"] := rfl

/-- Whether the first section of exception frames has contents. -/
def Binary.hasFrames (binary : Binary) : Bool :=
  ((binary.sectionNamed? ".eh_frame").bind (·.bytes)).isSome

namespace FactStore

/-- Whether a store has the relations of a schema and no others, with rows that fit. -/
structure Conforms (store : FactStore) (schema : Schema) : Prop where
  names : ∀ relation, store.contains relation ↔ relation ∈ schema.map Prod.fst
  rows : ∀ relation columns, (relation, columns) ∈ schema →
    ∀ row ∈ store.rows relation, row.Fits columns

/-- Whether a relation has one row for each of some values, in their order, with it in a column. -/
def ShowsEach (store : FactStore) (relation : String) (column : Nat) (values : List Value) : Prop :=
  (store.rows relation).map (·[column]?) = values.map some

lemma contains_insertAll (store : FactStore) (found : List (String × List Row))
    (relation : String) :
    (store.insertAll found).contains relation ↔
      store.contains relation ∨ relation ∈ found.map Prod.fst := by
  induction found generalizing store with
  | nil => simp [insertAll]
  | cons first rest ih =>
    change ((store.insert first.1 first.2).insertAll rest).contains relation ↔ _
    rw [ih, (Appends.insert first.1 first.2).contains, List.map_cons, List.mem_cons,
      Bool.or_eq_true, or_assoc]
    by_cases hfirst : relation = first.1 <;> simp [hfirst]

lemma rows_insertAll_of_notMem (store : FactStore) {found : List (String × List Row)}
    {relation : String} (h : relation ∉ found.map Prod.fst) :
    (store.insertAll found).rows relation = store.rows relation := by
  induction found generalizing store with
  | nil => rfl
  | cons first rest ih =>
    rw [List.map_cons, List.mem_cons, not_or] at h
    change ((store.insert first.1 first.2).insertAll rest).rows relation = _
    rw [ih _ h.2, rows_insert, if_neg h.1, List.append_nil]

lemma rows_insertAll_of_mem {found : List (String × List Row)}
    (hnodup : (found.map Prod.fst).Nodup) {relation : String} {rows : List Row}
    (h : (relation, rows) ∈ found) (store : FactStore) :
    (store.insertAll found).rows relation = store.rows relation ++ rows := by
  induction found generalizing store with
  | nil => cases h
  | cons first rest ih =>
    rw [List.map_cons, List.nodup_cons] at hnodup
    change ((store.insert first.1 first.2).insertAll rest).rows relation = _
    rcases List.mem_cons.mp h with rfl | h
    · rw [rows_insertAll_of_notMem _ hnodup.1, rows_insert, if_pos rfl]
    · have hother : relation ≠ first.1 := by
        rintro rfl
        exact hnodup.1 (List.mem_map.mpr ⟨_, h, rfl⟩)
      rw [ih hnodup.2 h, rows_insert, if_neg hother, List.append_nil]

/-- Whether tables are those of a schema, in its order and with rows that fit. -/
def TablesFit (found : List (String × List Row)) (schema : Schema) : Prop :=
  List.Forall₂ (fun table relation =>
    table.1 = relation.1 ∧ ∀ row ∈ table.2, Row.Fits relation.2 row) found schema

lemma TablesFit.names {found : List (String × List Row)} {schema : Schema}
    (h : TablesFit found schema) : found.map Prod.fst = schema.map Prod.fst := by
  induction h with
  | nil => rfl
  | cons hfirst _ ih => rw [List.map_cons, List.map_cons, hfirst.1, ih]

lemma TablesFit.exists_table {found : List (String × List Row)} {schema : Schema}
    (h : TablesFit found schema) {relation : String} {columns : List ColumnKind}
    (hmem : (relation, columns) ∈ schema) :
    ∃ rows, (relation, rows) ∈ found ∧ ∀ row ∈ rows, Row.Fits columns row := by
  induction h with
  | nil => cases hmem
  | @cons table _ _ _ hfirst _ ih =>
    rcases List.mem_cons.mp hmem with rfl | hmem
    · exact ⟨table.2, List.mem_cons.mpr (.inl (Prod.ext hfirst.1.symm rfl)), hfirst.2⟩
    · obtain ⟨rows, hrows, hfits⟩ := ih hmem
      exact ⟨rows, List.mem_cons_of_mem table hrows, hfits⟩

/-- A new store with tables of different names that fit a schema conforms to it. -/
lemma TablesFit.conforms {found : List (String × List Row)} {schema : Schema}
    (h : TablesFit found schema) (hnodup : (schema.map Prod.fst).Nodup) (program : String) :
    ((new program).insertAll found).Conforms schema where
  names relation := by
    rw [contains_insertAll, h.names]
    exact or_iff_right Bool.false_ne_true
  rows relation columns hmem row hrow := by
    obtain ⟨rows, hrows, hfits⟩ := h.exists_table hmem
    rw [← h.names] at hnodup
    rw [rows_insertAll_of_mem hnodup hrows] at hrow
    exact hfits row hrow

end FactStore

open FactStore (TablesFit)

namespace LoaderKind

variable {α : Type} {columns : List ColumnKind}

lemma fits_map {row : α → Row} (h : ∀ item, (row item).Fits columns) (items : List α) :
    ∀ other ∈ items.map row, Row.Fits columns other :=
  List.forall_mem_map.mpr fun item _ => h item

lemma fits_filterMap {row? : α → Option Row}
    (h : ∀ item row, row? item = some row → row.Fits columns) (items : List α) :
    ∀ row ∈ items.filterMap row?, Row.Fits columns row := by
  intro row hrow
  obtain ⟨item, -, hitem⟩ := List.mem_filterMap.mp hrow
  exact h item row hitem

lemma fits_flatMap {rows : α → List Row} (h : ∀ item, ∀ row ∈ rows item, Row.Fits columns row)
    (items : List α) : ∀ row ∈ items.flatMap rows, Row.Fits columns row := by
  intro row hrow
  obtain ⟨item, -, hitem⟩ := List.mem_flatMap.mp hrow
  exact h item row hitem

lemma fits_symbol (name : String) : ∀ row ∈ [[Value.symbol name]], Row.Fits [.symbol] row := by
  simp [Row.Fits, ColumnKind.admits]

lemma fits_unsigned (value : UInt64) :
    ∀ row ∈ [[Value.unsigned value]], Row.Fits [.unsigned] row := by
  simp [Row.Fits, ColumnKind.admits]

lemma tablesFit_header (d : Disassembler) (binary : Binary) :
    TablesFit (header.tables d binary) (header.schema binary.hasFrames) :=
  .cons ⟨rfl, fits_symbol _⟩ (.cons ⟨rfl, fits_symbol _⟩ (.cons ⟨rfl, fits_symbol _⟩
    (.cons ⟨rfl, fits_unsigned _⟩ (.cons ⟨rfl, fits_unsigned _⟩ (.cons ⟨rfl, fits_symbol _⟩
      .nil)))))

lemma tablesFit_sections (d : Disassembler) (binary : Binary) :
    TablesFit (sections.tables d binary) (sections.schema binary.hasFrames) := by
  refine .cons ⟨rfl, fits_map ?_ _⟩ (.cons ⟨rfl, fits_flatMap ?_ _⟩ .nil)
  · intro s
    simp [Loader.sectionRow, Row.Fits, ColumnKind.admits]
  · intro s
    refine fits_map ?_ _
    intro property
    simp [Row.Fits, ColumnKind.admits]

lemma tablesFit_instructions (decoder : Decoder) (d : Disassembler) (binary : Binary) :
    TablesFit ((instructions decoder).tables d binary)
      ((instructions decoder).schema binary.hasFrames) := by
  refine .cons ⟨rfl, fits_map ?_ _⟩ (.cons ⟨rfl, fits_map ?_ _⟩ (.cons ⟨rfl, fits_filterMap ?_ _⟩
    (.cons ⟨rfl, fits_filterMap ?_ _⟩ (.cons ⟨rfl, fits_filterMap ?_ _⟩ .nil))))
  · intro instruction
    simp [Listing.instructionRow, Row.Fits, ColumnKind.admits]
  · intro address
    simp [Row.Fits, ColumnKind.admits]
  · rintro ⟨index, operand⟩ row hrow
    cases operand <;> cases hrow
    simp [Row.Fits, ColumnKind.admits]
  · rintro ⟨index, operand⟩ row hrow
    cases operand <;> cases hrow
    simp [Row.Fits, ColumnKind.admits]
  · rintro ⟨index, operand⟩ row hrow
    cases operand <;> cases hrow
    simp [Row.Fits, ColumnKind.admits]

lemma tablesFit_data (pointer : PointerSize) (order : Endian) (d : Disassembler)
    (binary : Binary) :
    TablesFit ((data pointer order).tables d binary)
      ((data pointer order).schema binary.hasFrames) := by
  refine .cons ⟨rfl, fits_flatMap ?_ _⟩ (.cons ⟨rfl, fits_flatMap ?_ _⟩ .nil)
  · intro s row hrow
    obtain ⟨offset, hoffset, rfl⟩ := List.mem_mapIdx.mp hrow
    simpa [Row.Fits, ColumnKind.admits] using s.dataBytes[offset].toNat_lt
  · intro s
    refine fits_map ?_ _
    intro word
    simp [Row.Fits, ColumnKind.admits]

lemma tablesFit_symbols (d : Disassembler) (binary : Binary) :
    TablesFit (symbols.tables d binary) (symbols.schema binary.hasFrames) := by
  refine .cons ⟨rfl, fits_filterMap ?_ _⟩ .nil
  intro symbol row hrow
  obtain ⟨address, -, rfl⟩ := Option.map_eq_some_iff.mp hrow
  simp [Row.Fits, ColumnKind.admits]

lemma tablesFit_exceptionFrames (d : Disassembler) (binary : Binary) :
    TablesFit (exceptionFrames.tables d binary) (exceptionFrames.schema binary.hasFrames) := by
  unfold tables schema Binary.hasFrames
  cases binary.sectionNamed? ".eh_frame" with
  | none => exact .nil
  | some s =>
    rcases Option.eq_none_or_eq_some s.bytes with hbytes | ⟨bytes, hbytes⟩
    · simp only [Option.bind_some, hbytes]
      exact .nil
    · simp only [Option.bind_some, hbytes]
      refine .cons ⟨rfl, fits_filterMap ?_ _⟩ (.cons ⟨rfl, fits_filterMap ?_ _⟩ .nil)
      · intro entry row hrow
        cases entry with
        | frame start limit => cases hrow
        | common entry =>
          cases hrow
          simpa [Row.Fits, ColumnKind.admits] using
            And.intro entry.frameEncoding.toNat_lt entry.dataEncoding.toNat_lt
      · intro entry row hrow
        cases entry <;> cases hrow
        simp [Row.Fits, ColumnKind.admits]

/-- Every loader fills its part of the schema. -/
lemma tablesFit (d : Disassembler) (kind : LoaderKind) (binary : Binary) :
    TablesFit (kind.tables d binary) (kind.schema binary.hasFrames) := by
  cases kind with
  | header => exact tablesFit_header d binary
  | sections => exact tablesFit_sections d binary
  | instructions decoder => exact tablesFit_instructions decoder d binary
  | data pointer order => exact tablesFit_data pointer order d binary
  | dynamicEntries =>
    refine .cons ⟨rfl, fits_map ?_ _⟩ .nil
    intro entry
    simp [Row.Fits, ColumnKind.admits]
  | symbols => exact tablesFit_symbols d binary
  | exceptionFrames => exact tablesFit_exceptionFrames d binary
  | rawEntry =>
    refine .cons ⟨rfl, fits_map ?_ _⟩ .nil
    intro s
    simp [Row.Fits, ColumnKind.admits]

end LoaderKind

namespace TargetSpec

variable (spec : TargetSpec) (d : Disassembler) (binary : Binary)

/-- What the loaders of a target find in a binary. -/
def tables : List (String × List Row) := spec.kinds.flatMap (·.tables d binary)

lemma populate_eq (store : FactStore) :
    (spec.assemble d).populate binary store = store.insertAll (spec.tables d binary) := by
  rw [spec.assemble_eq d, LoaderKind.populate_eq]
  rfl

lemma nodup_schema (framed : Bool) : ((spec.schema framed).map Prod.fst).Nodup := by
  unfold schema kinds
  -- only the container decides which loaders a target has
  cases spec.container <;> cases framed <;> simp [LoaderKind.schema]

lemma tablesFit : TablesFit (spec.tables d binary) (spec.schema binary.hasFrames) := by
  unfold tables schema
  induction spec.kinds with
  | nil => exact .nil
  | cons kind rest ih =>
    rw [List.flatMap_cons, List.flatMap_cons]
    exact List.rel_append (kind.tablesFit d binary) ih

variable {spec d binary}

lemma rows_populate_of_mem {kind : LoaderKind} (hkind : kind ∈ spec.kinds) {relation : String}
    {rows : List Row} (h : (relation, rows) ∈ kind.tables d binary) (program : String) :
    ((spec.assemble d).populate binary (.new program)).rows relation = rows := by
  have hnodup := spec.nodup_schema binary.hasFrames
  rw [← (spec.tablesFit d binary).names] at hnodup
  rw [spec.populate_eq]
  exact FactStore.rows_insertAll_of_mem hnodup (List.mem_flatMap.mpr ⟨kind, hkind, h⟩) _

end TargetSpec

/-- The flags of sections as they are named in facts. -/
def sectionFlagNames : List (String × (SectionFlags → Bool)) :=
  [("Readable", (·.readable)), ("Writable", (·.writable)), ("Executable", (·.executable)),
    ("Loaded", (·.loaded)), ("Initialized", (·.initialized))]

/-- Whether a store has as many rows as the parts of a binary call for. -/
structure FactStore.CountsParts (store : FactStore) (binary : Binary)
    (container : ContainerLoaders) : Prop where
  single : ∀ relation ∈
    ["binary_type", "binary_format", "binary_isa", "base_address", "entry_point", "endianness"],
    (store.rows relation).length = 1
  sections : store.ShowsEach "section" 0 (binary.sections.map fun s => .symbol s.name)
  /-- One row for each flag that is set. -/
  properties : store.rows "section_property" = binary.sections.flatMap fun s =>
    (sectionFlagNames.filter fun flag => flag.2 s.flags).map fun flag =>
      [.symbol s.name, .symbol flag.1]
  dynamicEntries : container = .elf →
    store.ShowsEach "dynamic_entry" 0 (binary.dynamicEntries.map fun entry => .symbol entry.tag)
  /-- One row for each symbol with an address. -/
  symbols : container = .elf →
    store.ShowsEach "elf_symbol" 0 ((binary.symbols.filterMap (·.address)).map .unsigned)
  entries : container = .raw →
    store.ShowsEach "raw_entry" 0
      ((binary.sections.filter (·.flags.executable)).map fun s => .unsigned s.address)

lemma propertyNames_eq (flags : SectionFlags) :
    Loader.propertyNames flags =
      (sectionFlagNames.filter fun flag => flag.2 flags).map Prod.fst := by
  have hpairs : Loader.propertyNames flags =
      ((sectionFlagNames.map fun flag => (flag.1, flag.2 flags)).filter (·.2)).map (·.1) := rfl
  rw [hpairs, List.filter_map, List.map_map]
  rfl

lemma TargetSpec.countsParts (spec : TargetSpec) (d : Disassembler) (binary : Binary)
    (program : String) :
    ((spec.assemble d).populate binary (.new program)).CountsParts binary spec.container where
  single relation hrelation := by
    have hheader : LoaderKind.header ∈ spec.kinds := List.mem_cons_self
    simp only [List.mem_cons, List.not_mem_nil, or_false] at hrelation
    rcases hrelation with rfl | rfl | rfl | rfl | rfl | rfl <;>
      rw [rows_populate_of_mem hheader (by simp [LoaderKind.tables]; rfl)] <;> rfl
  sections := by
    have hsections : LoaderKind.sections ∈ spec.kinds := by simp [kinds]
    unfold FactStore.ShowsEach
    rw [rows_populate_of_mem hsections List.mem_cons_self, List.map_map, List.map_map]
    rfl
  properties := by
    have hsections : LoaderKind.sections ∈ spec.kinds := by simp [kinds]
    rw [rows_populate_of_mem hsections (List.mem_cons_of_mem _ List.mem_cons_self)]
    refine congrArg binary.sections.flatMap (funext fun s => ?_)
    rw [Loader.propertyRows, propertyNames_eq, List.map_map]
    rfl
  dynamicEntries h := by
    have hentries : LoaderKind.dynamicEntries ∈ spec.kinds := by simp [kinds, h]
    unfold FactStore.ShowsEach
    rw [rows_populate_of_mem hentries List.mem_cons_self, List.map_map, List.map_map]
    rfl
  symbols h := by
    have hsymbols : LoaderKind.symbols ∈ spec.kinds := by simp [kinds, h]
    unfold FactStore.ShowsEach
    rw [rows_populate_of_mem hsymbols List.mem_cons_self, List.map_filterMap, List.map_map,
      List.map_filterMap]
    refine congrArg (List.filterMap · binary.symbols) (funext fun symbol => ?_)
    unfold Loader.symbolRow?
    cases symbol.address <;> rfl
  entries h := by
    have hentry : LoaderKind.rawEntry ∈ spec.kinds := by simp [kinds, h]
    unfold FactStore.ShowsEach
    rw [rows_populate_of_mem hentry List.mem_cons_self, List.map_map, List.map_map]
    rfl

/-- Whatever a binary holds and however its code is decoded, the store that a target's loaders fill
conforms to the schema of the target and has the rows that the binary's parts call for. -/
theorem extracted_stores_conform (spec : TargetSpec) (d : Disassembler) (binary : Binary)
    (program : String) :
    let store := (spec.assemble d).populate binary (.new program)
    store.program = program ∧
      store.Conforms (spec.schema binary.hasFrames) ∧
      store.CountsParts binary spec.container := by
  intro store
  refine ⟨?_, ?_, spec.countsParts d binary program⟩
  · exact spec.program_populate d binary (.new program)
  · change ((spec.assemble d).populate binary (.new program)).Conforms _
    rw [spec.populate_eq]
    exact (spec.tablesFit d binary).conforms (spec.nodup_schema _) program

/-- A binary with a section of exception frames, and a symbol that is defined elsewhere. -/
def framedBinary : Binary :=
  let frames : Section :=
    ⟨".eh_frame", 0x2000, 4, "PROGBITS", 8, { loaded := true, initialized := true },
      some [0, 0, 0, 0]⟩
  let imported : Symbol := { Symbol.function "puts" 0 with address := none }
  { Binary.raw [0xc3] .x64 .little 0x1000 with
    sections := [frames]
    symbols := [imported, .function "start" 0x1000] }

theorem extracted_stores_conform_framed :
    let spec := TargetSpec.standard .elf .x64 .little "disasm_x64" .x64
    let store := (spec.assemble fun _ _ _ => none).populate framedBinary (.new "p")
    store.Conforms (spec.schema true) ∧ store.contains "fde_addresses" ∧
      ¬ store.contains "raw_entry" ∧
      (∀ row ∈ store.rows "data_byte", row.Fits [.unsigned, .byte]) ∧
      store.ShowsEach "elf_symbol" 0 [.unsigned 0x1000] := by
  intro spec store
  obtain ⟨-, hconforms, hparts⟩ :=
    extracted_stores_conform spec (fun _ _ _ => none) framedBinary "p"
  have hconforms : store.Conforms (spec.schema true) := hconforms
  refine ⟨hconforms, (hconforms.names _).mpr (by decide), ?_, ?_, hparts.symbols rfl⟩
  · rw [hconforms.names]
    decide
  · exact hconforms.rows "data_byte" _ (by decide)

end BinaryFacts
