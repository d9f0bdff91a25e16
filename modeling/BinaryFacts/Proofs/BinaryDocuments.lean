import BinaryFacts.Analysis.Config
import BinaryFacts.Instruction.Json
import BinaryFacts.Target.Descriptor
import BinaryFacts.Proofs.StoreDocuments
import Mathlib.Data.List.Nodup

/-!
# Binaries as documents

Binaries, instructions, operands, target descriptors and pipeline configurations are read back from
their documents, and from the text of these, as they were. The code blocks and functions of a
binary stand under their addresses in decimal, so no two of them fall together.
-/

namespace BinaryFacts

open JsonLibrary JsonLibrary.Lawful

namespace JsonLibrary

variable (library : JsonLibrary) {α : Type} {write : α → Json} {read : Json → Option α}
  {levels : Nat}

/-- Whether every value is read back from its document, and from the text of the document. -/
def RoundTrip (write : α → Json) (read : Json → Option α) : Prop :=
  ∀ value, read (write value) = some value ∧
    (library.parse? (library.print (write value))).bind read = some value

variable [library.Lawful]

lemma Faithful.roundTrip (h : Faithful levels write read) (hlevels : levels ≤ 127) :
    library.RoundTrip write read := by
  intro value
  rw [parse?_print (h.plain value hlevels), Option.bind_some]
  exact ⟨h.read_write value, h.read_write value⟩

/-- A variant that is written by its name is read back from it. -/
lemma faithful_named {κ : Type} {name : κ → String} {ofName? : String → Option κ}
    (h : ∀ kind, ofName? (name kind) = some kind) :
    Faithful 0 (fun kind => library.ofName (name kind)) (library.name? ofName?) where
  read_write kind := by rw [ofName_eq, name?_string, h]
  plain kind _ _ := by
    rw [ofName_eq]
    exact .string (name kind)

lemma Faithful.list (h : Faithful levels write read) :
    Faithful (levels + 1) (library.ofList write) (library.listOf? read) where
  read_write items := by rw [library.listOf?_ofList h.read_write, List.map_id']
  plain := library.plain_ofList h.plain

/-- A value that may be missing is read back if no value is written as what stands for none. -/
lemma Faithful.option (h : Faithful levels write read) (hnull : ∀ value, write value ≠ .null) :
    Faithful levels (library.ofOption write) (library.option? read) where
  read_write
    | none => by rw [ofOption_none, option?_null]
    | some value => by rw [ofOption_some, option?_of_ne read (hnull value), h.read_write]; rfl
  plain value _ hdepth := by
    cases value with
    | none =>
      rw [ofOption_none]
      exact .null
    | some value =>
      rw [ofOption_some]
      exact h.plain value hdepth

lemma faithful_optionalWord :
    Faithful 0 (library.ofOption library.ofUInt64) (library.option? library.uint64?) := by
  refine library.faithful_uint64.option library fun value => ?_
  rw [ofUInt64_eq]
  nofun

lemma Faithful.optionalList (h : Faithful levels write read) :
    Faithful (levels + 1) (library.ofOption (library.ofList write))
      (library.option? (library.listOf? read)) := by
  refine (h.list library).option library fun items => ?_
  rw [ofList_eq]
  nofun

/-! ### Fields -/

variable {β : Type} {fields : List (String × Json)} {name : String}

lemma bind_required? (h : Faithful levels write read) {value : α}
    (hlookup : fields.lookup name = some (write value)) (next : α → Option β) :
    library.required? fields name read >>= next = next value := by
  rw [required?_eq, hlookup, Option.bind_some, h.read_write, Option.bind_eq_bind, Option.bind_some]

lemma bind_optional? {write : Option α → Json}
    (h : Faithful levels write (library.option? read)) {value : Option α}
    (hlookup : fields.lookup name = some (write value)) (next : Option α → Option β) :
    library.optional? fields name read >>= next = next value := by
  rw [optional?_eq, hlookup, Option.map_some, Option.getD_some, h.read_write, Option.bind_eq_bind,
    Option.bind_some]

/-! ### Maps keyed by words -/

/-- No two words share a spelling. -/
lemma decimal_injective : Function.Injective fun word : UInt64 => Text.decimal word.toNat :=
  Function.LeftInverse.injective (g := fun name => (Json.wordKey? name).getD 0) fun word => by
    simp [Json.wordKey?_decimal]

lemma faithful_addressMap (h : Faithful levels write read) :
    Faithful (levels + 1) (addressMapToJson library write) (addressMapOfJson? library read) where
  read_write m := by
    have hkey : ∀ word : UInt64, library.wordKey? (library.ofWordKey word) = some word := by
      intro word
      rw [ofWordKey_eq, wordKey?_decimal]
    rw [addressMapOfJson?, addressMapToJson, library.mapOf?_ofMap hkey h.read_write, List.map_id',
      Option.map_some, OrderedMap.ofList_entries]
  plain m := library.plain_ofMap library.ofWordKey h.plain m.entries

end JsonLibrary

/-- Whether fields are those of a map: one for each of its keys, called by the decimal spelling of
the key. -/
structure KeyedByDecimals {α : Type} (m : OrderedMap UInt64 α) (write : α → Json)
    (fields : List (String × Json)) : Prop where
  names : fields.map Prod.fst = m.keys.map fun key => Text.decimal key.toNat
  nodup : (fields.map Prod.fst).Nodup
  lookup : ∀ key, fields.lookup (Text.decimal key.toNat) = (m.get? key).map write

variable (library : JsonLibrary) [library.Lawful]

lemma lookup_map_decimal {α : Type} (write : α → Json) (entries : List (UInt64 × α))
    (key : UInt64) :
    (entries.map fun entry => (library.ofWordKey entry.1, write entry.2)).lookup
        (Text.decimal key.toNat) =
      (entries.find? fun entry => entry.1 == key).map fun entry => write entry.2 := by
  induction entries with
  | nil => rfl
  | cons entry entries ih =>
    rw [List.map_cons, List.lookup_cons, List.find?_cons, ofWordKey_eq]
    by_cases h : entry.1 = key
    · rw [h, beq_self_eq_true, beq_self_eq_true]
      rfl
    · have hspelling : Text.decimal key.toNat ≠ Text.decimal entry.1.toNat :=
        fun heq => h (decimal_injective heq).symm
      rw [beq_false_of_ne h, beq_false_of_ne hspelling, ih]

lemma exists_keyedByDecimals {α : Type} (write : α → Json) (m : OrderedMap UInt64 α) :
    ∃ fields, addressMapToJson library write m = .object fields ∧
      KeyedByDecimals m write fields := by
  have hnames : (m.entries.map fun entry => (library.ofWordKey entry.1, write entry.2)).map
      Prod.fst = m.keys.map fun key => Text.decimal key.toNat := by
    rw [OrderedMap.keys, List.map_map, List.map_map]
    exact List.map_congr_left fun entry _ => ofWordKey_eq entry.1
  refine ⟨_, ofMap_eq _ _ _, hnames, ?_, fun key => ?_⟩
  · have hkeys : m.keys.Nodup := m.keys_ascending.imp OrderedKey.ne_of_precedes
    rw [hnames]
    exact List.Nodup.map decimal_injective hkeys
  · rw [lookup_map_decimal, OrderedMap.get?, Option.map_map]
    rfl

/-! ### Parts of binaries -/

lemma FileFormat.faithful : Faithful 0 (FileFormat.toJson library) (FileFormat.ofJson? library) :=
  library.faithful_named ofName?_name

lemma Isa.faithful : Faithful 0 (Isa.toJson library) (Isa.ofJson? library) :=
  library.faithful_named ofName?_name

lemma ByteOrder.faithful : Faithful 0 (ByteOrder.toJson library) (ByteOrder.ofJson? library) :=
  library.faithful_named ofName?_name

lemma SectionFlags.faithful :
    Faithful 1 (SectionFlags.toJson library) (SectionFlags.ofJson? library) where
  read_write flags := by simp [toJson, ofJson?, library.faithful_bool.read_write]
  plain flags := library.plain_ofRecord fun _ => by simp [library.faithful_bool.plain]

lemma Section.faithful : Faithful 2 (Section.toJson library) (Section.ofJson? library) where
  read_write s := by
    simp [toJson, ofJson?, library.faithful_string.read_write, library.faithful_uint64.read_write,
      (SectionFlags.faithful library).read_write,
      (library.faithful_uint8.optionalList library).read_write]
  plain s := library.plain_ofRecord fun _ => by
    simp (disch := omega) [library.faithful_string.plain, library.faithful_uint64.plain,
      (SectionFlags.faithful library).plain,
      (library.faithful_uint8.optionalList library).plain]

lemma Symbol.faithful : Faithful 1 (Symbol.toJson library) (Symbol.ofJson? library) where
  read_write symbol := by
    simp [toJson, ofJson?, library.faithful_string.read_write, library.faithful_uint64.read_write,
      library.faithful_optionalWord.read_write]
  plain symbol := library.plain_ofRecord fun _ => by
    simp [library.faithful_string.plain, library.faithful_uint64.plain,
      library.faithful_optionalWord.plain]

lemma DynamicEntry.faithful :
    Faithful 1 (DynamicEntry.toJson library) (DynamicEntry.ofJson? library) where
  read_write entry := by
    simp [toJson, ofJson?, library.faithful_string.read_write, library.faithful_uint64.read_write]
  plain entry := library.plain_ofRecord fun _ => by
    simp [library.faithful_string.plain, library.faithful_uint64.plain]

lemma CodeBlock.faithful :
    Faithful 1 (CodeBlock.toJson library) (CodeBlock.ofJson? library) where
  read_write block := by simp [toJson, ofJson?, library.faithful_uint64.read_write]
  plain block := library.plain_ofRecord fun _ => by simp [library.faithful_uint64.plain]

lemma FlowEdge.faithful : Faithful 1 (FlowEdge.toJson library) (FlowEdge.ofJson? library) where
  read_write edge := by
    simp [toJson, ofJson?, library.faithful_uint64.read_write, library.faithful_string.read_write]
  plain edge := library.plain_ofRecord fun _ => by
    simp [library.faithful_uint64.plain, library.faithful_string.plain]

lemma Function.faithful : Faithful 2 (Function.toJson library) (Function.ofJson? library) where
  read_write function := by
    simp [toJson, ofJson?, library.faithful_uint64.read_write,
      (library.faithful_uint64.list library).read_write]
  plain function := library.plain_ofRecord fun _ => by
    simp (disch := omega) [library.faithful_uint64.plain,
      (library.faithful_uint64.list library).plain]

/-! ### Whole documents -/

lemma Binary.faithful : Faithful 4 (Binary.toJson library) (Binary.ofJson? library) where
  read_write binary := by
    have hfields : library.record? ["name", "file_format", "isa", "byte_order",
        "preferred_address", "entry_point", "binary_type", "sections", "symbols",
        "dynamic_entries", "code_blocks", "cfg_edges", "functions"] (binary.toJson library) =
          some _ :=
      library.record?_ofRecord rfl (by decide)
    rw [ofJson?, hfields]
    rw [Option.bind_eq_bind, Option.bind_some]
    -- thirteen fields are too many for the simplifier to look up together: one step reads each
    refine (library.bind_required? library.faithful_string (by rfl) _).trans ?_
    refine (library.bind_required? (FileFormat.faithful library) (by rfl) _).trans ?_
    refine (library.bind_required? (Isa.faithful library) (by rfl) _).trans ?_
    refine (library.bind_required? (ByteOrder.faithful library) (by rfl) _).trans ?_
    refine (library.bind_required? library.faithful_uint64 (by rfl) _).trans ?_
    refine (library.bind_optional? library.faithful_optionalWord (by rfl) _).trans ?_
    refine (library.bind_optional? (library.faithful_string.optionalList library)
      (by rfl) _).trans ?_
    refine (library.bind_required? ((Section.faithful library).list library) (by rfl) _).trans ?_
    refine (library.bind_required? ((Symbol.faithful library).list library) (by rfl) _).trans ?_
    refine (library.bind_required? ((DynamicEntry.faithful library).list library)
      (by rfl) _).trans ?_
    refine (library.bind_required? (library.faithful_addressMap (CodeBlock.faithful library))
      (by rfl) _).trans ?_
    refine (library.bind_required? ((FlowEdge.faithful library).list library) (by rfl) _).trans ?_
    refine (library.bind_required? (library.faithful_addressMap (Function.faithful library))
      (by rfl) _).trans ?_
    rfl
  plain binary := library.plain_ofRecord fun _ => by
    simp (disch := omega) [library.faithful_string.plain, (FileFormat.faithful library).plain,
      (Isa.faithful library).plain, (ByteOrder.faithful library).plain,
      library.faithful_uint64.plain, library.faithful_optionalWord.plain,
      (library.faithful_string.optionalList library).plain,
      ((Section.faithful library).list library).plain,
      ((Symbol.faithful library).list library).plain,
      ((DynamicEntry.faithful library).list library).plain,
      (library.faithful_addressMap (CodeBlock.faithful library)).plain,
      ((FlowEdge.faithful library).list library).plain,
      (library.faithful_addressMap (Function.faithful library)).plain]

lemma Instruction.faithful :
    Faithful 2 (Instruction.toJson library) (Instruction.ofJson? library) where
  read_write instruction := by
    simp [toJson, ofJson?, library.faithful_string.read_write, library.faithful_uint64.read_write,
      (library.faithful_uint64.list library).read_write]
  plain instruction := library.plain_ofRecord fun _ => by
    simp (disch := omega) [library.faithful_string.plain, library.faithful_uint64.plain,
      (library.faithful_uint64.list library).plain]

lemma Operand.faithful : Faithful 2 (Operand.toJson library) (Operand.ofJson? library) where
  read_write operand := by
    cases operand with
    | register name =>
      rw [toJson, ofJson?, ofVariant_eq, variant?_object]
      simp [library.faithful_string.read_write]
    | immediate value =>
      rw [toJson, ofJson?, ofVariant_eq, variant?_object]
      simp [library.faithful_int64.read_write]
    | indirect segment base index scale displacement size =>
      rw [toJson, ofJson?, ofVariant_eq, variant?_object]
      simp [indirectOfJson?, library.faithful_string.read_write,
        library.faithful_int64.read_write, library.faithful_uint64.read_write]
  plain operand _ h := by
    cases operand with
    | register name =>
      exact library.plain_ofVariant _ (library.faithful_string.plain name) (by omega)
    | immediate value =>
      exact library.plain_ofVariant _ (library.faithful_int64.plain value) (by omega)
    | indirect segment base index scale displacement size =>
      refine library.plain_ofVariant _ (library.plain_ofRecord fun _ => ?_) h
      simp [library.faithful_string.plain, library.faithful_int64.plain,
        library.faithful_uint64.plain]

lemma TargetDescriptor.faithful :
    Faithful 1 (TargetDescriptor.toJson library) (TargetDescriptor.ofJson? library) where
  read_write descriptor := by
    simp [toJson, ofJson?, (FileFormat.faithful library).read_write,
      (Isa.faithful library).read_write, (ByteOrder.faithful library).read_write,
      library.faithful_uint8.read_write]
  plain descriptor := library.plain_ofRecord fun _ => by
    simp [(FileFormat.faithful library).plain, (Isa.faithful library).plain,
      (ByteOrder.faithful library).plain, library.faithful_uint8.plain]

lemma PipelineConfig.faithful :
    Faithful 2 (PipelineConfig.toJson library) (PipelineConfig.ofJson? library) where
  read_write config := by
    simp [toJson, ofJson?, library.faithful_string.read_write,
      (library.faithful_string.list library).read_write]
  plain config := library.plain_ofRecord fun _ => by
    simp (disch := omega) [library.faithful_string.plain,
      (library.faithful_string.list library).plain]

/-- Binaries, instructions, operands, descriptors and configurations are read back from their
documents. A binary keeps its code blocks and functions under the decimal spellings of their
addresses, and no two addresses are spelled alike. -/
theorem documents_read_back :
    library.RoundTrip (Binary.toJson library) (Binary.ofJson? library) ∧
    (∀ binary : Binary, ∃ fields blocks functions,
      binary.toJson library = .object fields ∧
      fields.lookup "code_blocks" = some (.object blocks) ∧
      fields.lookup "functions" = some (.object functions) ∧
      KeyedByDecimals binary.codeBlocks (CodeBlock.toJson library) blocks ∧
      KeyedByDecimals binary.functions (Function.toJson library) functions) ∧
    (∀ a b : UInt64, Text.decimal a.toNat = Text.decimal b.toNat ↔ a = b) ∧
    library.RoundTrip (Instruction.toJson library) (Instruction.ofJson? library) ∧
    library.RoundTrip (Operand.toJson library) (Operand.ofJson? library) ∧
    library.RoundTrip (TargetDescriptor.toJson library) (TargetDescriptor.ofJson? library) ∧
    library.RoundTrip (PipelineConfig.toJson library) (PipelineConfig.ofJson? library) := by
  refine ⟨(Binary.faithful library).roundTrip library (by decide), fun binary => ?_,
    fun a b => decimal_injective.eq_iff,
    (Instruction.faithful library).roundTrip library (by decide),
    (Operand.faithful library).roundTrip library (by decide),
    (TargetDescriptor.faithful library).roundTrip library (by decide),
    (PipelineConfig.faithful library).roundTrip library (by decide)⟩
  obtain ⟨blocks, hblocks, hkeyed⟩ :=
    exists_keyedByDecimals library (CodeBlock.toJson library) binary.codeBlocks
  obtain ⟨functions, hfunctions, hkeyed'⟩ :=
    exists_keyedByDecimals library (Function.toJson library) binary.functions
  refine ⟨_, blocks, functions, ofRecord_eq _, ?_, ?_, hkeyed, hkeyed'⟩
  · rw [← hblocks]
    rfl
  · rw [← hfunctions]
    rfl

/-- A binary with a code block at the top of the address space. -/
def topBinary : Binary :=
  { Binary.raw [0x90, 0xc3] .x64 .little 0xfffffffffffffffe with
    entryPoint := none
    types := some ["DLL"]
    codeBlocks := .ofList [(0, ⟨0, 1⟩), (0xffffffffffffffff, ⟨0xffffffffffffffff, 1⟩)]
    functions := .ofList [(0xffffffffffffffff, ⟨0xffffffffffffffff, [0xffffffffffffffff]⟩)] }

theorem documents_read_back_top :
    JsonLibrary.standard.Lawful ∧
    (JsonLibrary.standard.parse? (JsonLibrary.standard.print (topBinary.toJson .standard))).bind
      (Binary.ofJson? .standard) = some topBinary ∧
    (∃ fields blocks, topBinary.toJson .standard = .object fields ∧
      fields.lookup "code_blocks" = some (.object blocks) ∧
      blocks.map Prod.fst = ["0", "18446744073709551615"]) ∧
    Operand.ofJson? .standard ((Operand.immediate Int64.minValue).toJson .standard) =
      some (.immediate Int64.minValue) := by
  obtain ⟨hbinary, hkeyed, -, -, hoperand, -, -⟩ := documents_read_back .standard
  obtain ⟨fields, blocks, -, hfields, hblocks, -, hnames, -⟩ := hkeyed topBinary
  refine ⟨inferInstance, (hbinary topBinary).2, ⟨fields, blocks, hfields, hblocks, ?_⟩,
    (hoperand _).1⟩
  rw [hnames.names]
  decide

end BinaryFacts
