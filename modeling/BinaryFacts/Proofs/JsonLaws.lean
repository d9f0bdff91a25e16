import BinaryFacts.Json.Library
import BinaryFacts.Proofs.AddressNumerals
import BinaryFacts.Proofs.JsonText

/-!
# Laws of the JSON library

What is relied on when documents are read back: which document a value is written as, and what a
reader makes of the documents it is meant for. `JsonLibrary.standard` behaves so.
-/

namespace BinaryFacts

/-! ### Reading with the standard library -/

namespace Json

lemma uint8?_toNat (value : UInt8) : uint8? (integer value.toNat) = some value := by
  have hlt := value.toNat_lt
  rw [uint8?, integer?, if_pos ⟨Int.natCast_nonneg _, by
    change (value.toNat : Int) ≤ 256 - 1
    omega⟩]
  simp

lemma uint64?_toNat (value : UInt64) : uint64? (integer value.toNat) = some value := by
  have hlt := value.toNat_lt
  rw [uint64?, integer?, if_pos ⟨Int.natCast_nonneg _, by
    change (value.toNat : Int) ≤ 18446744073709551616 - 1
    omega⟩]
  simp

lemma int64?_toInt (value : Int64) : int64? (integer value.toInt) = some value := by
  rw [int64?, integer?, if_pos ⟨value.minValue_le_toInt, value.toInt_le⟩, Option.map_some,
    Int64.ofInt_toInt]

lemma int64?_of_lt {number : Int} (h : Int64.maxValue.toInt < number) :
    int64? (integer number) = none := by
  rw [int64?, integer?, if_neg fun hrange => Int.not_lt.mpr hrange.2 h, Option.map_none]

/-- The decimal spelling of a word is the key of that word. -/
lemma wordKey?_decimal (word : UInt64) : wordKey? (Text.decimal word.toNat) = some word := by
  have hspells : Text.SpellsWord 10 (Nat.toDigits 10 word.toNat) word :=
    ⟨[], _, rfl, .inl rfl, Text.spells_toDigits (by decide) (by decide) word.toNat⟩
  rw [wordKey?, Text.toList_decimal]
  split
  · next hzero =>
    rw [hzero, ← Text.word?_eq_some_iff (by decide)] at hspells
    exact hspells
  · next rest hlead hzero =>
    -- a number that starts with the digit zero is zero itself
    obtain hword | hword := Nat.eq_zero_or_pos word.toNat
    · rw [hword] at hzero
      exact absurd (List.cons.inj hzero).2.symm hlead
    · exact absurd (by rw [hzero]; rfl) (Text.head?_toDigits_ne hword)
  · next rest hplus =>
    obtain ⟨digit, hdigit⟩ := (Text.spells_toDigits (by decide) (by decide) word.toNat).mem '+'
      (hplus ▸ List.mem_cons_self)
    exact absurd List.mem_cons_self (hdigit.plain (by decide)).2
  · exact (Text.word?_eq_some_iff (by decide)).mpr hspells

/-- The fields of a record that has each of its fields once. -/
lemma object?_object {names : List String} {fields : List (String × Json)}
    (hnames : fields.map Prod.fst = names) (hnodup : names.Nodup) :
    (object fields).object? names = some fields := by
  have hknown : fields.filter (fun field => names.contains field.1) = fields := by
    apply List.filter_eq_self.mpr
    intro field hfield
    rw [List.contains_iff_mem, ← hnames]
    exact List.mem_map_of_mem hfield
  rw [object?, known, hknown, hnames]
  exact if_pos hnodup

end Json

namespace JsonLibrary

/-! ### The laws -/

/-- The documents that a library makes of values, and the values that it finds in them. -/
class Lawful (library : JsonLibrary) : Prop where
  /-- A document is read back from its text if it is not more than 127 levels deep. -/
  parse?_print {document : Json} (h : document.Plain 127) :
    library.parse? (library.print document) = some document
  ofBool_eq (value : Bool) : library.ofBool value = .bool value
  ofString_eq (value : String) : library.ofString value = .string value
  /-- A word is written as the integer that it stands for, whatever its width. -/
  ofUInt8_eq (value : UInt8) : library.ofUInt8 value = .integer value.toNat
  ofUInt64_eq (value : UInt64) : library.ofUInt64 value = .integer value.toNat
  ofInt64_eq (value : Int64) : library.ofInt64 value = .integer value.toInt
  ofOption_none {α : Type} (write : α → Json) : library.ofOption write none = .null
  /-- A value that may be missing is written like any other if it is there. -/
  ofOption_some {α : Type} (write : α → Json) (value : α) :
    library.ofOption write (some value) = write value
  ofList_eq {α : Type} (write : α → Json) (items : List α) :
    library.ofList write items = .list (items.map write)
  /-- Names are texts, so a word that is one is written in decimal. -/
  ofWordKey_eq (word : UInt64) : library.ofWordKey word = Text.decimal word.toNat
  ofMap_eq {κ α : Type} (key : κ → String) (write : α → Json) (entries : List (κ × α)) :
    library.ofMap key write entries =
      .object (entries.map fun entry => (key entry.1, write entry.2))
  ofRecord_eq (fields : List (String × Json)) : library.ofRecord fields = .object fields
  ofName_eq (name : String) : library.ofName name = .string name
  /-- A variant is an object with its name as the only key. -/
  ofVariant_eq (name : String) (content : Json) :
    library.ofVariant name content = .object [(name, content)]
  bool?_bool (value : Bool) : library.bool? (.bool value) = some value
  string?_string (value : String) : library.string? (.string value) = some value
  /-- Neither a number nor a list is taken for a text, nor a list for a number. -/
  string?_integer (number : Int) : library.string? (.integer number) = none
  string?_list (items : List Json) : library.string? (.list items) = none
  uint64?_list (items : List Json) : library.uint64? (.list items) = none
  int64?_list (items : List Json) : library.int64? (.list items) = none
  uint8?_integer (value : UInt8) : library.uint8? (.integer value.toNat) = some value
  uint64?_integer (value : UInt64) : library.uint64? (.integer value.toNat) = some value
  int64?_integer (value : Int64) : library.int64? (.integer value.toInt) = some value
  /-- An integer that does not fit is refused. -/
  int64?_of_lt {number : Int} (h : Int64.maxValue.toInt < number) :
    library.int64? (.integer number) = none
  option?_null {α : Type} (read : Json → Option α) : library.option? read .null = some none
  option?_of_ne {α : Type} (read : Json → Option α) {document : Json} (h : document ≠ .null) :
    library.option? read document = (read document).map some
  listOf?_list {α : Type} (read : Json → Option α) (items : List Json) :
    library.listOf? read (.list items) = items.mapM read
  wordKey?_decimal (word : UInt64) : library.wordKey? (Text.decimal word.toNat) = some word
  mapOf?_object {κ α : Type} (key : String → Option κ) (read : Json → Option α)
    (fields : List (String × Json)) :
    library.mapOf? key read (.object fields) =
      fields.mapM fun field => do return (← key field.1, ← read field.2)
  /-- An object with exactly the fields of a record, each of them once, is that record. -/
  record?_object {names : List String} {fields : List (String × Json)}
    (hnames : fields.map Prod.fst = names) (hnodup : names.Nodup) :
    library.record? names (.object fields) = some fields
  content?_object {names : List String} {fields : List (String × Json)}
    (hnames : fields.map Prod.fst = names) (hnodup : names.Nodup) :
    library.content? names (.object fields) = some fields
  required?_eq {α : Type} (fields : List (String × Json)) (name : String)
    (read : Json → Option α) : library.required? fields name read = (fields.lookup name).bind read
  /-- A field that may be missing is read as a value that may be null. -/
  optional?_eq {α : Type} (fields : List (String × Json)) (name : String)
    (read : Json → Option α) :
    library.optional? fields name read =
      ((fields.lookup name).map (library.option? read)).getD (some none)
  name?_string {α : Type} (variant : String → Option α) (name : String) :
    library.name? variant (.string name) = variant name
  variant?_object {α : Type} (read : String → Json → Option α) (name : String) (content : Json) :
    library.variant? read (.object [(name, content)]) = read name content
  /-- The readers are tried in their order. -/
  firstOf?_eq {α : Type} (readers : List (Json → Option α)) (document : Json) :
    library.firstOf? readers document = readers.findSome? (· document)

instance : standard.Lawful where
  parse?_print h := Json.parse?_compact h
  ofBool_eq _ := rfl
  ofString_eq _ := rfl
  ofUInt8_eq _ := rfl
  ofUInt64_eq _ := rfl
  ofInt64_eq _ := rfl
  ofOption_none _ := rfl
  ofOption_some _ _ := rfl
  ofList_eq _ _ := rfl
  ofWordKey_eq _ := rfl
  ofMap_eq _ _ _ := rfl
  ofRecord_eq _ := rfl
  ofName_eq _ := rfl
  ofVariant_eq _ _ := rfl
  bool?_bool _ := rfl
  string?_string _ := rfl
  string?_integer _ := rfl
  string?_list _ := rfl
  uint64?_list _ := rfl
  int64?_list _ := rfl
  uint8?_integer := Json.uint8?_toNat
  uint64?_integer := Json.uint64?_toNat
  int64?_integer := Json.int64?_toInt
  int64?_of_lt := Json.int64?_of_lt
  option?_null _ := rfl
  option?_of_ne _ document h := by
    cases document with
    | null => contradiction
    | _ => rfl
  listOf?_list _ _ := rfl
  wordKey?_decimal := Json.wordKey?_decimal
  mapOf?_object _ _ _ := rfl
  record?_object := Json.object?_object
  content?_object := Json.object?_object
  required?_eq _ _ _ := rfl
  optional?_eq fields name read := by
    change Json.optional? fields name read = _
    rw [Json.optional?]
    cases fields.lookup name <;> rfl
  name?_string _ _ := rfl
  variant?_object _ _ _ := rfl
  firstOf?_eq _ _ := rfl

/-! ### Reading back what was written -/

open Lawful

variable (library : JsonLibrary) [library.Lawful] {α β κ : Type} {write : α → Json}
  {levels : Nat}

/-- Whether every value is read back from the document that is written for it, and this is plain and
at most `levels` levels deep. -/
structure Faithful (levels : Nat) (write : α → Json) (read : Json → Option α) : Prop where
  read_write : ∀ value, read (write value) = some value
  plain : ∀ value {depth}, levels ≤ depth → (write value).Plain depth

lemma faithful_bool : Faithful 0 library.ofBool library.bool? where
  read_write value := by rw [ofBool_eq, bool?_bool]
  plain value _ _ := by
    rw [ofBool_eq]
    exact .bool value

lemma faithful_string : Faithful 0 library.ofString library.string? where
  read_write value := by rw [ofString_eq, string?_string]
  plain value _ _ := by
    rw [ofString_eq]
    exact .string value

lemma faithful_uint8 : Faithful 0 library.ofUInt8 library.uint8? where
  read_write value := by rw [ofUInt8_eq, uint8?_integer]
  plain value _ _ := by
    have hlt := value.toNat_lt
    rw [ofUInt8_eq]
    refine .integer ⟨Int.le_trans (by decide) (Int.natCast_nonneg _), ?_⟩
    change (value.toNat : Int) < 18446744073709551616
    omega

lemma faithful_uint64 : Faithful 0 library.ofUInt64 library.uint64? where
  read_write value := by rw [ofUInt64_eq, uint64?_integer]
  plain value _ _ := by
    rw [ofUInt64_eq]
    exact .integer
      ⟨Int.le_trans (by decide) (Int.natCast_nonneg _), Int.ofNat_lt.mpr value.toNat_lt⟩

lemma faithful_int64 : Faithful 0 library.ofInt64 library.int64? where
  read_write value := by rw [ofInt64_eq, int64?_integer]
  plain value _ _ := by
    rw [ofInt64_eq]
    exact .integer ⟨value.minValue_le_toInt, Int.lt_trans value.toInt_lt (by decide)⟩

/-! ### Lists and maps -/

lemma mapM_map_eq_some {γ : Type} {write : α → β} {read : β → Option γ} {back : α → γ}
    (h : ∀ x, read (write x) = some (back x)) (items : List α) :
    (items.map write).mapM read = some (items.map back) := by
  rw [List.mapM_map]
  exact (congrArg (items.mapM ·) (funext h)).trans List.mapM_pure

lemma listOf?_ofList {read : Json → Option β} {back : α → β}
    (h : ∀ x, read (write x) = some (back x)) (items : List α) :
    library.listOf? read (library.ofList write items) = some (items.map back) := by
  rw [ofList_eq, listOf?_list, mapM_map_eq_some h]

lemma mapOf?_ofMap {spell : κ → String} {key : String → Option κ} {read : Json → Option β}
    {back : α → β} (hkey : ∀ k, key (spell k) = some k)
    (h : ∀ x, read (write x) = some (back x)) (entries : List (κ × α)) :
    library.mapOf? key read (library.ofMap spell write entries) =
      some (entries.map fun entry => (entry.1, back entry.2)) := by
  have hentry : ∀ entry : κ × α,
      (do return (← key (spell entry.1), ← read (write entry.2))) =
        some (entry.1, back entry.2) := by
    intro entry
    rw [hkey, h]
    rfl
  rw [ofMap_eq, mapOf?_object]
  exact mapM_map_eq_some hentry entries

lemma plain_ofList (h : ∀ value {depth}, levels ≤ depth → (write value).Plain depth)
    (items : List α) {depth : Nat} (hdepth : levels + 1 ≤ depth) :
    (library.ofList write items).Plain depth := by
  obtain ⟨depth, rfl⟩ := Nat.exists_eq_add_of_le' hdepth
  rw [ofList_eq]
  exact .list (List.forall_mem_map.mpr fun value _ => h value (Nat.le_add_left levels depth))

lemma plain_ofMap (key : κ → String)
    (h : ∀ value {depth}, levels ≤ depth → (write value).Plain depth)
    (entries : List (κ × α)) {depth : Nat} (hdepth : levels + 1 ≤ depth) :
    (library.ofMap key write entries).Plain depth := by
  obtain ⟨depth, rfl⟩ := Nat.exists_eq_add_of_le' hdepth
  rw [ofMap_eq]
  exact .object (List.forall_mem_map.mpr fun entry _ => h entry.2 (Nat.le_add_left levels depth))

lemma plain_ofRecord {fields : List (String × Json)}
    (h : ∀ {depth}, levels ≤ depth → ∀ field ∈ fields, field.2.Plain depth)
    {depth : Nat} (hdepth : levels + 1 ≤ depth) : (library.ofRecord fields).Plain depth := by
  obtain ⟨depth, rfl⟩ := Nat.exists_eq_add_of_le' hdepth
  rw [ofRecord_eq]
  exact .object (h (Nat.le_add_left levels depth))

lemma plain_ofVariant (name : String) {content : Json}
    (h : ∀ {depth}, levels ≤ depth → content.Plain depth) {depth : Nat}
    (hdepth : levels + 1 ≤ depth) : (library.ofVariant name content).Plain depth := by
  obtain ⟨depth, rfl⟩ := Nat.exists_eq_add_of_le' hdepth
  rw [ofVariant_eq]
  exact .object (List.forall_mem_singleton.mpr (h (Nat.le_add_left levels depth)))

/-! ### Records -/

@[simp]
lemma record?_ofRecord {names : List String} {fields : List (String × Json)}
    (hnames : fields.map Prod.fst = names) (hnodup : names.Nodup) :
    library.record? names (library.ofRecord fields) = some fields := by
  rw [ofRecord_eq, record?_object hnames hnodup]

@[simp]
lemma content?_ofRecord {names : List String} {fields : List (String × Json)}
    (hnames : fields.map Prod.fst = names) (hnodup : names.Nodup) :
    library.content? names (library.ofRecord fields) = some fields := by
  rw [ofRecord_eq, content?_object hnames hnodup]

@[simp]
lemma required?_cons (name : String) (document : Json) (rest : List (String × Json))
    (wanted : String) (read : Json → Option α) :
    library.required? ((name, document) :: rest) wanted read =
      if wanted = name then read document else library.required? rest wanted read := by
  by_cases h : wanted = name
  · rw [required?_eq, h, List.lookup_cons_self, if_pos rfl, Option.bind_some]
  · rw [required?_eq, List.lookup_cons, beq_false_of_ne h, if_neg h, required?_eq]

@[simp]
lemma optional?_cons (name : String) (document : Json) (rest : List (String × Json))
    (wanted : String) (read : Json → Option α) :
    library.optional? ((name, document) :: rest) wanted read =
      if wanted = name then library.option? read document
      else library.optional? rest wanted read := by
  by_cases h : wanted = name
  · rw [optional?_eq, h, List.lookup_cons_self, if_pos rfl]
    rfl
  · rw [optional?_eq, List.lookup_cons, beq_false_of_ne h, if_neg h, optional?_eq]

end JsonLibrary

end BinaryFacts
