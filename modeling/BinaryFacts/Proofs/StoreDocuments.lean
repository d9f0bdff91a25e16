import BinaryFacts.Fact.Json
import BinaryFacts.Proofs.FailingRuns
import BinaryFacts.Proofs.JsonLaws
import Mathlib.Algebra.Group.Nat.Defs

/-!
# Stores as documents

A store that is written as a document and read back keeps its relations, its rows and the meaning of
every cell. Only the kind of a number may change: the document does not tell a signed word from an
unsigned one, and a number that fits a signed word is read as one.
-/

namespace BinaryFacts

open JsonLibrary JsonLibrary.Lawful

variable (library : JsonLibrary)

/-! ### Settled kinds -/

/-- The value with the kind that its document is read as. -/
def Value.settle : Value → Value
  | unsigned value =>
    if value.toNat ≤ 2 ^ 63 - 1 then number value.toInt64 else unsigned value
  | value => value

def Row.settle (row : Row) : Row := row.map Value.settle

namespace OrderedMap

variable {κ ν μ : Type} [OrderedKey κ]

/-- The map with `f` applied to every value. -/
def mapValues (f : ν → μ) (m : OrderedMap κ ν) : OrderedMap κ μ where
  entries := m.entries.map fun (key, value) => (key, f value)
  ascending := List.pairwise_map.mpr m.ascending

lemma keys_mapValues (f : ν → μ) (m : OrderedMap κ ν) : (m.mapValues f).keys = m.keys := by
  rw [keys, mapValues, List.map_map]
  rfl

lemma get?_mapValues [DecidableEq κ] (f : ν → μ) (m : OrderedMap κ ν) (key : κ) :
    (m.mapValues f).get? key = (m.get? key).map f := by
  rw [get?, get?, mapValues, List.find?_map, Option.map_map, Option.map_map]
  rfl

lemma mapValues_mapValues {ρ : Type} (f : ν → μ) (g : μ → ρ) (m : OrderedMap κ ν) :
    (m.mapValues f).mapValues g = m.mapValues fun value => g (f value) :=
  OrderedMap.ext List.map_map

lemma insertEntry_last {key : κ} {entries : List (κ × ν)}
    (h : ∀ entry ∈ entries, OrderedKey.precedes entry.1 key = true) (value : ν) :
    insertEntry key value entries = entries ++ [(key, value)] := by
  induction entries with
  | nil => rfl
  | cons entry entries ih =>
    have hentry := h entry List.mem_cons_self
    rw [insertEntry, if_neg (by simp [OrderedKey.asymm hentry]), if_pos hentry,
      ih fun other hother => h other (List.mem_cons_of_mem _ hother)]
    rfl

/-- Entries in ascending order are inserted one behind the other. -/
lemma entries_foldl_insert (m : OrderedMap κ ν) {entries : List (κ × ν)}
    (h : (m.entries ++ entries).Pairwise fun a b => OrderedKey.precedes a.1 b.1 = true) :
    (entries.foldl (fun m entry => m.insert entry.1 entry.2) m).entries =
      m.entries ++ entries := by
  induction entries generalizing m with
  | nil => exact (List.append_nil _).symm
  | cons entry entries ih =>
    have hbefore : ∀ other ∈ m.entries, OrderedKey.precedes other.1 entry.1 = true :=
      fun other hother => (List.pairwise_append.mp h).2.2 other hother entry List.mem_cons_self
    have hstep : (m.insert entry.1 entry.2).entries = m.entries ++ [entry] :=
      insertEntry_last hbefore entry.2
    rw [List.foldl_cons, ih _ (by rwa [hstep, List.append_assoc]), hstep, List.append_assoc]
    rfl

lemma ofList_entries (m : OrderedMap κ ν) : ofList m.entries = m :=
  OrderedMap.ext (entries_foldl_insert empty m.ascending)

end OrderedMap

/-- The store with every value settled. -/
def FactStore.settle (store : FactStore) : FactStore where
  program := store.program
  relations := store.relations.mapValues (List.map Row.settle)

/-! ### What settling keeps -/

namespace Value

/-- A word below `2 ^ 63` is the same number when it is taken for a signed one. -/
lemma toInt_toInt64 {value : UInt64} (h : value.toNat ≤ 2 ^ 63 - 1) :
    value.toInt64.toInt = value.toNat :=
  BitVec.toInt_eq_toNat_of_lt (x := value.toBitVec) (by
    change 2 * value.toNat < _
    omega)

lemma settle_unsigned_of_le {value : UInt64} (h : value.toNat ≤ 2 ^ 63 - 1) :
    (unsigned value).settle = number value.toInt64 :=
  if_pos h

/-- Values of every other kind, and larger words, stay. -/
lemma settle_of_large {value : Value}
    (h : ∀ word, value = unsigned word → 2 ^ 63 ≤ word.toNat) : value.settle = value := by
  cases value with
  | unsigned word =>
    have hlarge := h word rfl
    exact if_neg (by omega)
  | _ => rfl

/-- All that settling does: nothing, or the change of a small word's kind. -/
lemma settle_cases (value : Value) :
    value.settle = value ∨
      ∃ word, value = unsigned word ∧ word.toNat ≤ 2 ^ 63 - 1 ∧
        value.settle = number word.toInt64 := by
  cases value with
  | unsigned word =>
    by_cases hle : word.toNat ≤ 2 ^ 63 - 1
    · exact .inr ⟨word, rfl, hle, settle_unsigned_of_le hle⟩
    · exact .inl (if_neg hle)
  | _ => exact .inl rfl

lemma settle_settle (value : Value) : value.settle.settle = value.settle := by
  obtain hsame | ⟨word, -, -, hnumber⟩ := value.settle_cases
  · rw [hsame, hsame]
  · rw [hnumber]
    rfl

lemma toJson_settle [library.Lawful] (value : Value) :
    value.settle.toJson library = value.toJson library := by
  obtain hsame | ⟨word, rfl, hle, hnumber⟩ := value.settle_cases
  · rw [hsame]
  · rw [hnumber, toJson, toJson, ofInt64_eq, ofUInt64_eq, toInt_toInt64 hle]

lemma unsigned?_settle (value : Value) : value.settle.unsigned? = value.unsigned? := by
  obtain hsame | ⟨word, rfl, hle, hnumber⟩ := value.settle_cases
  · rw [hsame]
  · rw [hnumber, unsigned?, unsigned?, toInt_toInt64 hle, if_pos (Int.natCast_nonneg _),
      Int.toNat_natCast, UInt64.ofNat_toNat]

lemma number?_settle (value : Value) : value.settle.number? = value.number? := by
  obtain hsame | ⟨word, rfl, hle, hnumber⟩ := value.settle_cases
  · rw [hsame]
  · have hnonneg : 0 ≤ word.toInt64 := by
      rw [Int64.le_iff_toInt_le, toInt_toInt64 hle]
      exact Int.natCast_nonneg _
    rw [hnumber, number?, number?, if_pos hnonneg]

lemma symbol?_settle (value : Value) : value.settle.symbol? = value.symbol? := by
  obtain hsame | ⟨word, rfl, -, hnumber⟩ := value.settle_cases
  · rw [hsame]
  · rw [hnumber]
    rfl

/-- A reader that does not see the change of one value does not see it in a cell. -/
lemma bind_settle {α : Type} {read : Value → Option α}
    (h : ∀ value : Value, read value.settle = read value) (cell : Option Value) :
    (cell.map settle).bind read = cell.bind read := by
  rw [Option.bind_map]
  exact congrArg cell.bind (funext h)

end Value

lemma Row.getElem?_settle (row : Row) (column : Nat) :
    row.settle[column]? = row[column]?.map Value.settle :=
  List.getElem?_map

lemma Row.settle_settle (row : Row) : row.settle.settle = row.settle := by
  rw [settle, settle, List.map_map]
  exact List.map_congr_left fun value _ => value.settle_settle

lemma Row.toJson_settle [library.Lawful] (row : Row) :
    row.settle.toJson library = row.toJson library := by
  rw [toJson, toJson, ofList_eq, ofList_eq, settle, List.map_map]
  exact congrArg Json.list (List.map_congr_left fun value _ => value.toJson_settle library)

namespace FactStore

lemma settle_settle (store : FactStore) : store.settle.settle = store.settle := by
  have hrows : (fun rows => List.map Row.settle (List.map Row.settle rows)) =
      List.map Row.settle := by
    funext rows
    rw [List.map_map]
    exact List.map_congr_left fun row _ => row.settle_settle
  rw [settle, settle, OrderedMap.mapValues_mapValues, hrows]

lemma relation?_settle (store : FactStore) (relation : String) :
    store.settle.relation? relation = (store.relation? relation).map (List.map Row.settle) :=
  store.relations.get?_mapValues _ relation

lemma rows_settle (store : FactStore) (relation : String) :
    store.settle.rows relation = (store.rows relation).map Row.settle := by
  rw [rows, rows, relation?_settle]
  cases store.relation? relation <;> rfl

lemma toJson_settle [library.Lawful] (store : FactStore) :
    store.settle.toJson library = store.toJson library := by
  have hrows : ∀ rows : List Row,
      library.ofList (Row.toJson library) (rows.map Row.settle) =
        library.ofList (Row.toJson library) rows := by
    intro rows
    rw [ofList_eq, ofList_eq, List.map_map]
    exact congrArg Json.list (List.map_congr_left fun row _ => row.toJson_settle library)
  have hrelations : relationsToJson library store.settle.relations =
      relationsToJson library store.relations := by
    rw [relationsToJson, relationsToJson, ofMap_eq, ofMap_eq, settle, OrderedMap.mapValues,
      List.map_map]
    refine congrArg Json.object (List.map_congr_left fun entry _ => ?_)
    exact congrArg (Prod.mk entry.1) (hrows entry.2)
  rw [toJson, toJson, hrelations]
  rfl

end FactStore

/-! ### Reading documents back -/

lemma Value.ofJson?_toJson [library.Lawful] (value : Value) :
    ofJson? library (value.toJson library) = some value.settle := by
  rw [ofJson?, firstOf?_eq]
  cases value with
  | symbol name =>
    rw [toJson, ofString_eq]
    simp only [List.findSome?_cons, string?_string]
    rfl
  | number value =>
    rw [toJson, ofInt64_eq]
    simp only [List.findSome?_cons, string?_integer, int64?_integer]
    rfl
  | unsigned value =>
    by_cases hle : value.toNat ≤ 2 ^ 63 - 1
    · rw [← toJson_settle, settle_unsigned_of_le hle, toJson, ofInt64_eq]
      simp only [List.findSome?_cons, string?_integer, int64?_integer]
      rfl
    · -- the first kind that fits is the third one tried
      have hlarge : Int64.maxValue.toInt < (value.toNat : Int) := by
        change 9223372036854775807 < (value.toNat : Int)
        omega
      rw [toJson, ofUInt64_eq, settle, if_neg hle]
      simp only [List.findSome?_cons, string?_integer, int64?_of_lt hlarge, uint64?_integer]
      rfl
  | list items =>
    have hitems := library.listOf?_ofList library.faithful_uint64.read_write items
    rw [List.map_id', ofList_eq] at hitems
    rw [toJson, ofList_eq]
    simp only [List.findSome?_cons, string?_list, int64?_list, uint64?_list, hitems]
    rfl

lemma Row.ofJson?_toJson [library.Lawful] (row : Row) :
    ofJson? library (row.toJson library) = some row.settle :=
  library.listOf?_ofList (Value.ofJson?_toJson library) row

/-- A store is read back from its document with every value settled. -/
lemma FactStore.ofJson?_toJson [library.Lawful] (store : FactStore) :
    ofJson? library (store.toJson library) = some store.settle := by
  have hrelations : library.mapOf? some (library.listOf? (Row.ofJson? library))
      (relationsToJson library store.relations) = some store.settle.relations.entries :=
    library.mapOf?_ofMap (fun _ => rfl)
      (library.listOf?_ofList (Row.ofJson?_toJson library)) store.relations.entries
  simp [toJson, ofJson?, library.faithful_string.read_write, hrelations,
    OrderedMap.ofList_entries, settle]

lemma Value.plain_toJson [library.Lawful] (value : Value) {depth : Nat} (h : 1 ≤ depth) :
    (value.toJson library).Plain depth := by
  cases value with
  | symbol name => exact library.faithful_string.plain name (Nat.zero_le _)
  | number value => exact library.faithful_int64.plain value (Nat.zero_le _)
  | unsigned value => exact library.faithful_uint64.plain value (Nat.zero_le _)
  | list items => exact library.plain_ofList library.faithful_uint64.plain items h

/-- Values lie in rows, which lie in relations, and these in the store. -/
lemma FactStore.plain_toJson [library.Lawful] (store : FactStore) {depth : Nat} (h : 5 ≤ depth) :
    (store.toJson library).Plain depth := by
  refine library.plain_ofRecord (fun {depth} hdepth => ?_) h
  have hrelations : (relationsToJson library store.relations).Plain depth :=
    library.plain_ofMap id
      (library.plain_ofList (library.plain_ofList (Value.plain_toJson library)))
      store.relations.entries hdepth
  exact List.forall_mem_cons.mpr ⟨library.faithful_string.plain store.program (Nat.zero_le _),
    List.forall_mem_singleton.mpr hrelations⟩

/-! ### Transforms -/

/-- The result with a store for its facts. -/
def PassResult.withFacts (result : PassResult) (store : FactStore) : PassResult :=
  { result with facts := some store }

lemma PassResult.rows_withFacts (result : PassResult) (store : FactStore) (relation : String) :
    (result.withFacts store).rows relation = store.rows relation := rfl

namespace AnalysisPass

lemma expectArity_settle (relation : String) (row : Row) (arity : Nat) :
    expectArity relation row.settle arity = expectArity relation row arity := by
  rw [expectArity, expectArity, Row.settle, List.length_map]

lemma addressAt_settle (relation : String) (row : Row) (column : Nat) :
    addressAt relation row.settle column = addressAt relation row column := by
  rw [addressAt, addressAt, row.getElem?_settle, Value.bind_settle Value.unsigned?_settle]

lemma symbolAt_settle (relation : String) (row : Row) (column : Nat) :
    symbolAt relation row.settle column = symbolAt relation row column := by
  rw [symbolAt, symbolAt, row.getElem?_settle, Value.bind_settle Value.symbol?_settle]

lemma readAddress_settle (relation : String) (row : Row) :
    readAddress relation row.settle = readAddress relation row := by
  rw [readAddress, readAddress, expectArity_settle, addressAt_settle]

lemma readPair_settle (relation : String) (row : Row) :
    readPair relation row.settle = readPair relation row := by
  simp only [readPair, expectArity_settle, addressAt_settle]

lemma readSymbol_settle (relation : String) (row : Row) :
    readSymbol relation row.settle = readSymbol relation row := by
  simp only [readSymbol, expectArity_settle, addressAt_settle, symbolAt_settle]

lemma readEdge_settle (relation : String) (row : Row) :
    readEdge relation row.settle = readEdge relation row := by
  simp only [readEdge, expectArity_settle, addressAt_settle, symbolAt_settle]

lemma mapM_settle {α : Type} {read : Row → Except PassError α}
    (h : ∀ row : Row, read row.settle = read row) (rows : List Row) :
    (rows.map Row.settle).mapM read = rows.mapM read := by
  rw [List.mapM_map]
  exact congrArg (rows.mapM ·) (funext h)

lemma cutRows_settle (rows : List Row) : cutRows (rows.map Row.settle) = cutRows rows := by
  induction rows with
  | nil => rfl
  | cons row rows ih => rw [List.map_cons, cutRows, cutRows, readAddress_settle, ih]

variable (result : PassResult) (store : FactStore)

lemma disassembled_settle :
    Disassembled.ofResult (result.withFacts store.settle) =
      Disassembled.ofResult (result.withFacts store) := by
  simp only [Disassembled.ofResult, PassResult.rows_withFacts, FactStore.rows_settle,
    mapM_settle (readPair_settle _), mapM_settle (readEdge_settle _),
    mapM_settle (readSymbol_settle _)]

lemma inferredFunctions_settle :
    InferredFunctions.ofResult (result.withFacts store.settle) =
      InferredFunctions.ofResult (result.withFacts store) := by
  simp only [InferredFunctions.ofResult, PassResult.rows_withFacts, FactStore.rows_settle,
    mapM_settle (readPair_settle _), mapM_settle (readAddress_settle _)]

lemma readThenApply_settle {α : Type} {read : PassResult → Except PassError α}
    {apply : α → Binary → Binary}
    (h : read (result.withFacts store.settle) = read (result.withFacts store))
    (context : AnalysisContext) (binary : Binary) :
    readThenApply read apply context (result.withFacts store.settle) binary =
      ((·.withFacts store.settle) <$>
        readThenApply read apply context (result.withFacts store)) binary := by
  show _ = EStateM.map _ (readThenApply read apply context (result.withFacts store)) binary
  rw [EStateM.map, readThenApply, readThenApply, h]
  cases read (result.withFacts store) <;> rfl

lemma transformNoReturn_settle (context : AnalysisContext) (binary : Binary) :
    transformNoReturn context (result.withFacts store.settle) binary =
      ((·.withFacts store.settle) <$>
        transformNoReturn context (result.withFacts store)) binary := by
  -- this transform reads a row only after the changes of the rows before it
  show EStateM.bind (cutRows _) _ binary = EStateM.map _ (EStateM.bind (cutRows _) _) binary
  rw [PassResult.rows_withFacts, PassResult.rows_withFacts, FactStore.rows_settle, cutRows_settle,
    EStateM.map, EStateM.bind, EStateM.bind]
  cases cutRows (store.rows "no_return_call") binary <;> rfl

/-- A built-in pass changes the binary, or fails, as it would on facts that were never written. -/
lemma runTransform_settle {pass : AnalysisPass} (hpass : pass ∈ builtin)
    (context : AnalysisContext) (binary : Binary) :
    pass.runTransform context (result.withFacts store.settle) binary =
      ((·.withFacts store.settle) <$>
        pass.runTransform context (result.withFacts store)) binary := by
  simp only [builtin, List.mem_cons, List.not_mem_nil, or_false] at hpass
  rcases hpass with rfl | rfl | rfl
  · show transformDisassembly context _ binary = (_ <$> transformDisassembly context _) binary
    rw [transformDisassembly_eq]
    exact readThenApply_settle result store (disassembled_settle result store) context binary
  · exact transformNoReturn_settle result store context binary
  · show transformFunctions context _ binary = (_ <$> transformFunctions context _) binary
    rw [transformFunctions_eq]
    exact readThenApply_settle result store (inferredFunctions_settle result store) context binary

end AnalysisPass

/-! ### Stores -/

/-- The value in a column of a row of a relation. -/
def FactStore.cell? (store : FactStore) (relation : String) (row column : Nat) : Option Value :=
  (store.rows relation)[row]?.bind (·[column]?)

lemma FactStore.cell?_settle (store : FactStore) (relation : String) (row column : Nat) :
    store.settle.cell? relation row column =
      (store.cell? relation row column).map Value.settle := by
  rw [cell?, cell?, rows_settle, List.getElem?_map]
  cases (store.rows relation)[row]? with
  | none => rfl
  | some cells => exact List.getElem?_map

/-- How a store relates to what its document is read back as. -/
structure StoreReadBack (store back : FactStore) : Prop where
  program : back.program = store.program
  names : back.names = store.names
  /-- The rows stay in their order and as long as they were, with their values settled. -/
  relations : ∀ relation, back.relation? relation =
    (store.relation? relation).map (List.map (List.map Value.settle))
  unsigned : ∀ relation row column,
    (back.cell? relation row column).bind Value.unsigned? =
      (store.cell? relation row column).bind Value.unsigned?
  number : ∀ relation row column,
    (back.cell? relation row column).bind Value.number? =
      (store.cell? relation row column).bind Value.number?
  symbol : ∀ relation row column,
    (back.cell? relation row column).bind Value.symbol? =
      (store.cell? relation row column).bind Value.symbol?
  /-- Read back once more, the store is the same. -/
  again : (library.parse? (library.print (back.toJson library))).bind
    (FactStore.ofJson? library) = some back
  document : back.toJson library = store.toJson library
  /-- Transforms end in the same binary, or fail with the same error. -/
  transforms : ∀ pass ∈ AnalysisPass.builtin, ∀ context (result : PassResult) binary,
    pass.runTransform context (result.withFacts back) binary =
      ((·.withFacts back) <$> pass.runTransform context (result.withFacts store)) binary

variable [library.Lawful]

lemma FactStore.parse?_toJson (store : FactStore) :
    (library.parse? (library.print (store.toJson library))).bind (ofJson? library) =
      some store.settle := by
  rw [parse?_print (store.plain_toJson library (by decide)), Option.bind_some,
    store.ofJson?_toJson library]

lemma storeReadBack_settle (store : FactStore) : StoreReadBack library store store.settle where
  program := rfl
  names := store.relations.keys_mapValues _
  relations := store.relation?_settle
  unsigned relation row column := by
    rw [store.cell?_settle, Value.bind_settle Value.unsigned?_settle]
  number relation row column := by
    rw [store.cell?_settle, Value.bind_settle Value.number?_settle]
  symbol relation row column := by
    rw [store.cell?_settle, Value.bind_settle Value.symbol?_settle]
  again := by rw [store.settle.parse?_toJson library, store.settle_settle]
  document := store.toJson_settle library
  transforms _ hpass context result binary :=
    AnalysisPass.runTransform_settle result store hpass context binary

/-- A store is read back from its document with the unsigned words below `2 ^ 63` taken for signed
ones and everything else as it was. No reader of cells and no transform sees the difference. -/
theorem stores_survive_documents :
    (∀ word : UInt64, word.toNat ≤ 2 ^ 63 - 1 →
      (Value.unsigned word).settle = .number word.toInt64 ∧ word.toInt64.toInt = word.toNat) ∧
    (∀ value : Value, (∀ word, value = .unsigned word → 2 ^ 63 ≤ word.toNat) →
      value.settle = value) ∧
    ∀ store : FactStore,
      ∃ back, (library.parse? (library.print (store.toJson library))).bind
          (FactStore.ofJson? library) = some back ∧
        FactStore.ofJson? library (store.toJson library) = some back ∧
        StoreReadBack library store back :=
  ⟨fun _ h => ⟨Value.settle_unsigned_of_le h, Value.toInt_toInt64 h⟩,
    fun _ h => Value.settle_of_large h,
    fun store => ⟨store.settle, store.parse?_toJson library, store.ofJson?_toJson library,
      storeReadBack_settle library store⟩⟩

/-- A store with a value of every kind, on both sides of `2 ^ 63`. -/
def mixedStore : FactStore :=
  (FactStore.new "function_inference").insert "in_function"
    [[.unsigned 4096, .number (-1)],
      [.symbol "4096", .unsigned 9223372036854775807, .unsigned 9223372036854775808, .list []]]

theorem stores_survive_documents_mixedStore :
    JsonLibrary.standard.Lawful ∧
    (9223372036854775807 : UInt64).toNat ≤ 2 ^ 63 - 1 ∧
    (Value.unsigned 9223372036854775807).settle = .number 9223372036854775807 ∧
    (Value.unsigned 9223372036854775808).settle = .unsigned 9223372036854775808 ∧
    ∃ back, (JsonLibrary.standard.parse?
        (JsonLibrary.standard.print (mixedStore.toJson .standard))).bind
          (FactStore.ofJson? .standard) = some back ∧
      back.relation? "in_function" = some
        [[.number 4096, .number (-1)],
          [.symbol "4096", .number 9223372036854775807, .unsigned 9223372036854775808,
            .list []]] ∧
      AnalysisPass.functionInference ∈ AnalysisPass.builtin ∧
      ∀ context (result : PassResult) binary,
        AnalysisPass.functionInference.runTransform context (result.withFacts back) binary =
          ((·.withFacts back) <$> AnalysisPass.functionInference.runTransform context
            (result.withFacts mixedStore)) binary := by
  have hsmall : (9223372036854775807 : UInt64).toNat ≤ 2 ^ 63 - 1 := by decide
  have hlarge : ∀ word, Value.unsigned 9223372036854775808 = .unsigned word →
      2 ^ 63 ≤ word.toNat := by
    rintro word ⟨⟩
    decide
  have hpass : AnalysisPass.functionInference ∈ AnalysisPass.builtin := by
    simp [AnalysisPass.builtin]
  obtain ⟨hkinds, hother, hstores⟩ := stores_survive_documents .standard
  obtain ⟨back, htext, -, hback⟩ := hstores mixedStore
  refine ⟨inferInstance, hsmall, (hkinds _ hsmall).1, hother _ hlarge, back, htext, ?_, hpass,
    hback.transforms _ hpass⟩
  rw [hback.relations]
  decide

end BinaryFacts
