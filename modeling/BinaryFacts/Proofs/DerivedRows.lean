import BinaryFacts.Proofs.FailingRuns
import Mathlib.Data.List.Forall2

/-!
# Derived rows

Rule programs derive rows of addresses and symbols, of any shape. The relations that a transform
reads have their columns prescribed. The transform succeeds just if every row fits, and otherwise
its error names the first relation with a row that does not, and the first thing wrong with the
first such row: the number of its columns, or else the leftmost column that is of another kind.
-/

namespace BinaryFacts

/-- A number that is not negative means the same as a word, and every symbol and word means
itself. -/
inductive Value.Means : Value → Value → Prop
  | symbol (name : String) : Means (.symbol name) (.symbol name)
  | unsigned (address : UInt64) : Means (.unsigned address) (.unsigned address)
  | number (value : Int64) (address : UInt64) (h : value.toInt = address.toNat) :
      Means (.number value) (.unsigned address)

def Row.Means (row written : Row) : Prop := List.Forall₂ Value.Means row written

/-- What rule programs put into a column. -/
inductive DerivedColumn where
  | address
  | symbol
deriving DecidableEq

namespace DerivedColumn

def Admits : DerivedColumn → Value → Prop
  | address, value => ∃ address, value.Means (.unsigned address)
  | symbol, value => ∃ name, value.Means (.symbol name)

def complaint : DerivedColumn → String
  | address => " is not an address"
  | symbol => " is not a symbol"

end DerivedColumn

def Row.FitsColumns (columns : List DerivedColumn) (row : Row) : Prop :=
  List.Forall₂ DerivedColumn.Admits columns row

/-- What is wrong with a row, in the words of the error. -/
inductive RowFault (columns : List DerivedColumn) (row : Row) : String → Prop
  | arity (h : row.length ≠ columns.length) :
      RowFault columns row ("expected " ++ Text.decimal columns.length ++ " columns, found " ++
        Text.decimal row.length)
  | column {before after : List DerivedColumn} {column : DerivedColumn} {earlier later : Row}
      {value : Value} (hcolumns : columns = before ++ column :: after)
      (hrow : row = earlier ++ value :: later) (hearlier : Row.FitsColumns before earlier)
      (hvalue : ¬ column.Admits value) (hlater : later.length = after.length) :
      RowFault columns row ("column " ++ Text.decimal earlier.length ++ column.complaint)

/-- The error for a relation's first row with a fault. -/
def RelationFault (relation : String) (columns : List DerivedColumn) (rows : List Row)
    (error : PassError) : Prop :=
  ∃ earlier row later reason, rows = earlier ++ row :: later ∧
    (∀ other ∈ earlier, Row.FitsColumns columns other) ∧ RowFault columns row reason ∧
    error = .malformedRelation relation reason

/-- Relations of a result in the order in which they are read, with their columns. -/
abbrev DerivedSchema := List (String × List DerivedColumn)

namespace PassResult

def FitsSchema (result : PassResult) (schema : DerivedSchema) : Prop :=
  ∀ relation columns, (relation, columns) ∈ schema →
    ∀ row ∈ result.rows relation, Row.FitsColumns columns row

/-- The error for the first relation with a fault. -/
inductive FirstFault (result : PassResult) : DerivedSchema → PassError → Prop
  | here {relation : String} {columns : List DerivedColumn} {rest : DerivedSchema}
      {error : PassError} (h : RelationFault relation columns (result.rows relation) error) :
      FirstFault result ((relation, columns) :: rest) error
  | later {relation : String} {columns : List DerivedColumn} {rest : DerivedSchema}
      {error : PassError} (hfits : ∀ row ∈ result.rows relation, Row.FitsColumns columns row)
      (h : FirstFault result rest error) :
      FirstFault result ((relation, columns) :: rest) error

end PassResult

/-! ### Either all fits or there is a first fault -/

lemma fits_or_fault_of_length {columns : List DerivedColumn} {row : Row}
    (h : row.length = columns.length) :
    Row.FitsColumns columns row ∨ ∃ reason, RowFault columns row reason := by
  induction columns generalizing row with
  | nil =>
    obtain rfl := List.eq_nil_of_length_eq_zero h
    exact .inl .nil
  | cons column columns ih =>
    obtain ⟨value, row, rfl⟩ := List.exists_cons_of_length_eq_add_one h
    have hlength : row.length = columns.length := Nat.succ.inj h
    by_cases hvalue : column.Admits value
    · rcases ih hlength with hfits | ⟨_, harity | ⟨rfl, rfl, hearlier, hother, hlater⟩⟩
      · exact .inl (.cons hvalue hfits)
      · exact absurd hlength harity
      · exact .inr ⟨_, .column rfl rfl (.cons hvalue hearlier) hother hlater⟩
    · exact .inr ⟨_, .column (List.nil_append _).symm (List.nil_append _).symm .nil hvalue hlength⟩

lemma fits_or_fault (columns : List DerivedColumn) (row : Row) :
    Row.FitsColumns columns row ∨ ∃ reason, RowFault columns row reason := by
  by_cases h : row.length = columns.length
  · exact fits_or_fault_of_length h
  · exact .inr ⟨_, .arity h⟩

lemma all_fit_or_fault (relation : String) (columns : List DerivedColumn) (rows : List Row) :
    (∀ row ∈ rows, Row.FitsColumns columns row) ∨
      ∃ error, RelationFault relation columns rows error := by
  induction rows with
  | nil => exact .inl (by simp)
  | cons row rows ih =>
    rcases fits_or_fault columns row with hrow | ⟨reason, hreason⟩
    · rcases ih with hrows | ⟨error, earlier, other, later, reason, rfl, hearlier, hother, herror⟩
      · exact .inl (List.forall_mem_cons.mpr ⟨hrow, hrows⟩)
      · exact .inr ⟨error, row :: earlier, other, later, reason, rfl,
          List.forall_mem_cons.mpr ⟨hrow, hearlier⟩, hother, herror⟩
    · exact .inr ⟨_, [], row, rows, reason, rfl, by simp, hreason, rfl⟩

lemma PassResult.fits_or_fault (result : PassResult) (schema : DerivedSchema) :
    result.FitsSchema schema ∨ ∃ error, result.FirstFault schema error := by
  induction schema with
  | nil => exact .inl fun _ _ h => by cases h
  | cons entry rest ih =>
    obtain ⟨relation, columns⟩ := entry
    rcases all_fit_or_fault relation columns (result.rows relation) with hfits | ⟨error, hfault⟩
    · rcases ih with hrest | ⟨error, hfault⟩
      · refine .inl fun other kinds hmem => ?_
        rcases List.mem_cons.mp hmem with hsame | hmem
        · cases hsame
          exact hfits
        · exact hrest other kinds hmem
      · exact .inr ⟨error, .later hfits hfault⟩
    · exact .inr ⟨error, .here hfault⟩

namespace Value

lemma means_unsigned_iff {value : Value} {address : UInt64} :
    value.Means (.unsigned address) ↔ value.unsigned? = some address := by
  constructor
  · intro h
    cases h with
    | unsigned => rfl
    | number value _ hvalue =>
      rw [unsigned?, if_pos (by omega), hvalue, Int.toNat_natCast, UInt64.ofNat_toNat]
  · intro h
    cases value with
    | symbol name => cases h
    | list items => cases h
    | unsigned other =>
      cases h
      exact .unsigned address
    | number value =>
      rw [unsigned?] at h
      split at h
      · next hpos =>
        obtain rfl := Option.some.inj h
        have hlt := value.toInt_lt
        have hfits : value.toInt.toNat < UInt64.size := by
          change _ < 2 ^ 64
          omega
        exact .number value _ (by rw [UInt64.toNat_ofNat_of_lt' hfits, Int.toNat_of_nonneg hpos])
      · cases h

lemma means_symbol_iff {value : Value} {name : String} :
    value.Means (.symbol name) ↔ value.symbol? = some name := by
  constructor
  · intro h
    cases h
    rfl
  · intro h
    cases value with
    | symbol other =>
      cases h
      exact .symbol name
    | _ => cases h

/-- A value means one thing at most. -/
lemma Means.unique {value written other : Value} (h : value.Means written)
    (h' : value.Means other) : written = other := by
  cases h with
  | symbol => cases h'; rfl
  | unsigned => cases h'; rfl
  | number _ _ hvalue =>
    cases h' with
    | number _ _ hother =>
      rw [UInt64.toNat_inj.mp (Int.ofNat_inj.mp (hvalue.symm.trans hother))]

end Value

namespace Row

lemma Means.unique {row written other : Row} (h : row.Means written) (h' : row.Means other) :
    written = other := by
  have hvalues : Relator.RightUnique Value.Means := fun _ _ _ => Value.Means.unique
  exact hvalues.forall₂ h h'

/-- If rows mean the written items, the items are those that some row means. -/
lemma mem_written_iff {α : Type} {write : α → Row} (hwrite : write.Injective) {rows : List Row}
    {items : List α} (h : List.Forall₂ Row.Means rows (items.map write)) {item : α} :
    item ∈ items ↔ ∃ row ∈ rows, row.Means (write item) := by
  induction items generalizing rows with
  | nil =>
    cases h
    simp
  | cons first items ih =>
    obtain _ | ⟨hfirst, hrest⟩ := h
    rw [List.mem_cons, ih hrest, List.exists_mem_cons_iff]
    refine or_congr ⟨?_, ?_⟩ Iff.rfl
    · rintro rfl
      exact hfirst
    · exact fun hitem => hwrite (hitem.unique hfirst)

end Row

/-! ### Reading by columns -/

namespace AnalysisPass

def readColumn (relation : String) (row : Row) (place : Nat) :
    DerivedColumn → Except PassError Value
  | .address => .unsigned <$> addressAt relation row place
  | .symbol => .symbol <$> symbolAt relation row place

def readColumns (relation : String) (row : Row) :
    Nat → List DerivedColumn → Except PassError Row
  | _, [] => .ok []
  | place, column :: columns => do
    let value ← readColumn relation row place column
    let written ← readColumns relation row (place + 1) columns
    return value :: written

/-- Reads a row by its columns and writes down what it means. -/
def readRow (relation : String) (columns : List DerivedColumn) (row : Row) :
    Except PassError Row := do
  expectArity relation row columns.length
  readColumns relation row 0 columns

def readTables (result : PassResult) : DerivedSchema → Except PassError (List (List Row))
  | [] => .ok []
  | (relation, columns) :: rest => do
    let table ← (result.rows relation).mapM (readRow relation columns)
    let tables ← readTables result rest
    return table :: tables

section

variable (relation : String) {columns : List DerivedColumn}

lemma readColumn_of_admits {column : DerivedColumn} {value : Value} (h : column.Admits value)
    (earlier later : Row) :
    ∃ written, readColumn relation (earlier ++ value :: later) earlier.length column =
      .ok written ∧ value.Means written := by
  have hplace : (earlier ++ value :: later)[earlier.length]? = some value := by simp
  cases column with
  | address =>
    obtain ⟨address, hmeans⟩ := h
    refine ⟨.unsigned address, ?_, hmeans⟩
    rw [readColumn, addressAt, hplace, Option.bind_some, Value.means_unsigned_iff.mp hmeans]
    rfl
  | symbol =>
    obtain ⟨name, hmeans⟩ := h
    refine ⟨.symbol name, ?_, hmeans⟩
    rw [readColumn, symbolAt, hplace, Option.bind_some, Value.means_symbol_iff.mp hmeans]
    rfl

lemma readColumn_of_not_admits {column : DerivedColumn} {value : Value}
    (h : ¬ column.Admits value) (earlier later : Row) :
    readColumn relation (earlier ++ value :: later) earlier.length column =
      malformed relation ("column " ++ Text.decimal earlier.length ++ column.complaint) := by
  have hplace : (earlier ++ value :: later)[earlier.length]? = some value := by simp
  cases column with
  | address =>
    have hnone : value.unsigned? = none := Option.eq_none_iff_forall_ne_some.mpr
      fun address haddress => h ⟨address, Value.means_unsigned_iff.mpr haddress⟩
    rw [readColumn, addressAt, hplace, Option.bind_some, hnone]
    rfl
  | symbol =>
    have hnone : value.symbol? = none := Option.eq_none_iff_forall_ne_some.mpr
      fun name hname => h ⟨name, Value.means_symbol_iff.mpr hname⟩
    rw [readColumn, symbolAt, hplace, Option.bind_some, hnone]
    rfl

lemma readColumns_of_fits {later : Row} (h : Row.FitsColumns columns later) (earlier : Row) :
    ∃ written, readColumns relation (earlier ++ later) earlier.length columns = .ok written ∧
      later.Means written := by
  induction h generalizing earlier with
  | nil => exact ⟨[], rfl, .nil⟩
  | @cons column value columns later hvalue _ ih =>
    obtain ⟨first, hfirst, hmeans⟩ := readColumn_of_admits relation hvalue earlier later
    obtain ⟨rest, hrest, hothers⟩ := ih (earlier ++ [value])
    rw [List.append_assoc, List.singleton_append, List.length_append, List.length_singleton]
      at hrest
    refine ⟨first :: rest, ?_, .cons hmeans hothers⟩
    rw [readColumns, hfirst, hrest]
    rfl

lemma readColumns_of_not_admits {before after : List DerivedColumn} {column : DerivedColumn}
    {earlier later : Row} {value : Value} (hearlier : Row.FitsColumns before earlier)
    (hvalue : ¬ column.Admits value) (start : Row) :
    readColumns relation (start ++ (earlier ++ value :: later)) start.length
        (before ++ column :: after) =
      malformed relation
        ("column " ++ Text.decimal (start ++ earlier).length ++ column.complaint) := by
  induction hearlier generalizing start with
  | nil =>
    rw [List.nil_append, List.nil_append, List.append_nil, readColumns,
      readColumn_of_not_admits relation hvalue]
    rfl
  | @cons _ first _ earlier hfirst _ ih =>
    obtain ⟨written, hwritten, -⟩ := readColumn_of_admits relation hfirst start
      (earlier ++ value :: later)
    have hrest := ih (start ++ [first])
    simp only [List.append_assoc, List.singleton_append, List.length_append, List.length_cons,
      List.length_nil, Nat.zero_add] at hrest ⊢
    rw [List.cons_append, List.cons_append, readColumns, hwritten, hrest]
    rfl

lemma readRow_of_fits {row : Row} (h : Row.FitsColumns columns row) :
    ∃ written, readRow relation columns row = .ok written ∧ row.Means written := by
  obtain ⟨written, hwritten, hmeans⟩ := readColumns_of_fits relation h []
  refine ⟨written, ?_, hmeans⟩
  rw [readRow, expectArity, if_pos h.length_eq.symm]
  exact hwritten

lemma readRow_of_fault {row : Row} {reason : String} (h : RowFault columns row reason) :
    readRow relation columns row = .error (.malformedRelation relation reason) := by
  cases h with
  | arity harity =>
    rw [readRow, expectArity, if_neg harity]
    rfl
  | @column before after column earlier later value hcolumns hrow hearlier hvalue hlater =>
    have harity : row.length = columns.length := by
      have hlength := hearlier.length_eq
      rw [hrow, hcolumns, List.length_append, List.length_append, List.length_cons,
        List.length_cons, hlength, hlater]
    rw [readRow, expectArity, if_pos harity, hrow, hcolumns]
    exact readColumns_of_not_admits relation hearlier hvalue []

lemma mapM_readRow_of_fits {rows : List Row} (h : ∀ row ∈ rows, Row.FitsColumns columns row) :
    ∃ table, rows.mapM (readRow relation columns) = .ok table ∧
      List.Forall₂ Row.Means rows table := by
  induction rows with
  | nil => exact ⟨[], rfl, .nil⟩
  | cons row rows ih =>
    obtain ⟨hrow, hrows⟩ := List.forall_mem_cons.mp h
    obtain ⟨written, hwritten, hmeans⟩ := readRow_of_fits relation hrow
    obtain ⟨table, htable, hothers⟩ := ih hrows
    refine ⟨written :: table, ?_, .cons hmeans hothers⟩
    rw [List.mapM_cons, hwritten, htable]
    rfl

lemma mapM_readRow_of_fault {rows : List Row} {error : PassError}
    (h : RelationFault relation columns rows error) :
    rows.mapM (readRow relation columns) = .error error := by
  obtain ⟨earlier, row, later, reason, rfl, hearlier, hfault, rfl⟩ := h
  obtain ⟨table, htable, -⟩ := mapM_readRow_of_fits relation hearlier
  rw [List.mapM_append, htable, List.mapM_cons, readRow_of_fault relation hfault]
  rfl

variable {result : PassResult} {schema : DerivedSchema}

lemma readTables_of_fits (h : result.FitsSchema schema) :
    ∃ tables, readTables result schema = .ok tables ∧
      List.Forall₂ (fun entry table => List.Forall₂ Row.Means (result.rows entry.1) table) schema
        tables := by
  induction schema with
  | nil => exact ⟨[], rfl, .nil⟩
  | cons entry rest ih =>
    obtain ⟨relation, columns⟩ := entry
    obtain ⟨table, htable, hmeans⟩ :=
      mapM_readRow_of_fits relation (h relation columns List.mem_cons_self)
    obtain ⟨tables, htables, hothers⟩ := ih fun other kinds hmem =>
      h other kinds (List.mem_cons_of_mem _ hmem)
    refine ⟨table :: tables, ?_, .cons hmeans hothers⟩
    rw [readTables, htable, htables]
    rfl

lemma readTables_of_fault {error : PassError} (h : result.FirstFault schema error) :
    readTables result schema = .error error := by
  induction h with
  | here hfault =>
    rw [readTables, mapM_readRow_of_fault _ hfault]
    rfl
  | @later relation columns rest error hfits _ ih =>
    obtain ⟨table, htable, -⟩ := mapM_readRow_of_fits relation hfits
    rw [readTables, htable, ih]
    rfl

/-- Whether a reader takes in the relations of a schema: what it finds can be written down as the
tables that their rows mean. -/
def ReadsSchema {α : Type} (read : PassResult → Except PassError α) (schema : DerivedSchema)
    (tables : α → List (List Row)) : Prop :=
  ∀ result, (read result).map tables = readTables result schema

namespace ReadsSchema

variable {α : Type} {read : PassResult → Except PassError α} {tables : α → List (List Row)}

lemma readTables_of_ok (h : ReadsSchema read schema tables) {found : α}
    (hfound : read result = .ok found) : readTables result schema = .ok (tables found) := by
  rw [← h result, hfound]
  rfl

lemma readTables_of_error (h : ReadsSchema read schema tables) {error : PassError}
    (herror : read result = .error error) : readTables result schema = .error error := by
  rw [← h result, herror]
  rfl

lemma eq_error_iff (h : ReadsSchema read schema tables) {error : PassError} :
    read result = .error error ↔ result.FirstFault schema error := by
  constructor
  · intro herror
    have hread := h.readTables_of_error herror
    rcases result.fits_or_fault schema with hfits | ⟨first, hfault⟩
    · obtain ⟨_, hok, -⟩ := readTables_of_fits hfits
      cases hok.symm.trans hread
    · cases (readTables_of_fault hfault).symm.trans hread
      exact hfault
  · intro hfault
    cases hread : read result with
    | error other =>
      cases (h.readTables_of_error hread).symm.trans (readTables_of_fault hfault)
      rfl
    | ok found => cases (h.readTables_of_ok hread).symm.trans (readTables_of_fault hfault)

lemma exists_ok_iff (h : ReadsSchema read schema tables) :
    (∃ found, read result = .ok found) ↔ result.FitsSchema schema := by
  constructor
  · rintro ⟨found, hfound⟩
    rcases result.fits_or_fault schema with hfits | ⟨error, hfault⟩
    · exact hfits
    · cases hfound.symm.trans (h.eq_error_iff.mpr hfault)
  · intro hfits
    obtain ⟨_, hok, -⟩ := readTables_of_fits hfits
    cases hread : read result with
    | ok found => exact ⟨found, rfl⟩
    | error error => cases hok.symm.trans (h.readTables_of_error hread)

/-- What is found is what the rows mean, table by table. -/
lemma means_of_ok (h : ReadsSchema read schema tables) {found : α}
    (hfound : read result = .ok found) :
    List.Forall₂ (fun entry table => List.Forall₂ Row.Means (result.rows entry.1) table) schema
      (tables found) := by
  obtain ⟨_, hok, hmeans⟩ := readTables_of_fits (h.exists_ok_iff.mp ⟨found, hfound⟩)
  cases hok.symm.trans (h.readTables_of_ok hfound)
  exact hmeans

variable {change : α → Binary → Binary} {context : AnalysisContext} {binary left : Binary}

/-- A transform that reads before it changes anything fails at the first fault, and then the binary
is as it was. -/
lemma readThenApply_eq_error_iff (h : ReadsSchema read schema tables) {error : PassError} :
    readThenApply read change context result binary = .error error left ↔
      left = binary ∧ result.FirstFault schema error := by
  rw [← h.eq_error_iff]
  unfold readThenApply
  cases read result with
  | error other => simp [eq_comm, and_comm]
  | ok found => simp

lemma readThenApply_exists_ok_iff (h : ReadsSchema read schema tables) :
    (∃ handed left, readThenApply read change context result binary = .ok handed left) ↔
      result.FitsSchema schema := by
  rw [← h.exists_ok_iff]
  unfold readThenApply
  cases read result with
  | error other => simp
  | ok found => simp

end ReadsSchema

lemma readThenApply_eq_ok_iff {α : Type} {read : PassResult → Except PassError α}
    {change : α → Binary → Binary} {context : AnalysisContext} {handed : PassResult}
    {binary left : Binary} :
    readThenApply read change context result binary = .ok handed left ↔
      handed = result ∧ ∃ found, read result = .ok found ∧ left = change found binary := by
  unfold readThenApply
  cases read result with
  | error other => simp
  | ok found => simp [eq_comm]

end

/-! ### The readers of the built-in passes -/

def addressRow (address : UInt64) : Row := [.unsigned address]

def pairRow (pair : UInt64 × UInt64) : Row := [.unsigned pair.1, .unsigned pair.2]

lemma addressRow_injective : addressRow.Injective := by
  intro address other h
  cases h
  rfl

lemma pairRow_injective : pairRow.Injective := by
  intro pair other h
  cases pair
  cases other
  cases h
  rfl

def nameRow (name : UInt64 × String) : Row := [.unsigned name.1, .symbol name.2]

def edgeRow (edge : FlowEdge) : Row :=
  [.unsigned edge.source, .unsigned edge.target, .symbol edge.kind]

variable (relation : String) (row : Row)

lemma readAddress_columns :
    (readAddress relation row).map addressRow = readRow relation [.address] row := by
  unfold readAddress readRow
  simp only [readColumns, readColumn, List.length_cons, List.length_nil, Nat.zero_add]
  cases expectArity relation row 1 with
  | error error => rfl
  | ok _ => cases addressAt relation row 0 <;> rfl

lemma readPair_columns :
    (readPair relation row).map pairRow = readRow relation [.address, .address] row := by
  unfold readPair readRow
  simp only [readColumns, readColumn, List.length_cons, List.length_nil, Nat.zero_add,
    Nat.reduceAdd]
  cases expectArity relation row 2 with
  | error error => rfl
  | ok _ =>
    cases addressAt relation row 0 with
    | error error => rfl
    | ok first => cases addressAt relation row 1 <;> rfl

lemma readSymbol_columns :
    (readSymbol relation row).map nameRow = readRow relation [.address, .symbol] row := by
  unfold readSymbol readRow
  simp only [readColumns, readColumn, List.length_cons, List.length_nil, Nat.zero_add,
    Nat.reduceAdd]
  cases expectArity relation row 2 with
  | error error => rfl
  | ok _ =>
    cases addressAt relation row 0 with
    | error error => rfl
    | ok first => cases symbolAt relation row 1 <;> rfl

lemma readEdge_columns :
    (readEdge relation row).map edgeRow = readRow relation [.address, .address, .symbol] row := by
  unfold readEdge readRow
  simp only [readColumns, readColumn, List.length_cons, List.length_nil, Nat.zero_add,
    Nat.reduceAdd]
  cases expectArity relation row 3 with
  | error error => rfl
  | ok _ =>
    cases addressAt relation row 0 with
    | error error => rfl
    | ok source =>
      cases addressAt relation row 1 with
      | error error => rfl
      | ok target => cases symbolAt relation row 2 <;> rfl

lemma mapM_columns {α : Type} {read : Row → Except PassError α} {write : α → Row}
    {columns : List DerivedColumn}
    (h : ∀ row, (read row).map write = readRow relation columns row) (rows : List Row) :
    (rows.mapM read).map (List.map write) = rows.mapM (readRow relation columns) := by
  induction rows with
  | nil => rfl
  | cons row rows ih =>
    rw [List.mapM_cons, List.mapM_cons, ← h, ← ih]
    cases read row with
    | error error => rfl
    | ok item => cases rows.mapM read <;> rfl

def Disassembled.schema : DerivedSchema :=
  [("block_information", [.address, .address]), ("cfg_edge", [.address, .address, .symbol]),
    ("inferred_symbol", [.address, .symbol])]

def Disassembled.tables (found : Disassembled) : List (List Row) :=
  [found.blocks.map pairRow, found.edges.map edgeRow, found.symbols.map nameRow]

def InferredFunctions.schema : DerivedSchema :=
  [("function_entry", [.address]), ("in_function", [.address, .address])]

def InferredFunctions.tables (found : InferredFunctions) : List (List Row) :=
  [found.entries.map addressRow, found.members.map pairRow]

lemma readsSchema_disassembled :
    ReadsSchema Disassembled.ofResult Disassembled.schema Disassembled.tables := by
  intro result
  unfold Disassembled.ofResult Disassembled.schema
  simp only [readTables, ← mapM_columns _ (readPair_columns _),
    ← mapM_columns _ (readEdge_columns _), ← mapM_columns _ (readSymbol_columns _)]
  cases (result.rows "block_information").mapM (readPair "block_information") with
  | error error => rfl
  | ok blocks =>
    cases (result.rows "cfg_edge").mapM (readEdge "cfg_edge") with
    | error error => rfl
    | ok edges => cases (result.rows "inferred_symbol").mapM (readSymbol "inferred_symbol") <;> rfl

lemma readsSchema_inferredFunctions :
    ReadsSchema InferredFunctions.ofResult InferredFunctions.schema InferredFunctions.tables := by
  intro result
  unfold InferredFunctions.ofResult InferredFunctions.schema
  simp only [readTables, ← mapM_columns _ (readAddress_columns _),
    ← mapM_columns _ (readPair_columns _)]
  cases (result.rows "function_entry").mapM (readAddress "function_entry") with
  | error error => rfl
  | ok entries => cases (result.rows "in_function").mapM (readPair "in_function") <;> rfl

end AnalysisPass

end BinaryFacts
