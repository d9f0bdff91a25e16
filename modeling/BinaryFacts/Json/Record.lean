import BinaryFacts.Json.Basic
import BinaryFacts.Text.Numeral

/-!
# Typed values in JSON

Reading typed values out of a document: words, enumerations, options, lists, records and maps.

A record is an object or the list of exactly its fields in order. Fields that it does not know are
passed over; one that it knows must not come twice.
-/

namespace BinaryFacts.Json

def boolean? : Json → Option Bool
  | bool value => some value
  | _ => none

def string? : Json → Option String
  | string value => some value
  | _ => none

def list? : Json → Option (List Json)
  | list items => some items
  | _ => none

/-- An integer from `low` up to `high`. -/
def integer? (low high : Int) : Json → Option Int
  | integer value => if low ≤ value ∧ value ≤ high then some value else none
  | _ => none

def uint8? (document : Json) : Option UInt8 :=
  (document.integer? 0 (UInt8.size - 1)).map fun value => UInt8.ofNat value.toNat

def uint64? (document : Json) : Option UInt64 :=
  (document.integer? 0 (UInt64.size - 1)).map fun value => UInt64.ofNat value.toNat

def int64? (document : Json) : Option Int64 :=
  (document.integer? Int64.minValue.toInt Int64.maxValue.toInt).map Int64.ofInt

def listOf? {α : Type} (read : Json → Option α) (document : Json) : Option (List α) := do
  (← document.list?).mapM read

def option? {α : Type} (read : Json → Option α) : Json → Option (Option α)
  | null => some none
  | document => (read document).map some

/-- The name of a plain variant, which may also stand before a null. -/
def variant? : Json → Option String
  | string name => some name
  | object [(name, null)] => some name
  | _ => none

/-- The fields called `names`, each at most once. -/
def known (names : List String) (fields : List (String × Json)) : Option (List (String × Json)) :=
  let found := fields.filter (fun field => names.contains field.1)
  if (found.map Prod.fst).Nodup then some found else none

/-- The fields of a record that has to be an object. -/
def object? (names : List String) : Json → Option (List (String × Json))
  | object fields => known names fields
  | _ => none

def record? (names : List String) : Json → Option (List (String × Json))
  | object fields => known names fields
  | list items => if items.length = names.length then some (names.zip items) else none
  | _ => none

/-- The value of a field that must be there. -/
def required? {α : Type} (fields : List (String × Json)) (name : String)
    (read : Json → Option α) : Option α :=
  (fields.lookup name).bind read

/-- The value of a field that may be missing or null. -/
def optional? {α : Type} (fields : List (String × Json)) (name : String)
    (read : Json → Option α) : Option (Option α) :=
  match fields.lookup name with
  | none => some none
  | some document => option? read document

/-- The entries of a map, in the order they were written. -/
def mapOf? {κ α : Type} (key : String → Option κ) (read : Json → Option α) :
    Json → Option (List (κ × α))
  | object fields => fields.mapM fun (name, value) => do return (← key name, ← read value)
  | _ => none

/-- A word as a map key: its decimal digits without a leading zero. -/
def wordKey? (name : String) : Option UInt64 :=
  match name.toList with
  | ['0'] => some 0
  | '0' :: _ => none
  | '+' :: _ => none
  | chars => Text.word? 10 chars

def ofUInt64 (value : UInt64) : Json := integer value.toNat

def ofInt64 (value : Int64) : Json := integer value.toInt

def ofOption {α : Type} (write : α → Json) : Option α → Json
  | none => null
  | some value => write value

def ofList {α : Type} (write : α → Json) (items : List α) : Json := list (items.map write)

end BinaryFacts.Json
