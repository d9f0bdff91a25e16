import BinaryFacts.Json.Printer
import BinaryFacts.Json.Reader
import BinaryFacts.Json.Record

/-!
# The JSON library

What the program asks of the library that writes and reads its documents. A writer makes a document
of a value and a reader finds a value in a document; the writers and readers of compound values are
given those of the parts. What is between documents and text is left to `print` and `parse?`.

`standard` is the library that the program is run with.
-/

namespace BinaryFacts

structure JsonLibrary where
  /-- The text of a document, on one line. -/
  print : Json → String
  /-- The text of a document, each item and field on a line of its own. -/
  pretty : Json → String
  parse? : String → Option Json
  ofBool : Bool → Json
  ofString : String → Json
  ofUInt8 : UInt8 → Json
  ofUInt64 : UInt64 → Json
  ofInt64 : Int64 → Json
  ofOption {α : Type} (write : α → Json) : Option α → Json
  ofList {α : Type} (write : α → Json) : List α → Json
  /-- A word as the name of an entry. -/
  ofWordKey : UInt64 → String
  ofMap {κ α : Type} (key : κ → String) (write : α → Json) : List (κ × α) → Json
  /-- The record of these fields. -/
  ofRecord : List (String × Json) → Json
  /-- A variant that holds nothing. -/
  ofName : String → Json
  /-- The variant `name` around what it holds. -/
  ofVariant (name : String) (content : Json) : Json
  bool? : Json → Option Bool
  string? : Json → Option String
  uint8? : Json → Option UInt8
  uint64? : Json → Option UInt64
  int64? : Json → Option Int64
  option? {α : Type} (read : Json → Option α) : Json → Option (Option α)
  listOf? {α : Type} (read : Json → Option α) : Json → Option (List α)
  wordKey? : String → Option UInt64
  /-- The entries of a map in the order they were written. -/
  mapOf? {κ α : Type} (key : String → Option κ) (read : Json → Option α) :
    Json → Option (List (κ × α))
  /-- The fields of a record that has the fields `names`. -/
  record? (names : List String) : Json → Option (List (String × Json))
  /-- The fields of a record that is held by a variant. -/
  content? (names : List String) : Json → Option (List (String × Json))
  /-- The value of a field that must be there. -/
  required? {α : Type} (fields : List (String × Json)) (name : String) (read : Json → Option α) :
    Option α
  /-- The value of a field that may be missing. -/
  optional? {α : Type} (fields : List (String × Json)) (name : String) (read : Json → Option α) :
    Option (Option α)
  /-- The variant that has the name, where no variant holds anything. -/
  name? {α : Type} (variant : String → Option α) : Json → Option α
  /-- What `read` makes of a variant's name and of what the variant holds. -/
  variant? {α : Type} (read : String → Json → Option α) : Json → Option α
  /-- What the first reader that fits makes of the document. -/
  firstOf? {α : Type} (readers : List (Json → Option α)) : Json → Option α

namespace JsonLibrary

def standard : JsonLibrary where
  print := Json.compact
  pretty := Json.pretty
  parse? := Json.parse?
  ofBool := .bool
  ofString := .string
  ofUInt8 byte := .integer byte.toNat
  ofUInt64 := .ofUInt64
  ofInt64 := .ofInt64
  ofOption := .ofOption
  ofList := .ofList
  ofWordKey word := Text.decimal word.toNat
  ofMap key write entries := .object (entries.map fun (k, value) => (key k, write value))
  ofRecord := .object
  ofName := .string
  ofVariant name content := .object [(name, content)]
  bool? := Json.boolean?
  string? := Json.string?
  uint8? := Json.uint8?
  uint64? := Json.uint64?
  int64? := Json.int64?
  option? := Json.option?
  listOf? := Json.listOf?
  wordKey? := Json.wordKey?
  mapOf? := Json.mapOf?
  record? := Json.record?
  content? := Json.object?
  required? := Json.required?
  optional? := Json.optional?
  name? variant document := document.variant?.bind variant
  variant? read
    | .object [(name, content)] => read name content
    | _ => none
  firstOf? readers document := readers.findSome? (· document)

end JsonLibrary

end BinaryFacts
