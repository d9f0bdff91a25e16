import BinaryFacts.Fact.Store
import BinaryFacts.Json.Library

/-!
# Facts as documents

A value is written without its kind. Read back, an integer is a signed number where it fits one
and an unsigned one only above that.
-/

namespace BinaryFacts

variable (library : JsonLibrary)

def Value.toJson : Value → Json
  | symbol name => library.ofString name
  | number value => library.ofInt64 value
  | unsigned value => library.ofUInt64 value
  | list items => library.ofList library.ofUInt64 items

/-- The first kind that fits. -/
def Value.ofJson? : Json → Option Value :=
  library.firstOf? [
    fun document => (library.string? document).map symbol,
    fun document => (library.int64? document).map number,
    fun document => (library.uint64? document).map unsigned,
    fun document => (library.listOf? library.uint64? document).map list]

def Row.toJson (row : Row) : Json := library.ofList (Value.toJson library) row

def Row.ofJson? (document : Json) : Option Row := library.listOf? (Value.ofJson? library) document

namespace FactStore

def relationsToJson (relations : OrderedMap String (List Row)) : Json :=
  library.ofMap id (library.ofList (Row.toJson library)) relations.entries

def toJson (store : FactStore) : Json :=
  library.ofRecord [("program", library.ofString store.program),
    ("relations", relationsToJson library store.relations)]

def ofJson? (document : Json) : Option FactStore := do
  let fields ← library.record? ["program", "relations"] document
  let program ← library.required? fields "program" library.string?
  let relations ← library.required? fields "relations"
    (library.mapOf? some (library.listOf? (Row.ofJson? library)))
  return { program, relations := .ofList relations }

end FactStore

end BinaryFacts
