/-!
# Readers

Readers of the bytes of a section from a place on. A reader that finds nothing leaves no place.
-/

namespace BinaryFacts.ExceptionFrame

/-- A place in a section and the bytes from there to the section's end. -/
structure Cursor where
  offset : Nat
  rest : List UInt8
deriving DecidableEq, Inhabited

abbrev Reader := StateT Cursor Option

namespace Reader

def take (count : Nat) : Reader (List UInt8) := fun cursor =>
  if count ≤ cursor.rest.length then
    some (cursor.rest.take count, ⟨cursor.offset + count, cursor.rest.drop count⟩)
  else none

def byte : Reader UInt8 := fun cursor =>
  match cursor.rest with
  | [] => none
  | first :: rest => some (first, ⟨cursor.offset + 1, rest⟩)

/-- The bytes before the next zero, which is passed over. -/
def terminated : Reader (List UInt8) := fun cursor =>
  let text := cursor.rest.takeWhile (· != 0)
  match cursor.rest.dropWhile (· != 0) with
  | [] => none
  | _ :: rest => some (text, ⟨cursor.offset + text.length + 1, rest⟩)

end Reader

end BinaryFacts.ExceptionFrame
