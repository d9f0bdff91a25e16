/-!
# JSON documents

JSON documents. Integers of at most 64 bits are kept exactly; every other number keeps its spelling,
since nothing in this library takes one for a value.
-/

namespace BinaryFacts

inductive Json where
  | null
  | bool (value : Bool)
  | integer (value : Int)
  /-- A number with a fraction or an exponent, a negative zero, or an integer out of range. -/
  | fraction (literal : String)
  | string (value : String)
  | list (items : List Json)
  /-- Fields as they were written, in their order and with repetitions. -/
  | object (fields : List (String × Json))
  /-- Text of the right form in which an escape stands for no character. -/
  | garbled
deriving Inhabited

namespace Json

/-- The integers that a document can hold: those of a signed or an unsigned 64-bit word. -/
def IsInteger (number : Int) : Prop :=
  Int64.minValue.toInt ≤ number ∧ number < UInt64.size

instance : DecidablePred IsInteger := fun _ =>
  inferInstanceAs (Decidable (_ ∧ _))

end Json

end BinaryFacts
