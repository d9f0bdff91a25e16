/-!
# Values and rows

One column of a fact is a name, a number or a list of words; a row is a list of columns.
-/

namespace BinaryFacts

inductive Value where
  | symbol (name : String)
  | number (value : Int64)
  | unsigned (value : UInt64)
  | list (items : List UInt64)
deriving DecidableEq, Inhabited

namespace Value

/-- The number as an unsigned word, unless it is negative. -/
def unsigned? : Value → Option UInt64
  | unsigned value => some value
  | number value => if 0 ≤ value.toInt then some (UInt64.ofNat value.toInt.toNat) else none
  | _ => none

/-- The number as a signed word, unless it is too large for one. -/
def number? : Value → Option Int64
  | number value => some value
  | unsigned value => if 0 ≤ value.toInt64 then some value.toInt64 else none
  | _ => none

def symbol? : Value → Option String
  | symbol name => some name
  | _ => none

end Value

abbrev Row := List Value

end BinaryFacts
