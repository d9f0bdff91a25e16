/-!
# Numerals

Natural numbers written in a radix up to sixteen: reading digits of either case and writing
lower-case ones.
-/

namespace BinaryFacts.Text

def digitOf? (radix : Nat) (c : Char) : Option Nat :=
  let value :=
    if '0' ≤ c ∧ c ≤ '9' then some (c.toNat - '0'.toNat)
    else if 'a' ≤ c ∧ c ≤ 'f' then some (c.toNat - 'a'.toNat + 10)
    else if 'A' ≤ c ∧ c ≤ 'F' then some (c.toNat - 'A'.toNat + 10)
    else none
  value.filter (· < radix)

/-- The number that digits append to `high`. -/
def digitsFrom? (radix : Nat) (high : Nat) : List Char → Option Nat
  | [] => some high
  | c :: rest => do digitsFrom? radix (high * radix + (← digitOf? radix c)) rest

/-- The number that one or more digits denote. -/
def digits? (radix : Nat) : List Char → Option Nat
  | [] => none
  | chars => digitsFrom? radix 0 chars

/-- A 64-bit number: an optional plus sign and one or more digits. -/
def word? (radix : Nat) (chars : List Char) : Option UInt64 := do
  let number ← digits? radix (match chars with | '+' :: rest => rest | _ => chars)
  if number < UInt64.size then some (UInt64.ofNat number) else none

def decimal (number : Nat) : String := String.ofList (Nat.toDigits 10 number)

def hexadecimal (number : Nat) : String := String.ofList (Nat.toDigits 16 number)

/-- A signed number, with a minus sign in front where it is negative. -/
def signedDecimal (number : Int) : String :=
  if number < 0 then "-" ++ decimal number.natAbs else decimal number.natAbs

end BinaryFacts.Text
