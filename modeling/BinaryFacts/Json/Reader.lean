import BinaryFacts.Json.Basic
import BinaryFacts.Text.Numeral

/-!
# Reading JSON

Reading a JSON document. A document is one value with blanks around it; there are no trailing
commas, no leading zeros, and a surrogate escape needs its partner.
-/

namespace BinaryFacts.Json

def isSpace (c : Char) : Bool := c == ' ' || c == '\n' || c == '\r' || c == '\t'

def skipSpaces (chars : List Char) : List Char := chars.dropWhile isSpace

/-- The code units of a string literal, up to its closing quote, and what follows it. -/
def readUnits : List Char → Option (List Nat × List Char)
  | '"' :: rest => some ([], rest)
  | '\\' :: 'u' :: a :: b :: c :: d :: rest => do
    let unit ← [a, b, c, d].foldlM (fun high digit => do
      return high * 16 + (← Text.digitOf? 16 digit)) 0
    let (units, rest) ← readUnits rest
    return (unit :: units, rest)
  | '\\' :: escape :: rest => do
    let unit ← [('"', 0x22), ('\\', 0x5c), ('/', 0x2f), ('b', 8), ('f', 12), ('n', 10), ('r', 13),
      ('t', 9)].lookup escape
    let (units, rest) ← readUnits rest
    return (unit :: units, rest)
  | c :: rest => do
    if c.toNat < 0x20 then none
    let (units, rest) ← readUnits rest
    return (c.toNat :: units, rest)
  | [] => none

def isHighSurrogate (unit : Nat) : Bool := 0xd800 ≤ unit && unit < 0xdc00

def isLowSurrogate (unit : Nat) : Bool := 0xdc00 ≤ unit && unit < 0xe000

/-- The characters that code units stand for; a surrogate without its partner stands for none. -/
def joinUnits : List Nat → Option (List Char)
  | [] => some []
  | [unit] => if isHighSurrogate unit || isLowSurrogate unit then none else some [Char.ofNat unit]
  | unit :: next :: rest =>
    if isHighSurrogate unit then
      if isLowSurrogate next then
        (joinUnits rest).map
          (Char.ofNat (0x10000 + (unit - 0xd800) * 0x400 + (next - 0xdc00)) :: ·)
      else none
    else if isLowSurrogate unit then none
    else (joinUnits (next :: rest)).map (Char.ofNat unit :: ·)

/-- The text of a literal, if it has one, and what follows its closing quote. -/
def readText (chars : List Char) : Option (Option String × List Char) := do
  let (units, rest) ← readUnits chars
  return ((joinUnits units).map String.ofList, rest)

def isDigit (c : Char) : Bool := '0' ≤ c && c ≤ '9'

/-- One or more digits and what follows them. -/
def readDigits (chars : List Char) : Option (List Char × List Char) :=
  match chars.takeWhile isDigit with
  | [] => none
  | digits => some (digits, chars.dropWhile isDigit)

def readFraction : List Char → Option (List Char × List Char)
  | '.' :: rest => do
    let (digits, rest) ← readDigits rest
    return ('.' :: digits, rest)
  | chars => some ([], chars)

def readExponent : List Char → Option (List Char × List Char)
  | e :: rest =>
    if e == 'e' || e == 'E' then do
      let (sign, rest) := match rest with
        | '+' :: rest => (['+'], rest)
        | '-' :: rest => (['-'], rest)
        | _ => ([], rest)
      let (digits, rest) ← readDigits rest
      return (e :: sign ++ digits, rest)
    else some ([], e :: rest)
  | [] => some ([], [])

/-- The value of a number spelled by a sign, digits and the rest of its literal. -/
def ofNumeral (negative : Bool) (digits tail : List Char) : Json :=
  let magnitude : Int := (Text.digitsFrom? 10 0 digits).getD 0
  let number := if negative then -magnitude else magnitude
  if tail.isEmpty && !(negative && magnitude == 0) && decide (IsInteger number) then
    .integer number
  else
    .fraction (String.ofList ((if negative then ['-'] else []) ++ digits ++ tail))

def readNumber (chars : List Char) : Option (Json × List Char) := do
  let (negative, chars) := match chars with
    | '-' :: rest => (true, rest)
    | _ => (false, chars)
  let (digits, chars) ← readDigits chars
  if digits.head? == some '0' && digits.length != 1 then none
  let (places, chars) ← readFraction chars
  let (exponent, chars) ← readExponent chars
  return (ofNumeral negative digits (places ++ exponent), chars)

mutual

/-- A value and what follows it. Each level of `fuel` allows one more step into the text. -/
def readValue : Nat → List Char → Option (Json × List Char)
  | 0, _ => none
  | fuel + 1, chars => match skipSpaces chars with
    | 'n' :: 'u' :: 'l' :: 'l' :: rest => some (.null, rest)
    | 't' :: 'r' :: 'u' :: 'e' :: rest => some (.bool true, rest)
    | 'f' :: 'a' :: 'l' :: 's' :: 'e' :: rest => some (.bool false, rest)
    | '"' :: rest => do
      let (text, rest) ← readText rest
      return (match text with | some text => .string text | none => .garbled, rest)
    | '[' :: rest => match skipSpaces rest with
      | ']' :: rest => some (.list [], rest)
      | rest => do
        let (items, rest) ← readItems fuel rest
        return (.list items, rest)
    | '\x7b' :: rest => match skipSpaces rest with
      | '\x7d' :: rest => some (.object [], rest)
      | rest => do
        let (fields, rest) ← readFields fuel rest
        return (match fields with | some fields => .object fields | none => .garbled, rest)
    | rest => readNumber rest

def readItems : Nat → List Char → Option (List Json × List Char)
  | 0, _ => none
  | fuel + 1, chars => do
    let (item, rest) ← readValue fuel chars
    match skipSpaces rest with
    | ',' :: rest =>
      let (items, rest) ← readItems fuel rest
      return (item :: items, rest)
    | ']' :: rest => return ([item], rest)
    | _ => none

/-- The fields of an object, or none where a name is garbled. -/
def readFields : Nat → List Char → Option (Option (List (String × Json)) × List Char)
  | 0, _ => none
  | fuel + 1, chars => match skipSpaces chars with
    | '"' :: rest => do
      let (name, rest) ← readText rest
      match skipSpaces rest with
      | ':' :: rest =>
        let (value, rest) ← readValue fuel rest
        let field := name.map (·, value)
        match skipSpaces rest with
        | ',' :: rest =>
          let (fields, rest) ← readFields fuel rest
          return (do return (← field) :: (← fields), rest)
        | '\x7d' :: rest => return (field.map ([·]), rest)
        | _ => none
      | _ => none
    | _ => none

end

/-- Reads a whole document. Each step into the text takes a character or starts a list, so twice
the length is fuel enough. -/
def parse? (text : String) : Option Json := do
  let chars := text.toList
  let (value, rest) ← readValue (2 * chars.length + 2) chars
  if (skipSpaces rest).isEmpty then some value else none

end BinaryFacts.Json
