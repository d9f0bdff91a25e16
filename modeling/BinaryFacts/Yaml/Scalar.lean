import BinaryFacts.Text.Numeral
import BinaryFacts.Yaml.Place

/-!
# YAML scalars

Texts without quotes, in single quotes and in double quotes. A line feed inside a text becomes a
space if it stands alone, and vanishes if other line breaks follow, which stay.
-/

namespace BinaryFacts.Yaml

/-- What stands between two words of a text. -/
structure Gap where
  /-- Blanks before the first line break, the last one first. -/
  blanks : List Char := []
  /-- Line breaks, the last one first. -/
  breaks : List Char := []
  /-- Whether there is an escaped line break before all others. It leaves no trace. -/
  joined : Bool := false

namespace Gap

def isOpen (gap : Gap) : Bool := !gap.breaks.isEmpty || gap.joined

/-- Adds the gap to a text that is kept in reverse. -/
def close (gap : Gap) (text : List Char) : List Char :=
  if gap.joined then gap.breaks ++ text
  else match gap.breaks with
    | [] => gap.blanks ++ text
    | ['\n'] => ' ' :: text
    | breaks =>
      if breaks.getLast? = some '\n' then breaks.dropLast ++ text else breaks ++ text

def addBlank (gap : Gap) (c : Char) : Gap :=
  if gap.isOpen then gap else { gap with blanks := c :: gap.blanks }

def addBreak (gap : Gap) (c : Char) : Gap := { gap with breaks := c :: gap.breaks }

end Gap

def isFlowMark (c : Char) : Bool := c == ',' || c == '[' || c == ']' || c == '\x7b' || c == '\x7d'

/-- Whether a plain scalar can start here. -/
def startsPlain (flow : Bool) : List Char → Bool
  | [] => false
  | c :: rest =>
    if c == '-' || (!flow && (c == '?' || c == ':')) then !startsBlank rest
    else !startsBlank [c] && !isFlowMark c && !"-?:#&*!|>'\"%@\x60".toList.contains c

/-- The rest of a plain scalar. In block style its later lines start at column `low` or behind it;
in no style does a tab stand before that column. -/
def plainFrom (flow : Bool) (low : Nat) :
    List Char → Gap → Nat → Nat → List Char → Option (String × Place)
  | text, _, line, column, [] => some (String.ofList text.reverse, ⟨[], line, column⟩)
  | text, gap, line, column, c :: rest =>
    let stop := some (String.ofList text.reverse, (⟨c :: rest, line, column⟩ : Place))
    if isBreak c then plainFrom flow low text (gap.addBreak c) (line + 1) 0 rest
    else if c = ' ' ∨ c = '\t' then
      if c = '\t' ∧ gap.breaks ≠ [] ∧ column < low then none
      else plainFrom flow low text (gap.addBlank c) line (column + 1) rest
    else if column = 0 ∧ startsMark (c :: rest) then stop
    else if c = '#' ∧ (gap.breaks ≠ [] ∨ gap.blanks ≠ []) then stop
    else if gap.breaks ≠ [] ∧ !flow ∧ column < low then stop
    else if c = ':' ∧ startsBlank rest then stop
    else if flow ∧ isFlowMark c then stop
    else if flow ∧ c = ':' ∧ (rest.take 1).any (fun c => isFlowMark c || c == '?') then none
    else plainFrom flow low (c :: gap.close text) {} line (column + 1) rest

/-- The rest of a text in single quotes, where two quotes stand for one. -/
def singleFrom : List Char → Gap → Nat → Nat → List Char → Option (String × Place)
  | _, _, _, _, [] => none
  | text, gap, line, column, '\'' :: '\'' :: rest =>
    singleFrom ('\'' :: gap.close text) {} line (column + 2) rest
  | text, gap, line, column, c :: rest =>
    if column = 0 ∧ startsMark (c :: rest) then none
    else if c = '\'' then
      some (String.ofList (gap.close text).reverse, ⟨rest, line, column + 1⟩)
    else if isBreak c then singleFrom text (gap.addBreak c) (line + 1) 0 rest
    else if c = ' ' ∨ c = '\t' then singleFrom text (gap.addBlank c) line (column + 1) rest
    else singleFrom (c :: gap.close text) {} line (column + 1) rest

/-- The characters that a letter stands for behind a backslash. -/
def escapes : List (Char × Char) :=
  [('0', '\x00'), ('a', '\x07'), ('b', '\x08'), ('t', '\t'), ('\t', '\t'), ('n', '\n'),
    ('v', '\x0b'), ('f', '\x0c'), ('r', '\r'), ('e', '\x1b'), (' ', ' '), ('"', '"'), ('/', '/'),
    ('\\', '\\'), ('N', '\u0085'), ('_', '\u00a0'), ('L', '\u2028'), ('P', '\u2029')]

/-- The character of a hexadecimal number. -/
def codePoint? (digits : List Char) : Option Char := do
  let code ← Text.digits? 16 digits
  if code < 0xd800 ∨ (0xdfff < code ∧ code < 0x110000) then some (Char.ofNat code) else none

/-- The rest of a text in double quotes. -/
def doubleFrom : List Char → Gap → Nat → Nat → List Char → Option (String × Place)
  | _, _, _, _, [] => none
  | text, gap, line, column, '\\' :: 'x' :: a :: b :: rest => do
    doubleFrom ((← codePoint? [a, b]) :: gap.close text) {} line (column + 4) rest
  | text, gap, line, column, '\\' :: 'u' :: a :: b :: c :: d :: rest => do
    doubleFrom ((← codePoint? [a, b, c, d]) :: gap.close text) {} line (column + 6) rest
  | text, gap, line, column, '\\' :: 'U' :: a :: b :: c :: d :: e :: f :: g :: h :: rest => do
    doubleFrom ((← codePoint? [a, b, c, d, e, f, g, h]) :: gap.close text) {} line (column + 10)
      rest
  | text, gap, line, column, '\\' :: letter :: rest =>
    if isBreak letter then doubleFrom (gap.close text) { joined := true } (line + 1) 0 rest
    else do
      doubleFrom ((← escapes.lookup letter) :: gap.close text) {} line (column + 2) rest
  | text, gap, line, column, c :: rest =>
    if column = 0 ∧ startsMark (c :: rest) then none
    else if c = '"' then
      some (String.ofList (gap.close text).reverse, ⟨rest, line, column + 1⟩)
    else if isBreak c then doubleFrom text (gap.addBreak c) (line + 1) 0 rest
    else if c = ' ' ∨ c = '\t' then doubleFrom text (gap.addBlank c) line (column + 1) rest
    else doubleFrom (c :: gap.close text) {} line (column + 1) rest

/-- A scalar of any style. -/
def scalar? (flow : Bool) (low : Nat) (p : Place) : Option (Yaml × Place) :=
  match p.rest with
  | '\'' :: rest => (singleFrom [] {} p.line (p.column + 1) rest).map fun (text, p) =>
    (scalar false text, p)
  | '"' :: rest => (doubleFrom [] {} p.line (p.column + 1) rest).map fun (text, p) =>
    (scalar false text, p)
  | rest =>
    if startsPlain flow rest then
      (plainFrom flow low [] {} p.line p.column rest).map fun (text, p) => (scalar true text, p)
    else none

end BinaryFacts.Yaml
