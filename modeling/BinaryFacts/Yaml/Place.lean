/-!
# Places in a YAML text

What is left to read, with its line and column, and the blanks, comments and marks between nodes.
-/

namespace BinaryFacts

/-- A node of a document. -/
inductive Yaml where
  /-- A text; `plain` where it stands without quotes. -/
  | scalar (plain : Bool) (text : String)
  | list (items : List Yaml)
  | mapping (fields : List (Yaml × Yaml))
deriving Inhabited

namespace Yaml

/-- The node where nothing is written. -/
def empty : Yaml := scalar true ""

structure Place where
  rest : List Char
  line : Nat := 0
  column : Nat := 0
deriving DecidableEq, Inhabited

/-- Whether a character ends a line: a line feed, or one of the two separators. -/
def isBreak (c : Char) : Bool := c == '\n' || c == '\u2028' || c == '\u2029'

/-- Whether a blank, a line break or the end comes first. -/
def startsBlank : List Char → Bool
  | [] => true
  | c :: _ => c == ' ' || c == '\t' || isBreak c

/-- Whether a line that starts with these characters begins or ends a document. -/
def startsMark : List Char → Bool
  | '-' :: '-' :: '-' :: rest => startsBlank rest
  | '.' :: '.' :: '.' :: rest => startsBlank rest
  | _ => false

/-- Passes over blanks, comments and line breaks. Tabs count as blanks while `tabs` holds, and at
the start of a line only in flow style. -/
def skipFrom (flow : Bool) : Bool → Bool → Nat → Nat → List Char → Place
  | _, _, line, column, [] => ⟨[], line, column⟩
  | tabs, comment, line, column, c :: rest =>
    if isBreak c then skipFrom flow flow false (line + 1) 0 rest
    else if comment || c = ' ' || (c = '\t' && tabs) then
      skipFrom flow tabs comment line (column + 1) rest
    else if c = '#' then skipFrom flow tabs true line (column + 1) rest
    else ⟨c :: rest, line, column⟩

namespace Place

/-- The place after the first `count` characters, which are on one line. -/
def advance (p : Place) (count : Nat) : Place :=
  { p with rest := p.rest.drop count, column := p.column + count }

def skip (p : Place) (flow tabs : Bool) : Place := skipFrom flow tabs false p.line p.column p.rest

/-- The place after blanks on the line. -/
def skipLine (p : Place) : Place :=
  p.advance (p.rest.takeWhile fun c => c == ' ' || c == '\t').length

def atMark (p : Place) : Bool := p.column == 0 && startsMark p.rest

end Place

end Yaml

end BinaryFacts
