import BinaryFacts.Yaml.Scalar

/-!
# Reading YAML

A document of block mappings and sequences, flow mappings and sequences, and scalars. The columns
of the lines say which collection they belong to. There are no anchors, tags, literal blocks or
explicit keys.
-/

namespace BinaryFacts.Yaml

/-- The place behind the colon that makes a node a key. The colon stands on the line where the node
starts. -/
def keyEnd? (flow : Bool) (start node : Place) : Option Place :=
  let p := node.skipLine
  match p.rest with
  | ':' :: rest =>
    if p.line = start.line ∧ (flow ∨ startsBlank rest) then some (p.advance 1) else none
  | _ => none

/-- Whether an entry of a block sequence starts here. -/
def startsItem : List Char → Bool
  | '-' :: rest => startsBlank rest
  | _ => false

mutual

/-- A scalar or a collection in flow style. -/
def flowNode : Nat → Bool → Nat → Place → Option (Yaml × Place)
  | 0, _, _, _ => none
  | fuel + 1, flow, low, p =>
    if p.atMark then none
    else match p.rest with
      | '[' :: _ => (flowItems fuel low (p.advance 1)).map fun (items, p) => (list items, p)
      | '\x7b' :: _ =>
        (flowFields fuel low (p.advance 1)).map fun (fields, p) => (mapping fields, p)
      | _ => scalar? flow low p

/-- The value behind a colon, which may be left out. -/
def flowValue : Nat → Nat → Place → Option (Yaml × Place)
  | 0, _, _ => none
  | fuel + 1, low, p =>
    let p := p.skip true true
    match p.rest with
    | ',' :: _ | ']' :: _ | '\x7d' :: _ => some (empty, p)
    | _ => flowNode fuel true low p

/-- The items up to the closing bracket. A key with its value is an item too. -/
def flowItems : Nat → Nat → Place → Option (List Yaml × Place)
  | 0, _, _ => none
  | fuel + 1, low, p =>
    let p := p.skip true true
    match p.rest with
    | ']' :: _ => some ([], p.advance 1)
    | _ => do
      let (node, after) ← flowNode fuel true low p
      let (item, after) ← match keyEnd? true p after with
        | none => some (node, after)
        | some colon => (flowValue fuel low colon).map fun (value, after) =>
          (mapping [(node, value)], after)
      let after := after.skip true true
      match after.rest with
      | ',' :: _ =>
        let (items, after) ← flowItems fuel low (after.advance 1)
        return (item :: items, after)
      | ']' :: _ => return ([item], after.advance 1)
      | _ => none

/-- The fields up to the closing brace. A key may stand without a value. -/
def flowFields : Nat → Nat → Place → Option (List (Yaml × Yaml) × Place)
  | 0, _, _ => none
  | fuel + 1, low, p =>
    let p := p.skip true true
    match p.rest with
    | '\x7d' :: _ => some ([], p.advance 1)
    | _ => do
      let (key, after) ← flowNode fuel true low p
      let (value, after) ← match keyEnd? true p after with
        | none => some (empty, after)
        | some colon => flowValue fuel low colon
      let after := after.skip true true
      match after.rest with
      | ',' :: _ =>
        let (fields, after) ← flowFields fuel low (after.advance 1)
        return ((key, value) :: fields, after)
      | '\x7d' :: _ => return ([(key, value)], after.advance 1)
      | _ => none

end

mutual

/-- A node whose lines start at column `low` or behind it, or at `itemLow` where they are those of a
sequence. A collection in block style starts on a line of its own, or where `collections` allows
it. -/
def blockNode : Nat → Nat → Nat → Bool → Place → Option (Yaml × Place)
  | 0, _, _, _, _ => none
  | fuel + 1, low, itemLow, collections, p =>
    let start := p.skip false (!collections)
    let later := start.line != p.line
    let collections := collections || later
    if start.rest.isEmpty || start.atMark then some (empty, start)
    else if startsItem start.rest then
      if later && start.column < itemLow then some (empty, start)
      else if collections then
        (blockItems fuel low start).map fun (items, p) => (list items, p)
      else none
    else if later && start.column < low then some (empty, start)
    else do
      let (node, after) ← flowNode fuel false low start
      match keyEnd? false start after with
      | none => return (node, after)
      | some colon =>
        if collections then
          (blockFields fuel start.column node colon).map fun (fields, p) => (mapping fields, p)
        else none

/-- The items of a sequence from its next dash on. Beside the key of a mapping, a sequence may end
at its own column. -/
def blockItems : Nat → Nat → Place → Option (List Yaml × Place)
  | 0, _, _ => none
  | fuel + 1, low, dash => do
    let column := dash.column
    let (item, after) ← blockNode fuel (column + 1) (column + 1) true (dash.advance 1)
    let next := after.skip false true
    if next.rest.isEmpty || next.atMark || next.column < column then return ([item], next)
    else if next.column > column then none
    else if startsItem next.rest then
      let (items, after) ← blockItems fuel low next
      return (item :: items, after)
    else if column < low then return ([item], next)
    else none

/-- The fields of a mapping at `column`, of which the first key has been read. -/
def blockFields : Nat → Nat → Yaml → Place → Option (List (Yaml × Yaml) × Place)
  | 0, _, _, _ => none
  | fuel + 1, column, key, colon => do
    let (value, after) ← blockNode fuel (column + 1) column false colon
    let next := after.skip false true
    if next.rest.isEmpty || next.atMark || next.column < column then
      return ([(key, value)], next)
    else if next.column > column || startsItem next.rest then none
    else
      let (nextKey, after) ← flowNode fuel false (column + 1) next
      let colon ← keyEnd? false next after
      let (fields, after) ← blockFields fuel column nextKey colon
      return ((key, value) :: fields, after)

end

/-- The characters that a document may hold. -/
def isAllowed (c : Char) : Bool :=
  let code := c.toNat
  code == 9 || code == 10 || (0x20 ≤ code && code ≤ 0x7e) || code == 0x85 ||
    (0xa0 ≤ code && code ≤ 0xfffd && code != 0xfeff) || 0x10000 ≤ code

/-- Carriage returns and next-line characters as line feeds. -/
def joinBreaks : List Char → List Char
  | '\r' :: '\n' :: rest => '\n' :: joinBreaks rest
  | '\r' :: rest | '\u0085' :: rest => '\n' :: joinBreaks rest
  | c :: rest => c :: joinBreaks rest
  | [] => []

/-- Whether nothing but at most `fuel` marks of the document's end follows. -/
def atEnd : Nat → Place → Bool
  | 0, _ => false
  | fuel + 1, p =>
    let p := p.skip false true
    p.rest.isEmpty ||
      (p.column == 0 && p.rest.take 3 == ['.', '.', '.'] && startsBlank (p.rest.drop 3) &&
        atEnd fuel (p.advance 3))

/-- Reads the only document of a text; an empty text holds none. Between two characters that it
takes, the reader starts fewer than four nodes. -/
def parse? (text : String) : Option Yaml := do
  let chars := joinBreaks (match text.toList with | '\ufeff' :: rest => rest | chars => chars)
  if !chars.all isAllowed then none
  let p := (Place.mk chars 0 0).skip false false
  if p.rest.isEmpty then none
  let marked := p.column == 0 && p.rest.take 3 == ['-', '-', '-'] && startsBlank (p.rest.drop 3)
  let (node, after) ←
    blockNode (4 * chars.length + 4) 0 0 (!marked) (if marked then p.advance 3 else p)
  if atEnd (after.rest.length + 1) after then some node else none

end BinaryFacts.Yaml
