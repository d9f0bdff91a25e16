import BinaryFacts.Json.Basic
import BinaryFacts.Text.Numeral

/-!
# Writing JSON

Writing a JSON document, on one line or indented by two blanks for each level.
-/

namespace BinaryFacts.Json

def escapeChar (c : Char) : String :=
  match c with
  | '"' => "\\\""
  | '\\' => "\\\\"
  | '\n' => "\\n"
  | '\r' => "\\r"
  | '\t' => "\\t"
  | _ =>
    if c.toNat == 8 then "\\b"
    else if c.toNat == 12 then "\\f"
    else if c.toNat < 0x10 then "\\u000" ++ Text.hexadecimal c.toNat
    else if c.toNat < 0x20 then "\\u00" ++ Text.hexadecimal c.toNat
    else c.toString

def quote (text : String) : String :=
  "\"" ++ String.join (text.toList.map escapeChar) ++ "\""

mutual

/-- The document on one line. -/
def compact : Json → String
  | null => "null"
  | bool value => if value then "true" else "false"
  | integer value => Text.signedDecimal value
  | fraction literal => literal
  | string value => quote value
  | list items => "[" ++ String.intercalate "," (compactItems items) ++ "]"
  | object fields => "\x7b" ++ String.intercalate "," (compactFields fields) ++ "\x7d"
  | garbled => "null"

def compactItems : List Json → List String
  | [] => []
  | item :: rest => item.compact :: compactItems rest

def compactFields : List (String × Json) → List String
  | [] => []
  | (name, value) :: rest => (quote name ++ ":" ++ value.compact) :: compactFields rest

end

def indent (level : Nat) : String := "\n" ++ String.ofList (List.replicate (2 * level) ' ')

mutual

/-- The document from nesting `level` on, each item and field on a line of its own. -/
def prettyAt (level : Nat) : Json → String
  | list items => match items with
    | [] => "[]"
    | _ :: _ =>
      "[" ++ String.intercalate "," (prettyItems (level + 1) items) ++ indent level ++ "]"
  | object fields => match fields with
    | [] => "\x7b\x7d"
    | _ :: _ =>
      "\x7b" ++ String.intercalate "," (prettyFields (level + 1) fields) ++ indent level ++ "\x7d"
  | null => "null"
  | bool value => if value then "true" else "false"
  | integer value => Text.signedDecimal value
  | fraction literal => literal
  | string value => quote value
  | garbled => "null"

def prettyItems (level : Nat) : List Json → List String
  | [] => []
  | item :: rest => (indent level ++ item.prettyAt level) :: prettyItems level rest

def prettyFields (level : Nat) : List (String × Json) → List String
  | [] => []
  | (name, value) :: rest =>
    (indent level ++ quote name ++ ": " ++ value.prettyAt level) :: prettyFields level rest

end

def pretty (document : Json) : String := document.prettyAt 0

end BinaryFacts.Json
