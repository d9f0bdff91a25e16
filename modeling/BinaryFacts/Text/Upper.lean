import BinaryFacts.Text.UpperTable

/-!
# Upper-casing

Upper-casing of whole texts. A character may become several, so a text can grow.
-/

namespace BinaryFacts.Text

def upperChar (c : Char) : List Char :=
  if c.toNat < 128 then [c.toUpper]
  else match upperSequences.lookup c.toNat with
    | some codes => codes.map Char.ofNat
    | none => match upperRuns.find? (·.covers c.toNat) with
      | some run => [Char.ofNat (c.toNat + run.shift).toNat]
      | none => [c]

def upper (text : String) : String :=
  String.ofList (text.toList.flatMap upperChar)

theorem toList_upper (text : String) :
    (upper text).toList = text.toList.flatMap upperChar := by
  simp [upper]

end BinaryFacts.Text
