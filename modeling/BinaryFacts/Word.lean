/-!
# Words in memory

Byte orders and the number that a run of bytes spells in each.
-/

namespace BinaryFacts

inductive Endian where
  | little
  | big
deriving DecidableEq, Inhabited

namespace Endian

def name : Endian → String
  | little => "Little"
  | big => "Big"

/-- The bytes from the most significant one down. -/
def significant : Endian → List UInt8 → List UInt8
  | little, bytes => bytes.reverse
  | big, bytes => bytes

/-- The positional value of bytes in radix 256, modulo the size of a word. -/
def value (order : Endian) (bytes : List UInt8) : UInt64 :=
  (order.significant bytes).foldl (fun high byte => high * 256 + byte.toUInt64) 0

end Endian

/-- The sum of two words, none if it does not fit in a word. -/
def checkedSum? (x y : UInt64) : Option UInt64 :=
  if x.toNat + y.toNat < UInt64.size then some (x + y) else none

/-- A run of bytes of a file, none unless all of it lies in the file. -/
def fileSlice? (file : List UInt8) (offset size : Nat) : Option (List UInt8) :=
  if offset + size ≤ file.length then some ((file.drop offset).take size) else none

theorem fileSlice?_eq_some_iff {file : List UInt8} {offset size : Nat} {bytes : List UInt8} :
    fileSlice? file offset size = some bytes ↔
      offset + size ≤ file.length ∧ bytes = (file.drop offset).take size := by
  simp [fileSlice?, eq_comm]

theorem length_of_fileSlice? {file : List UInt8} {offset size : Nat} {bytes : List UInt8}
    (h : fileSlice? file offset size = some bytes) : bytes.length = size := by
  obtain ⟨hfit, rfl⟩ := fileSlice?_eq_some_iff.mp h
  simp only [List.length_take, List.length_drop]
  omega

end BinaryFacts
