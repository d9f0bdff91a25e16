/-!
# Operands

Operands in the one form that all instruction sets share.
-/

namespace BinaryFacts

inductive Operand where
  | register (name : String)
  | immediate (value : Int64)
  | indirect (segment base index : String) (scale displacement : Int64) (size : UInt64)
deriving DecidableEq, Inhabited

namespace Operand

/-- The name in a register's place where there is no register. -/
def noRegister : String := "NONE"

end Operand

/-- Operands by number. The first one has number 1; a number is never given again. -/
structure OperandTable where
  operands : List Operand := []
  nodup : operands.Nodup := by exact .nil
deriving DecidableEq

namespace OperandTable

@[ext]
theorem ext {s t : OperandTable} (h : s.operands = t.operands) : s = t := by
  cases s
  cases t
  simp_all

def empty : OperandTable := {}

instance : Inhabited OperandTable := ⟨empty⟩

def size (table : OperandTable) : Nat := table.operands.length

/-- The operand of a number. -/
def get? (table : OperandTable) (index : UInt64) : Option Operand :=
  if index.toNat = 0 then none else table.operands[index.toNat - 1]?

/-- The number of an operand: its place in the table, counted from 1. -/
def indexOf (table : OperandTable) (operand : Operand) : UInt64 :=
  UInt64.ofNat (table.operands.idxOf operand + 1)

/-- The table with `operand` in it, at its end if it is new. -/
def insert (table : OperandTable) (operand : Operand) : OperandTable :=
  if h : operand ∈ table.operands then table
  else
    { operands := table.operands ++ [operand]
      nodup := List.nodup_append.mpr ⟨table.nodup, by simp, by
        intro a ha b hb
        rw [List.mem_singleton.mp hb]
        exact fun hab => h (hab ▸ ha)⟩ }

/-- The number of `operand`, which joins the table if it is new. -/
def add (table : OperandTable) (operand : Operand) : UInt64 × OperandTable :=
  (table.indexOf operand, table.insert operand)

/-- The numbers of operands in turn. -/
def addAll (table : OperandTable) : List Operand → List UInt64 × OperandTable
  | [] => ([], table)
  | operand :: rest =>
    let (index, table) := table.add operand
    let (indices, table) := table.addAll rest
    (index :: indices, table)

/-- The operands with their numbers, in ascending order. -/
def entries (table : OperandTable) : List (UInt64 × Operand) :=
  (table.operands.zipIdx 1).map fun (operand, index) => (UInt64.ofNat index, operand)

theorem mem_insert {table : OperandTable} {operand other : Operand} :
    other ∈ (table.insert operand).operands ↔ other = operand ∨ other ∈ table.operands := by
  unfold insert
  split
  · next h => exact ⟨.inr, fun ho => ho.elim (· ▸ h) id⟩
  · simp [or_comm]

theorem isPrefixOf_insert (table : OperandTable) (operand : Operand) :
    table.operands <+: (table.insert operand).operands := by
  unfold insert
  split
  · exact List.prefix_refl _
  · exact List.prefix_append ..

end OperandTable

/-- Operands in the order of their numbers, and the numbers by operand, the latest in front. -/
structure IndexedOperands where
  ordered : List Operand := []
  numbers : List (Operand × UInt64) := []
deriving DecidableEq

namespace IndexedOperands

def number? (table : IndexedOperands) (operand : Operand) : Option UInt64 :=
  table.numbers.lookup operand

/-- The number of an operand. One that the map does not know joins the list and the map. -/
def add (table : IndexedOperands) (operand : Operand) : UInt64 × IndexedOperands :=
  match table.number? operand with
  | some number => (number, table)
  | none =>
    let number := UInt64.ofNat table.ordered.length + 1
    (number, ⟨table.ordered ++ [operand], (operand, number) :: table.numbers⟩)

def addAll (table : IndexedOperands) : List Operand → List UInt64 × IndexedOperands
  | [] => ([], table)
  | operand :: rest =>
    let (number, table) := table.add operand
    let (numbers, table) := table.addAll rest
    (number :: numbers, table)

def get? (table : IndexedOperands) (number : UInt64) : Option Operand :=
  if number.toNat = 0 then none else table.ordered[number.toNat - 1]?

end IndexedOperands

end BinaryFacts
