import BinaryFacts.Text.Blank
import BinaryFacts.Text.Numeral
import BinaryFacts.Text.Upper
import BinaryFacts.Decoder.Raw

/-!
# Normal instructions

Raw instructions brought into the one form that all instruction sets share. An instruction with an
operand outside that form has no normal form at all.
-/

namespace BinaryFacts

namespace RawRegister

/-- The register's name in capitals, or the name for no register. -/
def normalName (register : RawRegister) : String :=
  if register.id = 0 then Operand.noRegister
  else (register.name.map Text.upper).getD Operand.noRegister

end RawRegister

namespace CodeMode

/-- The normal form of an operand, which only the operands of the mode's instruction set have.
Widths are in bits; they are fixed outside x64. -/
def operand? : CodeMode → RawOperandKind → Option Operand
  | _, .register register => some (.register register.normalName)
  | _, .immediate value => some (.immediate value)
  | .x64, .memory segment base index scale displacement size =>
    some (.indirect segment.normalName base.normalName index.normalName scale displacement
      (size.toUInt64 * 8))
  | .mips32 _, .memory _ base _ _ displacement _ =>
    some (.indirect Operand.noRegister base.normalName Operand.noRegister 1 displacement 32)
  | .arm _, .memory _ base index scale displacement _
  | .thumb _, .memory _ base index scale displacement _ =>
    some (.indirect Operand.noRegister base.normalName index.normalName scale displacement 32)
  | .arm _, .systemRegister register | .thumb _, .systemRegister register =>
    some (.register register.normalName)
  | .arm _, .coprocessorRegister number | .thumb _, .coprocessorRegister number =>
    some (.register ("C" ++ Text.signedDecimal number))
  | .arm _, .coprocessor number | .thumb _, .coprocessor number =>
    some (.register ("P" ++ Text.signedDecimal number))
  | _, _ => none

end CodeMode

/-- The word before the first space of a mnemonic and the rest, both in capitals; the word is empty
where there is no space. -/
def splitMnemonic (text : String) : String × String :=
  let chars := Text.trimChars text.toList
  match chars.dropWhile (· != ' ') with
  | [] => ("", Text.upper (String.ofList chars))
  | _ :: rest =>
    (Text.upper (String.ofList (chars.takeWhile (· != ' '))),
      Text.upper (String.ofList (Text.trimChars rest)))

structure NormalInstruction where
  size : UInt64
  modifier : String
  mnemonic : String
  /-- Operands in the order of the library. -/
  operands : List Operand
deriving DecidableEq, Inhabited

namespace CodeMode

/-- The operands of an instruction, all or none. A MIPS `NOP` is left without operands. -/
def operands? (mode : CodeMode) (raw : RawInstruction) : Option (List Operand) :=
  match mode with
  | .mips32 _ =>
    if Text.upper raw.mnemonic = "NOP" then some []
    else raw.operands.mapM fun operand => mode.operand? operand.kind
  | _ => raw.operands.mapM fun operand => mode.operand? operand.kind

/-- Only x64 mnemonics are split. -/
def mnemonic (mode : CodeMode) (text : String) : String × String :=
  match mode with
  | .x64 => splitMnemonic text
  | _ => ("", Text.upper text)

def normalize? (mode : CodeMode) (raw : RawInstruction) : Option NormalInstruction :=
  (mode.operands? raw).map fun operands =>
    let (modifier, mnemonic) := mode.mnemonic raw.mnemonic
    { size := raw.size, modifier, mnemonic, operands }

end CodeMode

end BinaryFacts
