import BinaryFacts.Text.Blank
import BinaryFacts.Text.Numeral

/-!
# Addresses on the command line
-/

namespace BinaryFacts

/-- Reads an address with blanks around it: decimal, or hexadecimal behind `0x` or `0X`. -/
def parseAddress? (text : String) : Option UInt64 :=
  match Text.trimChars text.toList with
  | '0' :: 'x' :: digits | '0' :: 'X' :: digits => Text.word? 16 digits
  | digits => Text.word? 10 digits

end BinaryFacts
