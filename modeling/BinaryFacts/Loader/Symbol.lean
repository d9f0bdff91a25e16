import BinaryFacts.Loader.Basic

/-!
# Loaders of symbols and dynamic entries
-/

namespace BinaryFacts

namespace Loader

/-- Only a symbol with an address has a row. -/
def symbolRow? (symbol : Symbol) : Option Row :=
  symbol.address.map fun address =>
    [.unsigned address, .unsigned symbol.size, .symbol symbol.kind, .symbol symbol.binding,
      .symbol symbol.visibility, .unsigned symbol.sectionIndex, .symbol symbol.name]

def symbols : Loader := fun binary store =>
  store.insert "elf_symbol" (binary.symbols.filterMap symbolRow?)

def dynamicEntries : Loader := fun binary store =>
  store.insert "dynamic_entry"
    (binary.dynamicEntries.map fun entry => [.symbol entry.tag, .unsigned entry.value])

end Loader

end BinaryFacts
