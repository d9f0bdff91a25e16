/-!
# Paths

File paths with slashes between their parts.
-/

namespace BinaryFacts.Path

/-- The parts of a text between occurrences of `mark`, of which there is at least one. -/
def splitChars (mark : Char) : List Char → List (List Char)
  | [] => [[]]
  | c :: rest =>
    if c = mark then [] :: splitChars mark rest
    else match splitChars mark rest with
      | [] => [[c]]
      | part :: parts => (c :: part) :: parts

/-- The parts that name something: neither empty nor a single dot. -/
def parts (path : String) : List String :=
  ((splitChars '/' path.toList).map String.ofList).filter fun part => part != "" && part != "."

def isAbsolute (path : String) : Bool := path.toList.head? == some '/'

/-- A relative path from `directory` on. -/
def resolve (directory path : String) : String :=
  if isAbsolute path then path
  else if directory.toList.getLast? == some '/' then directory ++ path
  else directory ++ "/" ++ path

/-- The last part of a path, unless it leads upwards. -/
def fileName? (path : String) : Option String :=
  (parts path).getLast?.filter (· != "..")

/-- What follows the last dot of the file name. A dot at its start does not count. -/
def extension (path : String) : String :=
  match fileName? path with
  | none => ""
  | some name => match name.toList.reverse.dropWhile (· != '.') with
    | [] | [_] => ""
    | _ => String.ofList (name.toList.reverse.takeWhile (· != '.')).reverse

end BinaryFacts.Path
