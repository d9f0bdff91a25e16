/-!
# Arguments

The commands of the program and the options that they take. Every option is given at most once;
the value of an option follows it, after a blank or an equals sign.
-/

namespace BinaryFacts

/-- What the command `facts` is asked to do. -/
structure FactsRequest where
  binary : String
  /-- Whether the file is machine code without a container. -/
  raw : Bool := false
  isa : Option String := none
  endian : String := "le"
  base : String := "0"
  json : Bool := false
deriving DecidableEq, Inhabited

inductive Command where
  | targets (json : Bool)
  | facts (request : FactsRequest)
  | plan (config : String) (json : Bool)
deriving DecidableEq, Inhabited

inductive Request where
  | version
  | run (command : Command)
deriving DecidableEq, Inhabited

namespace Command

/-- The options of a command by their long names. -/
structure Options where
  flags : List String
  values : List String

/-- An option as it was given, with its value if it takes one. -/
abbrev Given := String × Option String

/-- The name and the value of an argument such as `--base=0`. -/
def splitOption (chars : List Char) : Given :=
  let name := String.ofList (chars.takeWhile (· != '='))
  match chars.dropWhile (· != '=') with
  | [] => (name, none)
  | _ :: value => (name, some (String.ofList value))

/-- Whether an argument is read as an option wherever it stands. -/
def looksLikeOption (argument : String) : Bool :=
  match argument.toList with
  | '-' :: _ :: _ => true
  | _ => false

/-- The options of a command line without other arguments. The letter `v` is short for `verbose`. -/
def scan? (options : Options) : List String → Option (List Given)
  | [] => some []
  | argument :: rest =>
    match argument.toList with
    | ['-', '-'] => if rest.isEmpty then some [] else none
    | '-' :: '-' :: chars =>
      match splitOption chars with
      | (name, some value) =>
        if name ∈ options.values then (scan? options rest).map ((name, some value) :: ·) else none
      | (name, none) =>
        if name ∈ options.flags then (scan? options rest).map ((name, none) :: ·)
        else if name ∈ options.values then
          match rest with
          | [] => none
          | value :: rest =>
            if looksLikeOption value then none
            else (scan? options rest).map ((name, some value) :: ·)
        else none
    | '-' :: 'v' :: letters =>
      if letters.all (· == 'v') then
        (scan? options rest).map (('v' :: letters).map (fun _ => ("verbose", none)) ++ ·)
      else none
    | _ => none

/-- The options of a command line, each given once. -/
def options? (options : Options) (arguments : List String) : Option (List Given) := do
  let given ← scan? options arguments
  if (given.map Prod.fst).Nodup then some given else none

def hasFlag (given : List Given) (name : String) : Bool := given.any (·.1 == name)

def value? (given : List Given) (name : String) : Option String := (given.lookup name).join

/-- The command of a name with its arguments. An instruction set goes with raw code only. -/
def ofArguments? (name : String) (arguments : List String) : Option Command :=
  match name with
  | "targets" => do
    let given ← options? ⟨["json", "verbose"], []⟩ arguments
    return .targets (hasFlag given "json")
  | "facts" => do
    let given ← options? ⟨["raw", "json", "verbose"], ["binary", "isa", "endian", "base"]⟩ arguments
    let isa := value? given "isa"
    if isa.isSome && !hasFlag given "raw" then none
    return .facts {
      binary := ← value? given "binary"
      raw := hasFlag given "raw"
      isa
      endian := (value? given "endian").getD "le"
      base := (value? given "base").getD "0"
      json := hasFlag given "json" }
  | "plan" => do
    let given ← options? ⟨["json", "verbose"], ["config"]⟩ arguments
    return .plan (← value? given "config") (hasFlag given "json")
  | _ => none

end Command

namespace Request

/-- What the letters behind a dash ask for before a command: the version at a `V`, and at most one
`v` in all. -/
inductive Letters where
  | version
  | verbose (seen : Bool)
  | wrong

def Letters.read : Bool → List Char → Letters
  | seen, [] => .verbose seen
  | seen, c :: rest =>
    if c = 'V' then .version
    else if c = 'v' && !seen then read true rest
    else .wrong

/-- The request of a command line, none where its usage is wrong. -/
def ofArgumentsFrom? (verbose : Bool) : List String → Option Request
  | [] => none
  | argument :: rest =>
    match argument.toList with
    | '-' :: '-' :: _ =>
      if argument = "--version" then some .version
      else if argument = "--verbose" && !verbose then ofArgumentsFrom? true rest
      else none
    | '-' :: letter :: letters =>
      match Letters.read verbose (letter :: letters) with
      | .version => some .version
      | .verbose seen => ofArgumentsFrom? seen rest
      | .wrong => none
    | _ => (Command.ofArguments? argument rest).map .run

def ofArguments? (arguments : List String) : Option Request := ofArgumentsFrom? false arguments

end Request

end BinaryFacts
