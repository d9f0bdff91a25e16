import BinaryFacts.Binary.Report
import BinaryFacts.Analysis.Config
import BinaryFacts.CommandLine.Address
import BinaryFacts.CommandLine.Arguments

/-!
# Commands

What each command answers, given the files and the libraries it works with.
-/

namespace BinaryFacts

structure Environment where
  /-- The directory that relative paths start from. -/
  directory : String
  read : String → Option (List UInt8)
  parseContainer : List UInt8 → ContainerReport
  disassemble : Disassembler
  json : JsonLibrary

/-- Why no binary is loaded. -/
inductive BinaryError where
  | unreadable (path : String)
  | unparsable (path : String)
  /-- The addresses of an image do not fit, which stops the program. -/
  | overflow
  | missingIsa
  | unknownIsa (name : String)
  | unknownByteOrder (text : String)
  | invalidAddress (text : String)
deriving DecidableEq

def BinaryError.message : BinaryError → String
  | unreadable path => "Failed to read binary at " ++ path
  | unparsable path => "Failed to parse binary at " ++ path
  | overflow => "attempt to add with overflow"
  | missingIsa => "--raw requires --isa"
  | unknownIsa name => "Unknown ISA '" ++ name ++ "'"
  | unknownByteOrder text => "Invalid byte order '" ++ text ++ "' (expected be or le)"
  | invalidAddress text => "Invalid address: " ++ text

inductive CommandError where
  | binary (error : BinaryError)
  | target (error : TargetError)
  | instantiation (program : String)
  | config (error : ConfigError)
  | plan (error : PlanError)
deriving DecidableEq

def CommandError.message : CommandError → String
  | binary error => error.message
  | target error => error.message
  | instantiation program => "Rule program '" ++ program ++ "' could not be instantiated"
  | config error => error.message
  | plan error => error.message

/-- Reads a byte order, in letters of either case. An error shows the text in lower case. -/
def parseByteOrder (text : String) : Except BinaryError ByteOrder :=
  match text.toLower with
  | "be" | "big" => .ok .big
  | "le" | "little" => .ok .little
  | text => .error (.unknownByteOrder text)

def parseAddress (text : String) : Except BinaryError UInt64 :=
  match parseAddress? text with
  | some address => .ok address
  | none => .error (.invalidAddress (Text.trim text))

namespace FactsRequest

/-- Raw code as a binary. -/
def rawBinary (request : FactsRequest) (name : String) (bytes : List UInt8) :
    Except BinaryError Binary := do
  match request.isa with
  | none => .error .missingIsa
  | some isaName => match Isa.ofSpelling? isaName with
    | none => .error (.unknownIsa isaName)
    | some isa =>
      let byteOrder ← parseByteOrder request.endian
      let base ← parseAddress request.base
      return { Binary.raw bytes isa byteOrder base with name }

/-- Reads the file of a request as the request says. -/
def loadBinary (request : FactsRequest) (environment : Environment) :
    Except BinaryError Binary :=
  let path := Path.resolve environment.directory request.binary
  match environment.read path with
  | none => .error (.unreadable path)
  | some bytes =>
    let name := (Path.fileName? path).getD request.binary
    if request.raw then request.rawBinary name bytes
    else (Binary.ofFile name bytes (environment.parseContainer bytes)).mapError fun
      | .rejected _ => .unparsable path
      | .overflow => .overflow

end FactsRequest

def lines (texts : List String) : String := String.join (texts.map (· ++ "\n"))

namespace Command

/-- The facts of a binary, counted. -/
structure FactsSummary where
  binary : String
  target : TargetDescriptor
  program : String
  relations : List (String × Nat)
deriving DecidableEq, Inhabited

namespace FactsSummary

def toJson (library : JsonLibrary) (summary : FactsSummary) : Json :=
  library.ofRecord [("binary", library.ofString summary.binary),
    ("target", summary.target.toJson library), ("program", library.ofString summary.program),
    ("relations", library.ofMap id (fun count => library.ofUInt64 (UInt64.ofNat count))
      summary.relations)]

def toText (summary : FactsSummary) : String :=
  lines (["Facts for " ++ summary.binary, "  Target: " ++ summary.target.display,
    "  Program: " ++ summary.program, "  Relations:"] ++
    summary.relations.map fun (name, count) => "    " ++ name ++ ": " ++ Text.decimal count)

end FactsSummary

/-- An engine with a program for every target, none of which derives anything. -/
def emptyEngine (registry : TargetRegistry) : RuleEngine :=
  (registry.programs.foldl RuleBook.registerEmpty .empty).engine

def summarize (environment : Environment) (binary : Binary) :
    Except CommandError FactsSummary := do
  let registry := TargetRegistry.builtin
  let pipeline ←
    (registry.pipeline environment.disassemble binary.descriptor).mapError CommandError.target
  match pipeline.load? (emptyEngine registry) binary with
  | none => .error (.instantiation pipeline.name)
  | some store => .ok {
      binary := binary.name
      target := binary.descriptor
      program := pipeline.name
      relations := store.summary }

def factsOutput (environment : Environment) (request : FactsRequest) :
    Except CommandError String := do
  let binary ← (request.loadBinary environment).mapError CommandError.binary
  let summary ← summarize environment binary
  return if request.json then
    environment.json.pretty (summary.toJson environment.json) ++ "\n"
  else
    summary.toText

def targetToJson (library : JsonLibrary) (spec : TargetSpec) : Json :=
  library.ofRecord [("target", library.ofString spec.descriptor.display),
    ("descriptor", spec.descriptor.toJson library), ("program", library.ofString spec.program)]

def targetsOutput (library : JsonLibrary) (json : Bool) : String :=
  let specs := TargetRegistry.builtin.specs
  if json then library.pretty (library.ofList (targetToJson library) specs) ++ "\n"
  else if specs.isEmpty then lines ["Targets: (none)"]
  else lines ("Targets:" ::
    specs.map fun spec => "- " ++ spec.descriptor.display ++ ": " ++ spec.program)

/-- A pass as a plan shows it. -/
def passToJson (library : JsonLibrary) (pass : AnalysisPass) : Json :=
  library.ofRecord [("name", library.ofString pass.name),
    ("ruleset", library.ofString pass.ruleset),
    ("dependency", library.ofOption library.ofString pass.dependency),
    ("load", library.ofBool pass.load.isSome), ("transform", library.ofBool pass.transform.isSome)]

def planToJson (library : JsonLibrary) (pipeline : PassPipeline) : Json :=
  library.ofRecord [("pipeline", library.ofString pipeline.name),
    ("passes", library.ofList (passToJson library) pipeline.passes)]

def passLine (index : Nat) (pass : AnalysisPass) : String :=
  "  " ++ Text.decimal (index + 1) ++ ". " ++ pass.name ++ " [" ++ pass.ruleset ++ "]" ++
    match pass.dependency with
    | some dependency => " after '" ++ dependency ++ "'"
    | none => ""

def planToText (pipeline : PassPipeline) : String :=
  lines (("Pipeline: " ++ pipeline.name) :: pipeline.passes.mapIdx passLine)

def planOutput (environment : Environment) (config : String) (json : Bool) :
    Except CommandError String := do
  let path := Path.resolve environment.directory config
  let config ←
    (PipelineConfig.load environment.json environment.read path).mapError CommandError.config
  let pipeline ← config.build.mapError CommandError.plan
  return if json then
    environment.json.pretty (planToJson environment.json pipeline) ++ "\n"
  else
    planToText pipeline

def output (environment : Environment) : Command → Except CommandError String
  | targets json => .ok (targetsOutput environment.json json)
  | facts request => factsOutput environment request
  | plan config json => planOutput environment config json

/-- The file that a command reads. -/
def file? : Command → Option String
  | targets _ => none
  | facts request => some request.binary
  | plan config _ => some config

end Command

/-- How the program ends: its exit code, what it prints, and the error it shows, if any. -/
structure Outcome where
  code : UInt32
  output : String := ""
  error : Option String := none
deriving DecidableEq, Inhabited

/-- The version of the program. -/
def version : String := "0.1.0"

/-- A command that fails ends with code 1 and shows its error, unless the program was stopped. -/
def CommandError.outcome : CommandError → Outcome
  | binary .overflow => { code := 101 }
  | error => { code := 1, error := some error.message }

/-- Runs the program. Wrong usage ends with code 2. -/
def run (environment : Environment) (arguments : List String) : Outcome :=
  match Request.ofArguments? arguments with
  | none => { code := 2 }
  | some .version => { code := 0, output := lines ["disasm-facts " ++ version] }
  | some (.run command) => match command.output environment with
    | .ok output => { code := 0, output }
    | .error error => error.outcome

end BinaryFacts
