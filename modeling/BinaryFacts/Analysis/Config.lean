import BinaryFacts.Json.Library
import BinaryFacts.Yaml.Reader
import BinaryFacts.Path
import BinaryFacts.Analysis.Builtin
import BinaryFacts.Analysis.Pipeline

/-!
# Pipeline configurations

The passes of a pipeline by name, as a configuration file lists them in JSON or YAML. A pipeline is
built only of known passes whose dependencies run earlier.
-/

namespace BinaryFacts

structure PipelineConfig where
  name : String
  passes : List String
deriving DecidableEq, Inhabited

/-- Why a configuration describes no pipeline. -/
inductive PlanError where
  | unknownPass (name : String)
  | pipeline (error : PipelineError)
deriving DecidableEq

def PlanError.message : PlanError → String
  | unknownPass name => "unknown pass '" ++ name ++ "'"
  | pipeline error => error.message

inductive ConfigFormat where
  | json
  | yaml
deriving DecidableEq, Inhabited

def ConfigFormat.label : ConfigFormat → String
  | json => "JSON"
  | yaml => "YAML"

/-- Why a file holds no configuration. -/
inductive ConfigError where
  | unreadable (path : String)
  | malformed (format : ConfigFormat) (path : String)
  | unsupportedFormat (extension : String)
deriving DecidableEq

def ConfigError.message : ConfigError → String
  | unreadable path => "Failed to read pipeline config at " ++ path
  | malformed format path => "Failed to parse " ++ format.label ++ " config " ++ path
  | unsupportedFormat extension =>
    "unsupported config format '" ++ extension ++ "' (expected .json, .yaml or .yml)"

namespace PipelineConfig

/-- All built-in passes. -/
def standard : PipelineConfig :=
  { name := "default", passes := AnalysisPass.builtin.map (·.name) }

def findPass (name : String) : Except PlanError AnalysisPass :=
  match AnalysisPass.ofName? name with
  | some pass => .ok pass
  | none => .error (.unknownPass name)

/-- The pipeline of the named passes. An unknown name is reported before a missing dependency. -/
def build (config : PipelineConfig) : Except PlanError PassPipeline := do
  let passes ← config.passes.mapM findPass
  let pipeline : PassPipeline :=
    { name := config.name, entries := passes.map fun pass => (pass, .pending) }
  match pipeline.validate with
  | some error => .error (.pipeline error)
  | none => .ok pipeline

def toJson (library : JsonLibrary) (config : PipelineConfig) : Json :=
  library.ofRecord [("name", library.ofString config.name),
    ("passes", library.ofList library.ofString config.passes)]

def ofJson? (library : JsonLibrary) (document : Json) : Option PipelineConfig := do
  let fields ← library.record? ["name", "passes"] document
  return {
    name := ← library.required? fields "name" library.string?
    passes := ← library.required? fields "passes" (library.listOf? library.string?) }

/-- The text of a scalar. -/
def text? : Yaml → Option String
  | .scalar _ text => some text
  | _ => none

/-- A list of texts, which is empty where nothing is written. -/
def texts? : Yaml → Option (List String)
  | .list items => items.mapM text?
  | .scalar true "" => some []
  | _ => none

/-- The value of the only field called `name`. -/
def yamlField? (fields : List (String × Yaml)) (name : String) : Option Yaml :=
  match fields.filter (·.1 == name) with
  | [(_, value)] => some value
  | _ => none

def ofYaml? : Yaml → Option PipelineConfig
  | .mapping fields => do
    let fields ← fields.mapM fun (key, value) => do return (← text? key, value)
    return {
      name := ← text? (← yamlField? fields "name")
      passes := ← texts? (← yamlField? fields "passes") }
  | _ => none

/-- Reads a configuration file. Its extension, in letters of either case, says the format. -/
def load (library : JsonLibrary) (read : String → Option (List UInt8)) (path : String) :
    Except ConfigError PipelineConfig :=
  match (read path).bind fun bytes => String.fromUTF8? ⟨bytes.toArray⟩ with
  | none => .error (.unreadable path)
  | some text =>
    match (Path.extension path).toLower with
    | "json" => match (library.parse? text).bind (ofJson? library) with
      | some config => .ok config
      | none => .error (.malformed .json path)
    | "yaml" | "yml" => match (Yaml.parse? text).bind ofYaml? with
      | some config => .ok config
      | none => .error (.malformed .yaml path)
    | extension => .error (.unsupportedFormat extension)

end PipelineConfig

end BinaryFacts
