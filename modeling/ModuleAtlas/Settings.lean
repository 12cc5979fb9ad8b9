import ModuleAtlas.Json.Typed
import ModuleAtlas.Text.Cut
import ModuleAtlas.Yaml.Parse

/-! Settings of a project: declared bridges, how references are resolved, how many files are
cached. They are read from JSON or YAML. -/

namespace ModuleAtlas

/-- A declared link from modules of one language to modules of another; both ends are written
`<language>:<module pattern>`. -/
structure BridgeRule where
  source : String
  target : String
  reason : String := ""
  references : List String := []
  deriving DecidableEq, Inhabited, Repr

structure ResolverSettings where
  excludedPatterns : List String := []
  highConfidence : Int32 := 8
  mediumConfidence : Int32 := 5
  deriving DecidableEq, Inhabited, Repr

structure CacheSettings where
  capacity : UInt64 := 10000
  deriving DecidableEq, Inhabited, Repr

structure Settings where
  bridges : List BridgeRule := []
  resolver : ResolverSettings := {}
  cache : CacheSettings := {}
  deriving DecidableEq, Inhabited, Repr

section

variable {m : Type → Type} {δ : Type} [Monad m] [MonadExceptOf Fault m] [Source δ m]

def BridgeRule.shape : Shape m δ BridgeRule where
  start := { source := "", target := "" }
  fields := [
    .need "source" Source.text fun b source => { b with source },
    .need "target" Source.text fun b target => { b with target },
    .may "reason" Source.text fun b reason => { b with reason },
    .may "references" (readList Source.text) fun b references => { b with references }]

def ResolverSettings.shape : Shape m δ ResolverSettings where
  start := {}
  fields := [
    .may "excluded_patterns" (readList Source.text)
      fun r excludedPatterns => { r with excludedPatterns },
    .may "high_confidence_threshold" readInt32 fun r highConfidence => { r with highConfidence },
    .may "medium_confidence_threshold" readInt32
      fun r mediumConfidence => { r with mediumConfidence }]

def CacheSettings.shape : Shape m δ CacheSettings where
  start := {}
  fields := [.may "capacity" readUInt64 fun c capacity => { c with capacity }]

def Settings.shape : Shape m δ Settings where
  start := {}
  fields := [
    .may "bridges" (readList BridgeRule.shape.read) fun s bridges => { s with bridges },
    .may "resolver" ResolverSettings.shape.read fun s resolver => { s with resolver },
    .may "cache" CacheSettings.shape.read fun s cache => { s with cache }]

end

def BridgeRule.toJson (b : BridgeRule) : Json :=
  .record [("source", .text b.source), ("target", .text b.target), ("reason", .text b.reason),
    ("references", .texts b.references)]

def ResolverSettings.toJson (r : ResolverSettings) : Json :=
  .record [("excluded_patterns", .texts r.excludedPatterns),
    ("high_confidence_threshold", .integer r.highConfidence.toInt),
    ("medium_confidence_threshold", .integer r.mediumConfidence.toInt)]

def CacheSettings.toJson (c : CacheSettings) : Json :=
  .record [("capacity", .nat c.capacity.toNat)]

def Settings.toJson (s : Settings) : Json :=
  .record [("bridges", .list (s.bridges.map BridgeRule.toJson)), ("resolver", s.resolver.toJson),
    ("cache", s.cache.toJson)]

inductive SettingsFormat where
  | json
  | yaml
  deriving DecidableEq, Repr

/-- Why settings cannot be had. -/
inductive SettingsError where
  | unreadable
  | json (fault : Fault)
  | yaml
  deriving DecidableEq, Repr

namespace Settings

def parse : SettingsFormat → String → Except SettingsError Settings
  | .json, text => (shape.readText text).mapError .json
  | .yaml, text =>
    match Yaml.parse? text with
    | none => .error .yaml
    | some document => (shape.readYaml document).mapError fun _ => .yaml

/-- What follows the last dot of a file's name. A dot at its start does not count. -/
def extension? (name : String) : Option String := do
  let file ← Text.lastPiece? (fun piece => piece ≠ [] ∧ piece ≠ ['.']) (· = '/') name.toList
  if file = ['.', '.'] then none
  else
    let ending := file.reverse.takeWhile (· ≠ '.')
    if ending.length + 1 < file.length then some (String.ofList ending.reverse) else none

def formatOf (name : String) : SettingsFormat :=
  match extension? name with
  | some "yaml" | some "yml" => .yaml
  | _ => .json

/-- The settings in the file `name`, whose text is absent if there is no such file. -/
def load (name : String) (text : Option String) : Except SettingsError Settings :=
  match text with
  | none => .error .unreadable
  | some text => parse (formatOf name) text

end Settings

/-- What is reported about the file `name`. -/
def SettingsError.context (name : String) : SettingsError → String
  | .unreadable => "Failed to read config " ++ name
  | .json _ | .yaml => "Failed to parse config " ++ name

end ModuleAtlas
