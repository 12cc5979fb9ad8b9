import ModuleAtlas.Glob.Parse
import ModuleAtlas.Settings
import ModuleAtlas.Symbol.Name

/-! Bridges between languages that the settings declare. -/

namespace ModuleAtlas

/-- Why settings cannot be used. -/
inductive SettingsFlaw where
  | missingLanguage (endpoint : String)
  | incompleteEndpoint (endpoint : String)
  | invalidPattern (pattern : String) (why : Glob.PatternError)
  | invalidExclusion (pattern : String) (why : Glob.PatternError)
  | deepExpression (expression : String)
  | deepExclusion (place : Nat)
  deriving DecidableEq, Repr

def SettingsFlaw.message : SettingsFlaw → String
  | missingLanguage endpoint =>
    "invalid configuration: bridge endpoint `" ++ endpoint ++ "` lacks `<language>:`"
  | incompleteEndpoint endpoint =>
    "invalid configuration: bridge endpoint `" ++ endpoint ++ "` is incomplete"
  | invalidPattern pattern why =>
    "invalid configuration: invalid pattern `" ++ pattern ++ "`: error parsing glob '" ++ pattern ++
      "': " ++ why.message
  | invalidExclusion pattern why =>
    "invalid configuration: invalid excluded pattern `" ++ pattern ++ "`: error parsing glob '" ++
      pattern ++ "': " ++ why.message
  | deepExpression expression =>
    "invalid configuration: invalid excluded patterns: error parsing glob '" ++ expression ++
      "': error parsing pattern 0"
  | deepExclusion place =>
    "invalid configuration: invalid excluded patterns: error parsing pattern " ++ toString place

/-- The punctuation of paths and calls. -/
def isLeafMark (c : Char) : Bool :=
  ['.', ':', '/', '(', ')', '[', ']', '<', '>', '-'].contains c

/-- The last segment of a name that is not blank. -/
def leafSegment? (name : String) : Option String :=
  (((Text.pieces isLeafMark name.toList).map Text.trimChars).reverse.find? (!·.isEmpty)).map
    String.ofList

/-- One end of a bridge: a language, or `*` for any, and a pattern of module names. -/
structure Endpoint where
  language : String
  pattern : String
  glob : Glob

namespace Endpoint

def compile (pattern : String) : Except SettingsFlaw Glob :=
  (Glob.parse true pattern).mapError (.invalidPattern pattern)

def parse (endpoint : String) : Except SettingsFlaw Endpoint :=
  match Text.splitOnce? [':'] endpoint.toList with
  | none => .error (.missingLanguage endpoint)
  | some (before, after) =>
    let language := Text.lower (Text.trim (String.ofList before))
    let pattern := Text.trim (String.ofList after)
    if language = "" ∨ pattern = "" then .error (.incompleteEndpoint endpoint)
    else (compile pattern).map fun glob => { language, pattern, glob }

def accepts (endpoint : Endpoint) (language moduleName : String) : Bool :=
  (endpoint.language = "*" || Text.sameAscii endpoint.language (Text.trim language)) &&
    endpoint.glob.accepts moduleName

/-- The last segment of the pattern that says something, in canonical form. -/
def inferredSegment? (endpoint : Endpoint) : Option String :=
  ((Text.pieces Import.isPathSeparator endpoint.pattern.toList).reverse.map fun segment =>
    String.ofList (canonicalChars (segment.filter (· ≠ '*')))).find? (· ≠ "")

end Endpoint

/-- Which references cross a bridge: those that match a pattern as a whole or in their leaf, or
those that mention a segment of the target. -/
inductive ReferencePattern where
  | shaped (glob : Glob)
  | mention (segment : String)

def ReferencePattern.accepts (reference : Reference) : ReferencePattern → Bool
  | .shaped glob =>
    glob.accepts reference.name || (leafSegment? reference.name).any fun leaf => glob.accepts leaf
  | .mention segment => Text.includes (canonicalize reference.name) segment

structure Bridge where
  source : Endpoint
  target : Endpoint
  reason : String
  patterns : List ReferencePattern

namespace Bridge

/-- A rule without patterns takes the references that mention its target. -/
def ofRule (rule : BridgeRule) : Except SettingsFlaw Bridge := do
  let source ← Endpoint.parse rule.source
  let target ← Endpoint.parse rule.target
  let patterns ←
    if rule.references.isEmpty then
      pure (target.inferredSegment?.toList.map .mention)
    else rule.references.mapM fun pattern => (Endpoint.compile pattern).map .shaped
  return { source, target, reason := rule.reason, patterns }

def accepts (bridge : Bridge) (language moduleName : String) (reference : Reference) : Bool :=
  bridge.source.accepts language moduleName && bridge.patterns.any (·.accepts reference)

def ofRules (rules : List BridgeRule) : Except SettingsFlaw (List Bridge) :=
  rules.mapM ofRule

/-- The first bridge that takes a reference. -/
def find? (bridges : List Bridge) (language moduleName : String) (reference : Reference) :
    Option Bridge :=
  bridges.find? fun bridge => bridge.accepts language moduleName reference

end Bridge

end ModuleAtlas
