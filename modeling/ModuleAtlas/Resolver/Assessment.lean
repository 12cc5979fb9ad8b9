import ModuleAtlas.Resolver.Reports

/-! How likely a reference leads into another language. This is for reports only and decides
nothing. -/

namespace ModuleAtlas

inductive Evidence where
  | explicitBridge
  | contextTag
  | importEvidence
  | uniqueCandidate
  | ambiguousCandidates
  | localConflict
  | libraryConflict
  deriving DecidableEq, Repr

namespace Evidence

def all : List Evidence :=
  [explicitBridge, contextTag, importEvidence, uniqueCandidate, ambiguousCandidates, localConflict,
   libraryConflict]

def tag : Evidence → String
  | explicitBridge => "explicit_bridge"
  | contextTag => "context_tag"
  | importEvidence => "import_evidence"
  | uniqueCandidate => "unique_cross_language_candidate"
  | ambiguousCandidates => "ambiguous_candidates"
  | localConflict => "local_conflict"
  | libraryConflict => "stdlib_conflict"

def ofTag? (tag : String) : Option Evidence :=
  all.find? fun evidence => evidence.tag = tag

def weight : Evidence → Int
  | explicitBridge => 10
  | contextTag => 4
  | importEvidence => 3
  | uniqueCandidate => 2
  | ambiguousCandidates => -2
  | localConflict => -4
  | libraryConflict => -3

end Evidence

structure Assessment where
  file : String
  reference : Reference
  score : Int
  tier : Tier
  evidence : List Evidence
  reason : Option String
  deriving DecidableEq

namespace Resolver

/-- How many candidates are in another language. -/
def foreignCandidates (resolver : Resolver) (ctx : FileContext) (reference : Reference) : Nat :=
  let usage := (bridgeUsage? ctx reference).getD reference.usage
  ((resolver.symbols.recordsAt (resolver.candidates reference.name usage)).filter
    fun record => !ctx.sameLanguage record.language).length

def evidence (resolver : Resolver) (ctx : FileContext) (reference : Reference) : List Evidence :=
  let stripped := RefName.stripSigils reference.name
  let head := RefName.leadingIdentifier stripped
  let leaf := RefName.leaf stripped
  let foreign := resolver.foreignCandidates ctx reference
  let held (evidence : Evidence) (holds : Bool) : List Evidence := if holds then [evidence] else []
  held .explicitBridge (resolver.declaredBridge? ctx reference).isSome ++
    held .contextTag reference.usage.isBridge ++
    held .importEvidence (!(ctx.bindingsNamed head).isEmpty) ++
    held .uniqueCandidate (foreign = 1) ++
    held .ambiguousCandidates (1 < foreign) ++
    held .localConflict (ctx.isLocal head || ctx.moduleDefines head || ctx.moduleDefines leaf) ++
    held .libraryConflict (ctx.language.inLibrary head stripped)

def assessIn (resolver : Resolver) (ctx : FileContext) (reference : Reference) : Assessment :=
  let evidence := resolver.evidence ctx reference
  let score := (evidence.map Evidence.weight).foldr (· + ·) 0
  { file := ctx.file.path
    reference
    score
    tier := .ofScore score resolver.settings.highConfidence.toInt
      resolver.settings.mediumConfidence.toInt
    evidence
    reason := (resolver.declaredBridge? ctx reference).map (·.reason) }

def assess (resolver : Resolver) (file : FileFacts) (reference : Reference) : Assessment :=
  resolver.assessIn (resolver.context file) reference

def assessmentsIn (resolver : Resolver) (file : FileFacts) : List Assessment :=
  let ctx := resolver.context file
  (file.references.filter fun reference =>
    (bridgeUsage? ctx reference).isSome || (resolver.declaredBridge? ctx reference).isSome).map
    (resolver.assessIn ctx)

/-- The references that cross a bridge, hinted or declared. -/
def findProbableBridges (resolver : Resolver) : List Assessment :=
  (resolver.files.flatMap resolver.assessmentsIn).mergeSort fun a b =>
    placedBefore a.file b.file a.reference.location b.reference.location a.reference.name
      b.reference.name

end Resolver

end ModuleAtlas
