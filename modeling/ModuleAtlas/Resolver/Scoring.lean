import ModuleAtlas.Resolver.Context

/-! The last resort of resolution: the definition that fits a name best, if it fits well enough
and no other comes near. -/

namespace ModuleAtlas

namespace Scoring

/-- How far the best candidate has to lead. -/
def minMargin : Int := 2

/-- The least score that is accepted. -/
def threshold : Usage → Int
  | .ffiBridge | .processBridge => 7
  | .serviceBridge => 6
  | _ => 8

end Scoring

/-- The definition a reference was matched to. -/
structure SymbolMatch where
  moduleName : String
  name : String
  file : String
  language : String
  score : Int
  deriving DecidableEq

def SymbolMatch.ofRecord (record : SymbolRecord) (score : Int) : SymbolMatch where
  moduleName := record.moduleName
  name := record.name
  file := record.file
  language := record.language
  score := score

def RefName.leaf (name : String) : String :=
  (leafSegment? name).getD name

namespace Resolver

/-- The places of the records that may be meant: those with the whole name, or else those with its
leaf; and for services also those with the leaf's service key. -/
def candidates (resolver : Resolver) (name : String) (usage : Usage) : List Nat :=
  let stripped := RefName.stripSigils name
  let leaf := RefName.leaf stripped
  let whole := resolver.symbols.canonicalPlaces (canonicalize stripped)
  let named := if whole.isEmpty then resolver.symbols.canonicalPlaces (canonicalize leaf) else whole
  if usage = .serviceBridge then
    (resolver.symbols.servicePlaces (Service.key leaf)).foldl
      (fun places place => if place ∈ places then places else places ++ [place]) named
  else named

def points (n : Int) (holds : Bool) : Int :=
  if holds then n else 0

/-- How well a record fits a name used in a file. -/
def score (ctx : FileContext) (name : String) (usage : Usage) (record : SymbolRecord) : Int :=
  let stripped := RefName.stripSigils name
  let whole := canonicalize stripped
  let leaf := canonicalize (RefName.leaf stripped)
  let qualified := canonicalize record.qualifiedName
  let qualifiedLeaf := ((leafSegment? record.qualifiedName).map canonicalize).getD ""
  let head := RefName.leadingIdentifier stripped
  let same := ctx.sameLanguage record.language
  points 8 (record.canonical = whole) +
    points 6 (record.canonical = leaf) +
    points 6 (qualified ≠ "" && qualified = whole) +
    points 4 (qualifiedLeaf ≠ "" && qualifiedLeaf = leaf) +
    points 5 (record.moduleName = ctx.moduleName) +
    points 2 same +
    points 1 record.isPublic +
    points 4 ((ctx.bindingsNamed head).any fun b => b.source.moduleName = record.moduleName) +
    points 5 (usage = .serviceBridge && record.isService) +
    points 1 ((usage = .ffiBridge || usage = .processBridge) && !record.isService) +
    points 2 (usage.isBridge && !same)

/-- The higher score first, then by module, name and file. -/
def ahead (a b : Int × SymbolRecord) : Bool :=
  (compare b.1 a.1 |>.then (compare a.2.moduleName b.2.moduleName)
    |>.then (compare a.2.name b.2.name) |>.then (compare a.2.file b.2.file)).isLE

def ranked (resolver : Resolver) (ctx : FileContext) (name : String) (usage : Usage) :
    List (Int × SymbolRecord) :=
  ((resolver.symbols.recordsAt (resolver.candidates name usage)).map
    fun record => (score ctx name usage record, record)).mergeSort ahead

/-- The best candidate, if its score is accepted and leads far enough. -/
def bestMatch? (resolver : Resolver) (ctx : FileContext) (name : String) (usage : Usage) :
    Option SymbolMatch :=
  match resolver.ranked ctx name usage with
  | [] => none
  | (best, record) :: rest =>
    if best < Scoring.threshold usage then none
    else
      match rest with
      | (next, _) :: _ =>
        if best - next < Scoring.minMargin then none else some (.ofRecord record best)
      | [] => some (.ofRecord record best)

end Resolver

end ModuleAtlas
