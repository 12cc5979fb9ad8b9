import ModuleAtlas.Resolver.Pipeline

/-! Reports on all files of a resolver: references that no stage takes, and imports that no
reference uses. -/

namespace ModuleAtlas

inductive Tier where
  | low
  | medium
  | high
  deriving DecidableEq, Repr

def Tier.tag : Tier → String
  | low => "low"
  | medium => "medium"
  | high => "high"

def Tier.ofScore (score high medium : Int) : Tier :=
  if high ≤ score then .high else if medium ≤ score then .medium else .low

def Tier.aboveLow (tier : Tier) : Bool :=
  tier ≠ .low

def Location.order (a b : Location) : Ordering :=
  (compare a.line b.line).then (compare a.column b.column)

structure UnresolvedReference where
  file : String
  moduleName : String
  language : String
  reference : Reference
  deriving DecidableEq

structure UnusedImport where
  file : String
  language : String
  moduleName : String
  name : String
  location : Location
  confidence : Tier
  deriving DecidableEq

namespace Resolver

/-- By file, then by place, then by name. -/
def placedBefore (fileA fileB : String) (locationA locationB : Location) (nameA nameB : String) :
    Bool :=
  (compare fileA fileB |>.then (locationA.order locationB) |>.then (compare nameA nameB)).isLE

/-- A name without qualifier that is not known may be a local one that nobody reported. -/
def looksQualified (ctx : FileContext) (head name : String) : Bool :=
  RefName.hasSeparator name || !(ctx.bindingsNamed head).isEmpty

def reportsUnresolved (resolver : Resolver) (ctx : FileContext) (reference : Reference) : Bool :=
  let name := RefName.stripSigils reference.name
  !(resolver.resolveIn ctx reference).isResolved &&
    looksQualified ctx (RefName.leadingIdentifier name) name

def unresolvedIn (resolver : Resolver) (file : FileFacts) : List UnresolvedReference :=
  let ctx := resolver.context file
  (file.references.filter (resolver.reportsUnresolved ctx)).map fun reference =>
    { file := file.path, moduleName := ctx.moduleName, language := file.language, reference }

/-- The references with a qualified name that no stage takes. -/
def findUnresolved (resolver : Resolver) : List UnresolvedReference :=
  (resolver.files.flatMap resolver.unresolvedIn).mergeSort fun a b =>
    placedBefore a.file b.file a.reference.location b.reference.location a.reference.name
      b.reference.name

/-- Whether one of some names refers to a bound name. -/
def uses (names : List String) (bound : String) : Bool :=
  names.any fun name =>
    RefName.leadingIdentifier name = bound || (RefName.stripQualifier? name bound).isSome

/-- Bindings that are reported together: each item alone, and otherwise all of an import. -/
def groups (bindings : List Binding) : List (List Binding) :=
  if bindings.isEmpty then []
  else if bindings.any (·.isItem) then bindings.map fun b => [b]
  else [bindings]

def unusedGroup? (file : FileFacts) (names : List String) (bridged : Bool)
    (group : List Binding) : Option UnusedImport :=
  match group with
  | [] => none
  | first :: _ =>
    if group.any fun b => uses names b.name then none
    else
      let mentioned := group.any fun b => names.any fun name => Text.includes name b.name
      some
        { file := file.path
          language := file.language
          moduleName := first.source.moduleName
          name := first.name
          location := first.source.location
          confidence :=
            if mentioned || bridged then .low else if first.isExplicit then .high else .medium }

def unusedIn (file : FileFacts) : List UnusedImport :=
  let names := file.references.map fun reference => RefName.stripSigils reference.name
  let bridged := file.references.any fun reference => reference.usage.isBridge
  file.imports.zipIdx.flatMap fun (i, slot) =>
    (groups (Binding.ofImport slot i)).filterMap (unusedGroup? file names bridged)

/-- The imports of which no bound name is used. -/
def findUnused (resolver : Resolver) : List UnusedImport :=
  (resolver.files.flatMap unusedIn).mergeSort fun a b =>
    placedBefore a.file b.file a.location b.location a.name b.name

end Resolver

end ModuleAtlas
