import ModuleAtlas.Resolver.Scoring

/-! Resolution of references. A reference runs through stages, and the first that takes it
decides: local names, declared bridges, hinted bridges, the standard library, names qualified by a
module, built-in names, and the best match. -/

namespace ModuleAtlas

inductive Resolution where
  | localName
  | declaredBridge (reason : String)
  | bridge (target : Option SymbolMatch)
  | library
  | qualified
  | builtin
  | matched (found : SymbolMatch)
  | unresolved
  deriving DecidableEq

def Resolution.isResolved : Resolution → Bool
  | .unresolved => false
  | _ => true

namespace Resolver

def isLocal (resolver : Resolver) (ctx : FileContext) (head name : String) : Bool :=
  ctx.isLocal head || ctx.isLocal name || head ∈ Language.selfReceivers ||
    resolver.excludes name || (head ≠ "" && resolver.excludes head)

def hasSubmodule (resolver : Resolver) (moduleName member : String) : Bool :=
  [".", "/", "::"].any fun separator => moduleName ++ separator ++ member ∈ resolver.modules

/-- Whether a path names something in a module. Inside the module all definitions are visible,
outside only exports; a module that is not known is trusted. -/
def hasMember (resolver : Resolver) (ctx : FileContext) (moduleName path : String) : Bool :=
  let member := RefName.leadingIdentifier path
  member = "" ||
    match resolver.modules[moduleName]? with
    | none => true
    | some node =>
      (if moduleName = ctx.moduleName then member ∈ node.definitions
      else member ∈ node.exports) || resolver.hasSubmodule moduleName member

/-- Whether a name leads through a module to one of its members. -/
def leadsInto (resolver : Resolver) (ctx : FileContext) (name moduleName : String) : Bool :=
  (RefName.stripQualifier? name moduleName).any (resolver.hasMember ctx moduleName)

def leadsThrough (resolver : Resolver) (ctx : FileContext) (name : String) (b : Binding) : Bool :=
  (RefName.stripQualifier? name b.name).any fun rest =>
    match b.kind with
    | .item member => resolver.hasMember ctx b.source.moduleName member
    | _ => resolver.hasMember ctx b.source.moduleName rest

def isQualified (resolver : Resolver) (ctx : FileContext) (head name : String) : Bool :=
  ctx.moduleDefines head || ctx.moduleDefines name ||
    resolver.leadsInto ctx name ctx.moduleName ||
    ctx.bindings.any (resolver.leadsThrough ctx name) ||
    ctx.file.imports.any fun i => resolver.leadsInto ctx name i.moduleName

/-- The stages behind the bridges. -/
def resolveInside (resolver : Resolver) (ctx : FileContext) (head name : String) (usage : Usage) :
    Resolution :=
  if ctx.language.inLibrary head name then .library
  else if resolver.isQualified ctx head name then .qualified
  else if ctx.language.isBuiltin head name then .builtin
  else
    match resolver.bestMatch? ctx name usage with
    | some found => .matched found
    | none => .unresolved

def resolveIn (resolver : Resolver) (ctx : FileContext) (reference : Reference) : Resolution :=
  let name := RefName.stripSigils reference.name
  let head := RefName.leadingIdentifier name
  if name = "" ∨ resolver.isLocal ctx head name then .localName
  else
    match resolver.declaredBridge? ctx reference with
    | some bridge => .declaredBridge bridge.reason
    | none =>
      match bridgeUsage? ctx reference with
      | some usage => .bridge (resolver.bestMatch? ctx name usage)
      | none => resolver.resolveInside ctx head name reference.usage

/-- Which stage takes a reference made in a file. -/
def resolve (resolver : Resolver) (file : FileFacts) (reference : Reference) : Resolution :=
  resolver.resolveIn (resolver.context file) reference

end Resolver

end ModuleAtlas
