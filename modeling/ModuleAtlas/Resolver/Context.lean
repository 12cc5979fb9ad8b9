import ModuleAtlas.Bridge
import ModuleAtlas.Graph.Loading
import ModuleAtlas.Language
import ModuleAtlas.Resolver.Binding
import ModuleAtlas.Resolver.Exclusion
import ModuleAtlas.Resolver.Name
import ModuleAtlas.Symbol.Table

/-! What references are resolved against: the files and modules of a graph at one time, the
declared bridges, and the view of one file. -/

namespace ModuleAtlas

/-- `excluded` are the patterns of names that always count as local. -/
structure Resolver where
  files : List FileFacts
  modules : Table ModuleNode
  symbols : SymbolTable
  bridges : List Bridge := []
  excluded : List Glob := []
  settings : ResolverSettings := {}

namespace Resolver

def ofSnapshot (snapshot : Snapshot) : Resolver where
  files := snapshot.files
  modules := snapshot.modules
  symbols := .ofModules snapshot.modules

def configure (resolver : Resolver) (settings : Settings) : Except SettingsFlaw Resolver := do
  let bridges ← Bridge.ofRules settings.bridges
  let excluded ← Exclusion.compile settings.resolver.excludedPatterns
  return { resolver with bridges, excluded, settings := settings.resolver }

def excludes (resolver : Resolver) (name : String) : Bool :=
  resolver.excluded.any fun glob => Exclusion.accepts glob name

end Resolver

/-- `own` is the module of the file, if it is live. -/
structure FileContext where
  file : FileFacts
  moduleName : String
  language : Language
  locals : List String
  bindings : List Binding
  own : Option ModuleNode

def Resolver.context (resolver : Resolver) (file : FileFacts) : FileContext where
  file := file
  moduleName := file.moduleName
  language := .ofName file.language
  locals := file.localNames.map Text.trim
  bindings := Binding.ofImports file.imports
  own := resolver.modules[file.moduleName]?

namespace FileContext

/-- Languages are the same if their names are, up to case, or if both are names of one known
language. -/
def sameLanguage (ctx : FileContext) (other : String) : Bool :=
  Text.sameAscii (Text.trim ctx.file.language) (Text.trim other) ||
    (ctx.language ≠ .other && Language.ofName (Text.trim other) = ctx.language)

def isLocal (ctx : FileContext) (name : String) : Bool :=
  name ∈ ctx.locals

def moduleDefines (ctx : FileContext) (name : String) : Bool :=
  ctx.own.any fun node => name ∈ node.definitions

def bindingsNamed (ctx : FileContext) (name : String) : List Binding :=
  ctx.bindings.filter fun b => b.name = name

end FileContext

namespace Resolver

/-- The kind of bridge a reference crosses: the one its use says, or the one its name hints at. -/
def bridgeUsage? (ctx : FileContext) (reference : Reference) : Option Usage :=
  if reference.usage.isBridge then some reference.usage
  else ctx.language.bridgeHint? (RefName.stripSigils reference.name)

def declaredBridge? (resolver : Resolver) (ctx : FileContext) (reference : Reference) :
    Option Bridge :=
  Bridge.find? resolver.bridges ctx.file.language ctx.moduleName reference

end Resolver

end ModuleAtlas
