import ModuleAtlas.Graph.Module
import ModuleAtlas.Recency

/-! The graph of modules. Files come and go; the graph keeps what each module defines and imports,
and for every module the modules that import it. -/

namespace ModuleAtlas

/-- `importers` names, for a live module, the modules that import it; a module that nobody imports
has no entry. -/
structure Graph where
  modules : Table ModuleNode := ∅
  files : Table Contribution := ∅
  importers : Table Names := ∅
  dirty : Names := ∅
  cache : Recency.Cache String FileFacts

namespace Graph

def defaultCapacity : Nat := 10000

def empty (capacity : Nat) : Graph where
  cache := .empty capacity

/-- Enter `source` as an importer of `target`. -/
def linkOne (index : Table Names) (source target : String) : Table Names :=
  index.alter target fun names => some ((names.getD ∅).insert source)

def unlinkOne (index : Table Names) (source target : String) : Table Names :=
  index.alter target fun names =>
    names.bind fun names =>
      let rest := names.erase source
      if rest.isEmpty then none else some rest

/-- Enter a module as an importer of every live module it imports. -/
def link (g : Graph) (name : String) : Graph :=
  match g.modules[name]? with
  | none => g
  | some node =>
    let targets := node.imports.keys.filter fun target => target ∈ g.modules
    { g with
      importers := targets.foldl (fun index target => linkOne index name target) g.importers }

def unlink (g : Graph) (name : String) (targets : List String) : Graph :=
  { g with
    importers := targets.foldl (fun index target => unlinkOne index name target) g.importers }

/-- A module that appears is imported by those that already import its name. -/
def deriveImporters (g : Graph) (name : String) : Graph :=
  let sources := (g.modules.values.filter fun node => name ∈ node.imports).map (·.name)
  if sources.isEmpty then g
  else { g with importers := g.importers.insert name (.ofList sources) }

def ensureModule (g : Graph) (name : String) : Graph :=
  if name ∈ g.modules then g
  else { g with modules := g.modules.insert name { name } }.deriveImporters name

/-- Enter a file that is not tracked. -/
def apply (g : Graph) (path : String) (c : Contribution) : Graph :=
  let g := g.ensureModule c.moduleName
  let g := { g with
    modules := g.modules.modify c.moduleName fun node =>
      { node with files := node.files.insert path }.contribute path c
    files := g.files.insert path c }
  g.link c.moduleName

/-- Take a module without files out. -/
def purge (g : Graph) (name : String) : Graph :=
  match g.modules[name]? with
  | none => g
  | some node =>
    let g := { g with modules := g.modules.erase name }.unlink name node.imports.keys
    { g with importers := g.importers.erase name }

/-- Make a module again after it lost a file. -/
def rebuild (g : Graph) (name : String) : Graph :=
  match g.modules[name]? with
  | none => g
  | some node =>
    let made := node.rebuild g.files
    let stale := node.imports.keys.filter fun target => target ∉ made.imports
    let g := { g with modules := g.modules.insert name made }.unlink name stale
    g.link name

/-- Take a file out, with all it gave to its module. -/
def retract (g : Graph) (path : String) : Graph :=
  match g.files[path]? with
  | none => g
  | some c =>
    let g := { g with files := g.files.erase path }
    match g.modules[c.moduleName]? with
    | none => g
    | some node =>
      let files := node.files.erase path
      let g := { g with modules := g.modules.insert c.moduleName { node with files } }
      if files.isEmpty then g.purge c.moduleName else g.rebuild c.moduleName

/-- Enter a file, in place of what was there under its path. -/
def add (g : Graph) (facts : FileFacts) : Graph :=
  let g := (g.retract facts.path).apply facts.path facts.contribution
  { g with cache := g.cache.put facts.path facts }

def tracks (g : Graph) (path : String) : Bool :=
  path ∈ g.files

def remove (g : Graph) (path : String) : Graph :=
  if g.tracks path then
    let g := g.retract path
    { g with cache := (g.cache.evict path).2 }
  else g

def addAll (g : Graph) (files : List FileFacts) : Graph :=
  files.foldl add g

def moduleOf? (g : Graph) (path : String) : Option String :=
  g.files[path]?.map (·.moduleName)

def paths (g : Graph) : List String :=
  g.files.keys

/-- The modules that import a module, in order. -/
def importersOf (g : Graph) (name : String) : List String :=
  match g.importers[name]? with
  | some names => names.toList
  | none => []

def markDirty (g : Graph) (paths : List String) : Graph :=
  { g with dirty := g.dirty.insertMany paths }

/-- The dirty paths; none is left. -/
def takeDirty (g : Graph) : List String × Graph :=
  (g.dirty.toList, { g with dirty := ∅ })

def setCacheCapacity (g : Graph) (capacity : Nat) : Graph :=
  { g with cache := g.cache.setCapacity capacity }

end Graph

end ModuleAtlas
