import ModuleAtlas.Graph

/-! Full facts of tracked files. The cache may have lost them; then a loader is asked, and what it
says goes back into the cache. Asking takes its time: the graph may be another one when the answer
arrives, so it is looked at again before the cache is filled. -/

namespace ModuleAtlas

namespace Graph

/-- What the graph itself knows of a path. -/
inductive Lookup where
  | untracked
  | cached (facts : FileFacts)
  | lost

/-- A file found in the cache counts as used. -/
def lookup (g : Graph) (path : String) : Lookup × Graph :=
  if g.tracks path then
    match g.cache.get? path with
    | (some facts, cache) => (.cached facts, { g with cache })
    | (none, _) => (.lost, g)
  else (.untracked, g)

/-- Keep loaded facts, if the path is still tracked. -/
def fill (g : Graph) (path : String) (facts : FileFacts) : Graph :=
  if g.tracks path then { g with cache := g.cache.put path facts } else g

/-- The facts in the cache, in the order of their paths. -/
def cachedFiles (g : Graph) : List FileFacts :=
  g.paths.filterMap g.cache.peek?

/-- The tracked paths that the cache has lost. In which order a loader is asked for them is left
open; here it is the order of the paths. -/
def lostPaths (g : Graph) : List String :=
  g.paths.filter fun path => (g.cache.peek? path).isNone

def sortByPath (files : List FileFacts) : List FileFacts :=
  files.mergeSort fun a b => a.path ≤ b.path

end Graph

/-- A state that holds a graph, along with what a loader needs. -/
class HasGraph (σ : Type) where
  graph : σ → Graph
  withGraph : σ → Graph → σ
  graph_withGraph (s : σ) (g : Graph) : graph (withGraph s g) = g := by intros; rfl

instance : HasGraph Graph where
  graph := id
  withGraph _ g := g

/-- Ask for the facts of a path. What it does to the state is the loader's affair. -/
abbrev Loader (σ : Type) := String → σ → Option FileFacts × σ

namespace Loader

variable {σ : Type} [HasGraph σ]

/-- The facts of a tracked file, from the cache or from the loader. -/
def getFile (load : Loader σ) (path : String) (s : σ) : Option FileFacts × σ :=
  match (HasGraph.graph s).lookup path with
  | (.untracked, _) => (none, s)
  | (.cached facts, g) => (some facts, HasGraph.withGraph s g)
  | (.lost, _) =>
    match load path s with
    | (none, s) => (none, s)
    | (some facts, s) =>
      (some facts, HasGraph.withGraph s ((HasGraph.graph s).fill path facts))

/-- Ask for several paths. Facts of another path than the one asked for do not count. -/
def loadAll (load : Loader σ) : List String → σ → List FileFacts × σ
  | [], s => ([], s)
  | path :: paths, s =>
    let (found, s) := load path s
    let (more, s) := loadAll load paths s
    ((found.filter fun facts => facts.path = path).toList ++ more, s)

/-- The facts in the cache and those that are loaded for the paths it has lost, in the order of
their paths. -/
def fillMissing (load : Loader σ) (lost : List String) (s : σ) : List FileFacts × σ :=
  let found := (HasGraph.graph s).cachedFiles
  let (loaded, s) := loadAll load lost s
  let g := loaded.foldl (fun g facts => g.fill facts.path facts) (HasGraph.graph s)
  (Graph.sortByPath (found ++ loaded), HasGraph.withGraph s g)

/-- The facts of every tracked file that is cached or can be loaded. -/
def getAllFiles (load : Loader σ) (s : σ) : List FileFacts × σ :=
  load.fillMissing (HasGraph.graph s).lostPaths s

end Loader

/-- The modules of a graph and the facts of its files, at one time. -/
structure Snapshot where
  modules : Table ModuleNode
  files : List FileFacts

def Loader.snapshot {σ : Type} [HasGraph σ] (load : Loader σ) (s : σ) : Snapshot × σ :=
  let modules := (HasGraph.graph s).modules
  let (files, s) := load.getAllFiles s
  ({ modules, files }, s)

end ModuleAtlas
