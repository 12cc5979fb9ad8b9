import ModuleAtlas.Graph.Components
import ModuleAtlas.Symbol.Name

/-! Numbers about modules: how they hang together, how complex they are, how much they matter. -/

namespace ModuleAtlas

namespace Importance

/-- A number rounded to 53 binary digits, a tie to the even neighbour. -/
def round (n : Nat) : Nat :=
  let digits := n.log2 + 1
  if n = 0 || digits ≤ 53 then n
  else
    let unit := 1 <<< (digits - 53)
    let quotient := n / unit
    let rest := n % unit
    if unit < 2 * rest || (unit = 2 * rest && quotient % 2 = 1) then (quotient + 1) * unit
    else quotient * unit

def entryKeywords : List String :=
  ["api", "gateway", "handler", "server", "service"]

/-- How much a module matters, in halves: twice its importers, what it imports, half its
complexity, and ten more if its name is that of an entry point. Every sum is rounded. -/
def halves (name : String) (fanIn fanOut : Nat) (complexity : UInt32) : Nat :=
  let lowered := Text.lower name
  let bonus := if entryKeywords.any (Text.includes lowered) then 20 else 0
  round (round (round (4 * round fanIn + 2 * round fanOut) + complexity.toNat) + bonus)

end Importance

/-- `depth` is the length of the longest path to a sink in the graph of components, and
`importance` counts halves. -/
structure ModuleMetrics where
  moduleName : String
  files : Nat
  fanIn : Nat
  fanOut : Nat
  depth : Nat
  component : Nat
  componentSize : Nat
  inCycle : Bool
  complexity : UInt32
  importance : Nat
  deriving DecidableEq

namespace Components

/-- The number of the component a node is in. -/
def componentOf (components : List (List Nat)) (node : Nat) : Nat :=
  components.findIdx fun members => node ∈ members

/-- One more than the greatest depth among the other components a component leads to. The
components before it have their depths in `depths`. -/
def depthOf (adjacency : Adjacency) (components : List (List Nat)) (depths : List Nat)
    (members : List Nat) : Nat :=
  let own := depths.length
  let others := (members.flatMap adjacency.successors).map (componentOf components)
  ((others.filter (· ≠ own)).map fun other => depths.getD other 0 + 1).foldl max 0

/-- The depths of all components. They come sinks first, so each finds those it leads to. -/
def depths (adjacency : Adjacency) (components : List (List Nat)) : List Nat :=
  components.foldl
    (fun depths members => depths ++ [depthOf adjacency components depths members]) []

end Components

/-- A row for every module, in the order of names. -/
def Graph.metrics (g : Graph) : List ModuleMetrics :=
  let view := g.view
  let reverse := view.reverse
  let components := view.adjacency.components
  let depths := Components.depths view.adjacency components
  (List.range view.size).map fun node =>
    let moduleName := view.name node
    let (files, complexity) := match g.modules[moduleName]? with
      | some node => (node.files.size, node.maxComplexity)
      | none => (0, 0)
    let fanIn := (reverse.successors node).length
    let fanOut := (view.adjacency.successors node).length
    let component := Components.componentOf components node
    let componentSize := (components.getD component []).length
    { moduleName, files, fanIn, fanOut, component, componentSize, complexity
      depth := depths.getD component 0
      inCycle := 1 < componentSize
      importance := Importance.halves moduleName fanIn fanOut complexity }

/-- A function or method and its score. -/
structure ComplexityEntry where
  moduleName : String
  name : String
  file : String
  kind : DefinitionKind
  score : UInt32
  deriving DecidableEq

namespace ComplexityEntry

def ofEntry (entry : Entry) : ComplexityEntry where
  moduleName := entry.moduleName
  name := entry.definition.name
  file := entry.file
  kind := entry.definition.kind
  score := entry.score

/-- The higher score first, then by module, name and file. -/
def before (a b : ComplexityEntry) : Bool :=
  (compare b.score a.score |>.then (compare a.moduleName b.moduleName)
    |>.then (compare a.name b.name) |>.then (compare a.file b.file)).isLE

end ComplexityEntry

def Graph.callables (g : Graph) : List ComplexityEntry :=
  ((g.modules.values.flatMap fun node => node.definitions.values).filter
    fun entry => entry.definition.kind.isCallable).map .ofEntry

/-- The `n` most complex functions and methods. -/
def Graph.topComplexity (g : Graph) (n : Nat) : List ComplexityEntry :=
  (g.callables.mergeSort ComplexityEntry.before).take n

end ModuleAtlas
