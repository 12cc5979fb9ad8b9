import ModuleAtlas.Graph

/-! The graph as numbered nodes: the modules that have files, in the order of their names, and an
edge for every import that leads to one of them. -/

namespace ModuleAtlas

/-- The successors of each node, in ascending order. -/
abbrev Adjacency := Array (List Nat)

def Adjacency.successors (adjacency : Adjacency) (node : Nat) : List Nat :=
  adjacency.getD node []

structure View where
  names : List String
  adjacency : Adjacency

namespace View

def indexOf? (names : List String) (name : String) : Option Nat :=
  names.idxOf? name

def ofModules (modules : Table ModuleNode) : View :=
  let live := modules.toList.filter fun (_, node) => !node.files.isEmpty
  let names := live.map (·.1)
  { names
    adjacency := (live.map fun (_, node) => node.imports.keys.filterMap (indexOf? names)).toArray }

def size (view : View) : Nat :=
  view.names.length

def name (view : View) (node : Nat) : String :=
  view.names.getD node ""

/-- The predecessors of each node, in ascending order. -/
def reverse (view : View) : Adjacency :=
  ((List.range view.size).map fun node =>
    (List.range view.size).filter fun source =>
      node ∈ view.adjacency.successors source).toArray

end View

def Graph.view (g : Graph) : View :=
  .ofModules g.modules

end ModuleAtlas
