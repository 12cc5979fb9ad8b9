import ModuleAtlas.Graph.View

/-! The shortest chain of imports from one module to another, found level by level. -/

namespace ModuleAtlas

namespace Chain

/-- The paths of one level, each last first, in the order of their discovery. -/
structure Level where
  paths : List (List Nat)
  seen : Std.ExtTreeSet Nat

/-- Lengthen a path by a node, unless it was seen before. -/
def Level.append (path : List Nat) (level : Level) (next : Nat) : Level :=
  if next ∈ level.seen then level
  else { paths := level.paths ++ [next :: path], seen := level.seen.insert next }

/-- Lengthen a path by the successors of its last node. -/
def extend (adjacency : Adjacency) (level : Level) (path : List Nat) : Level :=
  (adjacency.successors (path.headD 0)).foldl (Level.append path) level

def nextLevel (adjacency : Adjacency) (level : Level) : Level :=
  level.paths.foldl (extend adjacency) { paths := [], seen := level.seen }

/-- Look for `target` in this level and in the next ones. No chain is longer than the number of
nodes. -/
def search (adjacency : Adjacency) (target : Nat) : Nat → Level → Option (List Nat)
  | 0, _ => none
  | fuel + 1, level =>
    match level.paths.find? fun path => path.head? = some target with
    | some path => some path.reverse
    | none => search adjacency target fuel (nextLevel adjacency level)

end Chain

def Adjacency.chain? (adjacency : Adjacency) (source target : Nat) : Option (List Nat) :=
  Chain.search adjacency target (adjacency.size + 1)
    { paths := [[source]], seen := Std.ExtTreeSet.ofList [source] }

/-- Of the shortest chains the one that comes first in the order of names. Every name leads to
itself. -/
def Graph.chain? (g : Graph) (source target : String) : Option (List String) :=
  if source = target then some [source]
  else
    let view := g.view
    match View.indexOf? view.names source, View.indexOf? view.names target with
    | some i, some j => (view.adjacency.chain? i j).map fun chain => chain.map view.name
    | _, _ => none

end ModuleAtlas
