import ModuleAtlas.Graph.DepthFirst
import ModuleAtlas.Graph.View

/-! Import cycles. A depth-first walk from every module reports, for each edge that leads back to
a module on the path, the path from there on. The walk holds the nodes on the path, under their
places there, and a node is settled when it is left. The visits under way are kept in a list, so a
long chain of modules does no harm. -/

namespace ModuleAtlas

namespace Cycles

open DepthFirst

/-- A visit under way. `pending` are the successors not looked at yet. -/
structure Visit where
  node : Nat
  pending : List Nat

/-- `visits` holds the visits under way and `found` the cycles, each last first. -/
structure Walk where
  marks : Array Mark
  visits : List Visit := []
  found : List (List Nat) := []

namespace Walk

def start (size : Nat) : Walk where
  marks := .replicate size .unseen

/-- The nodes of the visits under way, outermost first. -/
def path (w : Walk) : List Nat :=
  (w.visits.map (·.node)).reverse

/-- Begin the visit of a node. -/
def enter (adjacency : Adjacency) (w : Walk) (node : Nat) : Walk :=
  { w with
    marks := w.marks.setIfInBounds node (.held w.visits.length)
    visits := { node, pending := adjacency.successors node } :: w.visits }

/-- Look at a successor of the innermost node. One that is not there is passed over. -/
def look (adjacency : Adjacency) (w : Walk) (next : Nat) : Walk :=
  match w.marks[next]? with
  | some (.held place) => { w with found := w.path.drop place :: w.found }
  | some .unseen => w.enter adjacency next
  | some .settled | none => w

/-- Go on with the innermost visit: look at the next successor, or end it. -/
def step (adjacency : Adjacency) (w : Walk) : Walk :=
  match w.visits with
  | [] => w
  | visit :: outer =>
    match visit.pending with
    | [] => { w with marks := w.marks.setIfInBounds visit.node .settled, visits := outer }
    | next :: pending => look adjacency { w with visits := { visit with pending } :: outer } next

def remaining (w : Walk) : Nat × Nat :=
  DepthFirst.remaining Visit.pending w.marks w.visits

theorem step_smaller (adjacency : Adjacency) {w : Walk} (busy : ¬ w.visits = []) :
    Prod.Lex (· < ·) (· < ·) (w.step adjacency).remaining w.remaining := by
  unfold step
  split
  · contradiction
  · next visit outer visits =>
    split
    · exact .right' _ (unseen_set_le w.marks visit.node Mark.noConfusion)
        (visits ▸ load_ended_lt visit outer)
    · next next pending waits =>
      have less : load Visit.pending ({ visit with pending } :: outer) <
          load Visit.pending w.visits := visits ▸ load_advanced_lt waits outer
      unfold look
      split
      · exact .right _ less
      · next fresh => exact .left _ _ (unseen_set_lt fresh Mark.noConfusion)
      · exact .right _ less
      · exact .right _ less

/-- Go on until no visit is under way. -/
def run (adjacency : Adjacency) (w : Walk) : Walk :=
  if w.visits = [] then w else run adjacency (w.step adjacency)
termination_by w.remaining
decreasing_by exact step_smaller adjacency ‹_›

/-- Walk from a node that has not been seen. -/
def visit (adjacency : Adjacency) (w : Walk) (root : Nat) : Walk :=
  match w.marks[root]? with
  | some .unseen => (w.enter adjacency root).run adjacency
  | _ => w

end Walk

def walkAll (adjacency : Adjacency) : Walk :=
  (List.range adjacency.size).foldl (Walk.visit adjacency) (.start adjacency.size)

end Cycles

/-- The cycles, in the order in which they are found. -/
def Adjacency.cycles (adjacency : Adjacency) : List (List Nat) :=
  (Cycles.walkAll adjacency).found.reverse

def Graph.cycles (g : Graph) : List (List String) :=
  let view := g.view
  view.adjacency.cycles.map fun cycle => cycle.map view.name

end ModuleAtlas
