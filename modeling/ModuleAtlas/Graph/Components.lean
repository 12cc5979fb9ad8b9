import ModuleAtlas.Graph.DepthFirst
import ModuleAtlas.Graph.View

/-! Strongly connected components, sinks first. The search goes depth first and keeps the visits
under way in a list. It holds the nodes on the stack, under their numbers in the order of discovery,
and a node is settled when its component is complete. That is so when the node by which it was
entered leads no further back on the stack. A node that is not there stops the search, with no
result. -/

namespace ModuleAtlas

namespace Components

open DepthFirst

/-- A visit under way. `low` is the least number its node is known to lead back to, and `pending`
are the successors not looked at yet. -/
structure Visit where
  node : Nat
  number : Nat
  low : Nat
  pending : List Nat

/-- `stack` holds the nodes whose component is not complete, `visits` the visits under way and
`found` the complete components, each last first. -/
structure Search where
  marks : Array Mark
  count : Nat := 0
  stack : List Nat := []
  visits : List Visit := []
  found : List (List Nat) := []

def mark? (mark : Mark) (marks : Array Mark) (node : Nat) : Option (Array Mark) :=
  if node < marks.size then some (marks.setIfInBounds node mark) else none

def markAll? (mark : Mark) (marks : Array Mark) (nodes : List Nat) : Option (Array Mark) :=
  nodes.foldlM (mark? mark) marks

/-- Tell the visit around one that ends how far back that one leads. -/
def report (low : Nat) : List Visit → List Visit
  | [] => []
  | outer :: rest => { outer with low := min outer.low low } :: rest

namespace Search

def start (size : Nat) : Search where
  marks := .replicate size .unseen

/-- Begin the visit of a node. -/
def enter (adjacency : Adjacency) (s : Search) (node : Nat) : Option Search :=
  adjacency[node]?.bind fun pending =>
    (mark? (.held s.count) s.marks node).map fun marks =>
      { s with
        marks
        count := s.count + 1
        stack := node :: s.stack
        visits := { node, number := s.count, low := s.count, pending } :: s.visits }

/-- Take the nodes down to `node` off the stack, as a component. -/
def close (s : Search) (node : Nat) : Option Search :=
  let size := (s.stack.takeWhile (· ≠ node)).length + 1
  let members := s.stack.take size
  (markAll? .settled s.marks members).map fun marks =>
    { s with marks, stack := s.stack.drop size, found := members.mergeSort :: s.found }

/-- End a visit, the innermost. -/
def leave (s : Search) (visit : Visit) (outer : List Visit) : Option Search :=
  let s := { s with visits := report visit.low outer }
  if visit.low = visit.number then s.close visit.node else some s

/-- Go on with the innermost visit: look at the next successor, or end it. -/
def step (adjacency : Adjacency) (s : Search) : Option Search :=
  match s.visits with
  | [] => some s
  | visit :: outer =>
    match visit.pending with
    | [] => s.leave visit outer
    | next :: pending =>
      match s.marks[next]? with
      | none => none
      | some .unseen => enter adjacency { s with visits := { visit with pending } :: outer } next
      | some (.held number) =>
        let low := min visit.low number
        some { s with visits := { visit with low, pending } :: outer }
      | some .settled => some { s with visits := { visit with pending } :: outer }

end Search

theorem unseen_mark?_le {mark : Mark} {marks marks' : Array Mark} {node : Nat}
    (h : mark? mark marks node = some marks') (seen : mark ≠ .unseen) :
    unseen marks' ≤ unseen marks := by
  unfold mark? at h
  split at h
  · obtain rfl := Option.some.inj h
    exact unseen_set_le marks node seen
  · cases h

theorem unseen_markAll?_le {mark : Mark} {nodes : List Nat} {marks marks' : Array Mark}
    (h : markAll? mark marks nodes = some marks') (seen : mark ≠ .unseen) :
    unseen marks' ≤ unseen marks := by
  induction nodes generalizing marks with
  | nil =>
    obtain rfl := Option.some.inj h
    exact Nat.le_refl _
  | cons node nodes ih =>
    obtain ⟨marks₁, first, rest⟩ := Option.bind_eq_some_iff.mp h
    exact Nat.le_trans (ih rest) (unseen_mark?_le first seen)

theorem load_report (low : Nat) (outer : List Visit) :
    load Visit.pending (report low outer) = load Visit.pending outer := by
  cases outer <;> rfl

namespace Search

def remaining (s : Search) : Nat × Nat :=
  DepthFirst.remaining Visit.pending s.marks s.visits

theorem enter_unseen_lt {adjacency : Adjacency} {s s' : Search} {node : Nat}
    (h : enter adjacency s node = some s') (fresh : s.marks[node]? = some .unseen) :
    unseen s'.marks < unseen s.marks := by
  obtain ⟨pending, _, h⟩ := Option.bind_eq_some_iff.mp h
  obtain ⟨marks, marked, rfl⟩ := Option.map_eq_some_iff.mp h
  unfold mark? at marked
  split at marked
  · obtain rfl := Option.some.inj marked
    exact unseen_set_lt fresh Mark.noConfusion
  · cases marked

theorem leave_smaller {s s' : Search} {visit : Visit} {outer : List Visit}
    (h : s.leave visit outer = some s') :
    unseen s'.marks ≤ unseen s.marks ∧ load Visit.pending s'.visits = load Visit.pending outer := by
  unfold leave at h
  dsimp only at h
  split at h
  · obtain ⟨marks, marked, rfl⟩ := Option.map_eq_some_iff.mp h
    exact ⟨unseen_markAll?_le marked Mark.noConfusion, load_report _ _⟩
  · obtain rfl := Option.some.inj h
    exact ⟨Nat.le_refl _, load_report _ _⟩

theorem step_smaller {adjacency : Adjacency} {s s' : Search} (busy : ¬ s.visits = [])
    (h : s.step adjacency = some s') : Prod.Lex (· < ·) (· < ·) s'.remaining s.remaining := by
  unfold step at h
  split at h
  · contradiction
  · next visit outer visits =>
    split at h
    · obtain ⟨unseen, rest⟩ := leave_smaller h
      exact .right' _ unseen (rest ▸ visits ▸ load_ended_lt visit outer)
    · next next pending waits =>
      have less (low : Nat) : load Visit.pending ({ visit with low, pending } :: outer) <
          load Visit.pending s.visits := visits ▸ load_advanced_lt waits outer
      split at h
      · cases h
      · next fresh =>
        have discovered := enter_unseen_lt h fresh
        exact .left _ _ discovered
      · obtain rfl := Option.some.inj h
        exact .right _ (less _)
      · obtain rfl := Option.some.inj h
        exact .right _ (less _)

/-- Go on until no visit is under way. -/
def run (adjacency : Adjacency) (s : Search) : Option Search :=
  if s.visits = [] then some s
  else
    match _ : s.step adjacency with
    | none => none
    | some s' => run adjacency s'
termination_by s.remaining
decreasing_by exact step_smaller ‹_› ‹_›

/-- Visit a node and all it leads to, unless it is known. -/
def visit (adjacency : Adjacency) (s : Search) (root : Nat) : Option Search :=
  match s.marks[root]? with
  | none => none
  | some .unseen => (s.enter adjacency root).bind (run adjacency)
  | some _ => some s

end Search

def search (adjacency : Adjacency) : Option Search :=
  (List.range adjacency.size).foldlM (Search.visit adjacency) (.start adjacency.size)

end Components

/-- The components, each in ascending order, in the order in which they are complete. None if an
edge leads to a node that is not there. -/
def Adjacency.components? (adjacency : Adjacency) : Option (List (List Nat)) :=
  (Components.search adjacency).map (·.found.reverse)

def Adjacency.components (adjacency : Adjacency) : List (List Nat) :=
  adjacency.components?.getD []

end ModuleAtlas
