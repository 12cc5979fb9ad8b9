import ModuleAtlas.Graph.View
import Mathlib.Logic.Relation

/-! Edges and paths between numbered nodes. -/

namespace ModuleAtlas.Adjacency

open Relation (ReflTransGen)

variable {adjacency : Adjacency} {u v w : Nat}

/-- Every edge leads to a node that is there. -/
def Closed (adjacency : Adjacency) : Prop :=
  ∀ successors ∈ adjacency.toList, ∀ v ∈ successors, v < adjacency.size

instance (adjacency : Adjacency) : Decidable adjacency.Closed :=
  inferInstanceAs <| Decidable <|
    ∀ successors ∈ adjacency.toList, ∀ v ∈ successors, v < adjacency.size

def Edge (adjacency : Adjacency) (u v : Nat) : Prop :=
  v ∈ adjacency.successors u

/-- There is a path, perhaps an empty one. -/
def Reach (adjacency : Adjacency) : Nat → Nat → Prop :=
  ReflTransGen adjacency.Edge

/-- Each of two nodes leads to the other. -/
def Mutual (adjacency : Adjacency) (u v : Nat) : Prop :=
  adjacency.Reach u v ∧ adjacency.Reach v u

theorem successors_eq_of_getElem? {successors : List Nat} (h : adjacency[u]? = some successors) :
    adjacency.successors u = successors := by
  rw [Adjacency.successors, Array.getD_eq_getD_getElem?, h]
  rfl

theorem Closed.edge_lt (closed : adjacency.Closed) (edge : adjacency.Edge u v) :
    v < adjacency.size := by
  unfold Edge Adjacency.successors at edge
  rw [Array.getD_eq_getD_getElem?] at edge
  cases row : adjacency[u]? with
  | none => simp [row] at edge
  | some successors =>
    rw [row] at edge
    exact closed successors (Array.mem_toList_iff.mpr (Array.mem_of_getElem? row)) v edge

theorem Reach.refl (u : Nat) : adjacency.Reach u u :=
  ReflTransGen.refl

theorem Reach.trans (first : adjacency.Reach u v) (second : adjacency.Reach v w) :
    adjacency.Reach u w :=
  ReflTransGen.trans first second

theorem Edge.reach (edge : adjacency.Edge u v) : adjacency.Reach u v :=
  ReflTransGen.single edge

theorem Mutual.refl (u : Nat) : adjacency.Mutual u u :=
  ⟨.refl u, .refl u⟩

theorem Mutual.symm (h : adjacency.Mutual u v) : adjacency.Mutual v u :=
  ⟨h.2, h.1⟩

theorem Mutual.trans (first : adjacency.Mutual u v) (second : adjacency.Mutual v w) :
    adjacency.Mutual u w :=
  ⟨first.1.trans second.1, second.2.trans first.2⟩

/-- No path leads out of a set that no edge leads out of. -/
theorem Reach.stays {inside : Nat → Prop} (path : adjacency.Reach u v) (start : inside u)
    (closed : ∀ a b, inside a → adjacency.Edge a b → inside b) : inside v := by
  induction path with
  | refl => exact start
  | tail _ edge ih => exact closed _ _ ih edge

end ModuleAtlas.Adjacency
