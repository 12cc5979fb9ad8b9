import ModuleAtlas.Graph.Cycles
import ModuleAtlas.Proofs.Adjacency
import Mathlib.Data.List.Chain
import Mathlib.Data.List.Nodup

/-!
# The trail of a depth-first walk

What a walk leaves behind is in order: `Settled` lists the nodes that were left, the last one
first, and each of them has edges to earlier ones only, those that close a cycle apart. What is
under way is a `Trail` of visits, each at a successor of the one around it.
-/

namespace ModuleAtlas.Cycles

open Relation (TransGen)

/-- There is no way back to where one started. -/
def Acyclic {α : Type} (edge : α → α → Prop) : Prop :=
  ∀ a, ¬ TransGen edge a a

/-- The nodes of a cycle and the first one again. -/
def around {α : Type} (cycle : List α) : List α :=
  cycle ++ cycle.head?.toList

/-- Each node has an edge to the next, and the last one to the first. -/
structure Loop {α : Type} (edge : α → α → Prop) (cycle : List α) : Prop where
  nonempty : cycle ≠ []
  chain : (around cycle).IsChain edge

/-- The edge leads from the last node of some cycle to its first. -/
def Closes {α : Type} (cycles : List (List α)) (source target : α) : Prop :=
  ∃ cycle ∈ cycles, cycle.getLast? = some source ∧ cycle.head? = some target

theorem Closes.mono {α : Type} {cycles cycles' : List (List α)} {source target : α}
    (h : Closes cycles source target) (more : cycles ⊆ cycles') : Closes cycles' source target :=
  let ⟨cycle, member, ends⟩ := h
  ⟨cycle, more member, ends⟩

theorem Loop.exists_transGen {α : Type} {edge : α → α → Prop} {cycle : List α}
    (loop : Loop edge cycle) : ∃ a, TransGen edge a a := by
  obtain ⟨first, rest, rfl⟩ := List.exists_cons_of_ne_nil loop.nonempty
  have chain : (first :: (rest ++ [first])).IsChain (TransGen edge) :=
    loop.chain.imp fun _ _ => .single
  exact ⟨first, chain.rel_cons (by simp)⟩

variable {adjacency : Adjacency} {found found' : List (List Nat)} {left left' : List Nat}

inductive Settled (adjacency : Adjacency) (found : List (List Nat)) : List Nat → Prop where
  | nil : Settled adjacency found []
  | cons {node : Nat} {left : List Nat}
      (leads : ∀ v, adjacency.Edge node v → v ∈ left ∨ Closes found node v)
      (earlier : Settled adjacency found left) : Settled adjacency found (node :: left)

namespace Settled

theorem mono (h : Settled adjacency found left) (more : found ⊆ found') :
    Settled adjacency found' left := by
  induction h with
  | nil => exact .nil
  | cons leads _ ih => exact .cons (fun v edge => (leads v edge).imp_right (·.mono more)) ih

/-- An edge that closes no cycle does not lead out of the nodes that were left. -/
theorem stays (h : Settled adjacency found left) {u v : Nat} (hu : u ∈ left)
    (path : TransGen (fun u v => adjacency.Edge u v ∧ ¬ Closes found u v) u v) : v ∈ left := by
  have step : ∀ a ∈ left, ∀ b, adjacency.Edge a b ∧ ¬ Closes found a b → b ∈ left := by
    clear hu path
    induction h with
    | nil => simp
    | cons leads _ ih =>
      rw [List.forall_mem_cons]
      exact ⟨fun b edge => .tail _ ((leads b edge.1).resolve_right edge.2),
        fun a ha b edge => .tail _ (ih a ha b edge)⟩
  induction path with
  | single edge => exact step _ hu _ edge
  | tail _ edge ih => exact step _ ih _ edge

/-- Without the edges that close cycles no node that was left leads back to itself. -/
theorem no_return (h : Settled adjacency found left) :
    ∀ u ∈ left, ¬ TransGen (fun u v => adjacency.Edge u v ∧ ¬ Closes found u v) u u := by
  induction h with
  | nil => simp
  | @cons node left leads earlier ih =>
    rw [List.forall_mem_cons]
    refine ⟨fun path => ?_, ih⟩
    -- The first edge goes to a node that was left before, and no path leads from there to `node`.
    obtain ⟨v, edge, rest⟩ := TransGen.head'_iff.mp path
    have hv : v ∈ left := (leads v edge.1).resolve_right edge.2
    have hnode : node ∈ left := by
      rcases Relation.reflTransGen_iff_eq_or_transGen.mp rest with same | rest
      · exact same ▸ hv
      · exact earlier.stays hv rest
    exact ih node hnode path

end Settled

/-- The visits under way, innermost first. Each is at the node inside it, or at the nodes `inside`,
and has dealt with the successors that are neither there nor pending. -/
inductive Trail (adjacency : Adjacency) (found : List (List Nat)) (left : List Nat) :
    List Nat → List Visit → Prop where
  | nil {inside : List Nat} : Trail adjacency found left inside []
  | cons {inside : List Nat} {visit : Visit} {outer : List Visit}
      (pending : ∀ v ∈ visit.pending, adjacency.Edge visit.node v)
      (inner : ∀ v ∈ inside, adjacency.Edge visit.node v)
      (looked : ∀ v, adjacency.Edge visit.node v →
        v ∈ visit.pending ∨ v ∈ inside ∨ v ∈ left ∨ Closes found visit.node v)
      (outside : Trail adjacency found left [visit.node] outer) :
      Trail adjacency found left inside (visit :: outer)

namespace Trail

variable {inside : List Nat} {visit : Visit} {visits outer : List Visit}

theorem mono (h : Trail adjacency found left inside visits) (more : found ⊆ found')
    (moreLeft : left ⊆ left') : Trail adjacency found' left' inside visits := by
  induction h with
  | nil => exact .nil
  | cons pending inner looked _ ih =>
    refine .cons pending inner (fun v edge => ?_) ih
    exact (looked v edge).imp_right (.imp_right (.imp (@moreLeft v) (·.mono more)))

/-- The nodes inside are dealt with. -/
theorem settle (h : Trail adjacency found left inside visits)
    (settled : ∀ visit ∈ visits.head?, ∀ v ∈ inside, v ∈ left ∨ Closes found visit.node v) :
    Trail adjacency found left [] visits := by
  cases h with
  | nil => exact .nil
  | @cons _ visit _ pending inner looked outside =>
    refine .cons pending (by simp) (fun v edge => ?_) outside
    rcases looked v edge with waits | inside | done
    · exact .inl waits
    · exact .inr (.inr (settled visit rfl v inside))
    · exact .inr (.inr done)

/-- The innermost visit goes on to its next successor. -/
theorem advance {next : Nat} {pending : List Nat}
    (h : Trail adjacency found left [] (visit :: outer)) (waits : visit.pending = next :: pending) :
    Trail adjacency found left [next] ({ visit with pending } :: outer) := by
  cases h with
  | cons edges _ looked outside =>
    rw [waits] at edges
    refine .cons (fun v hv => edges v (.tail _ hv)) (by simpa using edges next (.head _))
      (fun v edge => ?_) outside
    have := looked v edge
    simp only [waits, List.mem_cons, List.not_mem_nil, false_or, or_false] at this ⊢
    tauto

/-- From the outermost visit on, each node has an edge to the next. -/
theorem chain (h : Trail adjacency found left inside visits) :
    (visits.map (·.node)).reverse.IsChain adjacency.Edge := by
  rw [List.isChain_reverse]
  induction h with
  | nil => exact .nil
  | @cons _ visit outer _ _ _ outside ih =>
    rw [List.map_cons, List.isChain_cons]
    refine ⟨fun v hv => ?_, ih⟩
    cases outside with
    | nil => simp at hv
    | cons _ inner _ _ =>
      obtain rfl : _ = v := by simpa using hv
      exact inner visit.node (List.mem_singleton_self _)

end Trail

end ModuleAtlas.Cycles
