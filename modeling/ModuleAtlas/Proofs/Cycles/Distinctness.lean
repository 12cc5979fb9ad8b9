import ModuleAtlas.Proofs.Cycles.Simplicity
import ModuleAtlas.Proofs.Graph.Chain
import Mathlib.Data.List.Perm.Subperm
import Mathlib.Data.List.Rotate

/-!
# No cycle is reported twice

A walk reaches its nodes in some order. The path follows that order, and so does every cycle cut off
the path: two cycles with the same nodes are one list. And a walk looks at each edge once, so it
never finds one list twice.
-/

namespace ModuleAtlas

namespace Cycles

variable {adjacency : Adjacency} {left order : List Nat} {w : Walk} {visit : Visit}
  {outer : List Visit} {next place : Nat}

/-- The nodes were reached in this order, and no edge that is still to be looked at closes a cycle
that was found. -/
structure Orderly (order : List Nat) (w : Walk) : Prop where
  once : order.Nodup
  reached : ∀ v ∈ order, w.marks[v]? ≠ some .unseen
  path : w.path.Sublist order
  found : ∀ cycle ∈ w.found, cycle.Sublist order
  pending : ∀ visit ∈ w.visits, visit.pending.Nodup
  unlooked : ∀ visit ∈ w.visits, ∀ v ∈ visit.pending, ¬ Closes w.found visit.node v
  distinct : w.found.Nodup

namespace Orderly

theorem start (size : Nat) : Orderly [] (.start size) := by
  constructor <;> simp [Walk.start, Walk.path]

/-- A node that joins the path is the last one reached. -/
theorem enter (h : Orderly order w) {node : Nat} (fresh : w.marks[node]? = some .unseen)
    (row : (adjacency.successors node).Nodup) :
    Orderly (order ++ [node]) (w.enter adjacency node) := by
  have new : node ∉ order := fun member => h.reached node member fresh
  have path : (w.enter adjacency node).path = w.path ++ [node] := by
    simp [Walk.enter, Walk.path]
  refine ⟨?_, ?_, ?_, ?_, ?_, ?_, h.distinct⟩
  · rw [List.nodup_append_comm]
    exact List.nodup_cons.mpr ⟨new, h.once⟩
  · intro v member unseen
    have before : w.marks[v]? = some .unseen := DepthFirst.Onward.set _ _ DepthFirst.Mark.noConfusion v unseen
    rcases List.mem_append.mp member with old | same
    · exact h.reached v old before
    · obtain rfl := List.mem_singleton.mp same
      have bound := (Array.getElem?_eq_some_iff.mp before).1
      simp [Walk.enter, bound] at unseen
  · rw [path]
    exact h.path.append (List.Sublist.refl _)
  · intro cycle member
    exact (h.found cycle member).trans (List.sublist_append_left _ _)
  · exact List.forall_mem_cons.mpr ⟨row, h.pending⟩
  · refine List.forall_mem_cons.mpr ⟨?_, h.unlooked⟩
    -- A cycle that ends in the node would have it among the nodes reached before.
    rintro v - ⟨cycle, member, last, -⟩
    exact new ((h.found cycle member).subset (List.mem_of_getLast? last))

theorem leave (h : Orderly order w) (visits : w.visits = visit :: outer) :
    Orderly order { w with marks := w.marks.setIfInBounds visit.node .settled, visits := outer } := by
  have inner : ∀ visit ∈ outer, visit ∈ w.visits := by
    rw [visits]
    exact fun _ => .tail _
  refine ⟨h.once, ?_, ?_, h.found, ?_, ?_, h.distinct⟩
  · intro v member unseen
    exact h.reached v member (DepthFirst.Onward.set _ _ DepthFirst.Mark.noConfusion v unseen)
  · have path := h.path
    rw [Walk.path_cons visits] at path
    exact (List.sublist_append_left _ _).trans path
  · exact fun visit member => h.pending visit (inner visit member)
  · exact fun visit member => h.unlooked visit (inner visit member)

/-- The innermost visit turns to a successor that is not pending any more. -/
theorem advance (h : Orderly order w) (visits : w.visits = visit :: outer) {pending : List Nat}
    (waits : visit.pending = next :: pending) :
    Orderly order { w with visits := { visit with pending } :: outer } ∧ next ∉ pending ∧
      ¬ Closes w.found visit.node next := by
  have once := h.pending
  have unlooked := h.unlooked
  rw [visits, List.forall_mem_cons, waits] at once unlooked
  obtain ⟨later, rest⟩ := List.nodup_cons.mp once.1
  refine ⟨{ h with path := ?_, pending := ?_, unlooked := ?_ }, later, unlooked.1 next (.head _)⟩
  · have path := h.path
    rw [Walk.path_cons visits] at path
    simpa [Walk.path] using path
  · exact List.forall_mem_cons.mpr ⟨rest, once.2⟩
  · exact List.forall_mem_cons.mpr ⟨fun v member => unlooked.1 v (.tail _ member), unlooked.2⟩

/-- What is cut off the path ends in an edge that no cycle has ended in. -/
theorem cut (h : Orderly order w) (sound : Sound adjacency left [next] w)
    (visits : w.visits = visit :: outer) (marked : w.marks[next]? = some (.held place))
    (later : next ∉ visit.pending) (opens : ¬ Closes w.found visit.node next) :
    Orderly order { w with found := w.path.drop place :: w.found } := by
  obtain ⟨last, first, -⟩ := sound.loop_back visits marked
  refine { h with found := ?_, unlooked := ?_, distinct := ?_ }
  · exact List.forall_mem_cons.mpr ⟨(List.drop_sublist _ _).trans h.path, h.found⟩
  · rintro other member v waits ⟨cycle, listed, last', first'⟩
    rcases List.mem_cons.mp listed with rfl | listed
    · obtain rfl : next = v := Option.some.inj (first.symm.trans first')
      have same : visit.node = other.node := Option.some.inj (last.symm.trans last')
      rw [visits] at member
      rcases List.mem_cons.mp member with rfl | member
      · exact later waits
      · -- The innermost node is not on the path a second time.
        have once := sound.path_nodup
        rw [Walk.path, List.nodup_reverse, visits, List.map_cons, List.nodup_cons] at once
        exact once.1 (same ▸ List.mem_map_of_mem member)
    · exact h.unlooked other member v waits ⟨cycle, listed, last', first'⟩
  · exact List.nodup_cons.mpr ⟨fun again => opens ⟨_, again, last, first⟩, h.distinct⟩

/-- **One step.** -/
theorem step (h : Orderly order w) (sound : Sound adjacency left [] w)
    (rows : ∀ u, (adjacency.successors u).Nodup) (busy : w.visits ≠ []) :
    ∃ order', Orderly order' (w.step adjacency) := by
  obtain ⟨visit, outer, visits⟩ := List.exists_cons_of_ne_nil busy
  simp only [Walk.step, visits]
  cases waits : visit.pending with
  | nil => exact ⟨order, h.leave visits⟩
  | cons next pending =>
    obtain ⟨advanced, later, opens⟩ := h.advance visits waits
    dsimp only [Walk.look]
    split
    · next place marked =>
      exact ⟨order, advanced.cut (sound.advance visits waits) rfl marked later opens⟩
    · next fresh => exact ⟨_, advanced.enter fresh (rows next)⟩
    all_goals exact ⟨order, advanced⟩

/-- Cycles that follow one order and have the same nodes are the same. -/
theorem eq_of_isRotated (h : Orderly order w) {cycle cycle' : List Nat} (listed : cycle ∈ w.found)
    (listed' : cycle' ∈ w.found) (rotated : cycle.IsRotated cycle') : cycle = cycle' := by
  have follows := h.found cycle listed
  have follows' := h.found cycle' listed'
  exact (List.Nodup.perm_iff_eq_of_sublist h.once follows follows').mp rotated.perm

end Orderly

theorem Walk.Arises.orderly (closed : adjacency.Closed)
    (rows : ∀ u, (adjacency.successors u).Nodup) (h : w.Arises adjacency) :
    ∃ order, Orderly order w := by
  induction h with
  | start => exact ⟨[], .start adjacency.size⟩
  | @enter w root _ _ fresh ih =>
    obtain ⟨order, orderly⟩ := ih
    exact ⟨_, orderly.enter fresh (rows root)⟩
  | step before busy ih =>
    obtain ⟨order, orderly⟩ := ih
    obtain ⟨left, sound⟩ := before.sound closed
    exact orderly.step sound rows busy

/-- Where no node has an edge twice, no two cycles are rotations of each other. -/
theorem pairwise_not_isRotated (closed : adjacency.Closed)
    (rows : ∀ u, (adjacency.successors u).Nodup) :
    adjacency.cycles.Pairwise fun cycle cycle' => ¬ cycle.IsRotated cycle' := by
  obtain ⟨order, orderly⟩ := (arises_walkAll adjacency).orderly closed rows
  have distinct : adjacency.cycles.Nodup := List.nodup_reverse.mpr orderly.distinct
  refine distinct.imp_of_mem fun {cycle cycle'} listed listed' differ rotated => differ ?_
  exact orderly.eq_of_isRotated (List.mem_reverse.mp listed) (List.mem_reverse.mp listed') rotated

end Cycles

namespace Graph

variable {g : Graph}

theorem Derived.map_idxOf_name (h : Derived g) {nodes : List Nat}
    (bound : ∀ i ∈ nodes, i < g.view.size) :
    (nodes.map g.view.name).map g.view.names.idxOf = nodes := by
  rw [List.map_map]
  refine (List.map_congr_left fun i member => ?_).trans (List.map_id nodes)
  exact h.idxOf_eq (View.getElem?_names (bound i member))

/-- **Reports are different cycles.** No two of them are rotations of each other. -/
theorem cycles_are_reported_once (h : Reachable g) :
    g.cycles.Pairwise fun cycle cycle' => ¬ cycle.IsRotated cycle' := by
  have derived := h.derived
  have rows (u : Nat) : (g.view.adjacency.successors u).Nodup :=
    (derived.successors_ascend u).imp Nat.ne_of_lt
  have distinct := Cycles.pairwise_not_isRotated derived.view_closed rows
  rw [Graph.cycles, List.pairwise_map]
  refine distinct.imp_of_mem fun {nodes nodes'} listed listed' differ rotated => differ ?_
  have numbers := rotated.map g.view.names.idxOf
  rwa [derived.map_idxOf_name fun _ => derived.lt_of_mem_report listed,
    derived.map_idxOf_name fun _ => derived.lt_of_mem_report listed'] at numbers

/-- Three modules that all import each other, and two more that are reached from another start and
lead to them. -/
theorem cycles_are_reported_once_dense :
    let file (name : String) (targets : List String) : FileFacts :=
      { path := name, moduleField := name, imports := targets.map .plain }
    let g := (Graph.empty 1).addAll [file "a" ["b", "c"], file "b" ["a", "c"], file "c" ["a", "b"],
      file "d" ["a", "e"], file "e" ["d"]]
    g.cycles = [["a", "b"], ["a", "b", "c"], ["b", "c"], ["d", "e"]] ∧
      g.cycles.Pairwise fun cycle cycle' => ¬ cycle.IsRotated cycle' := by
  intro file g
  have reached : Reachable g :=
    .add _ (.add _ (.add _ (.add _ (.add _ (.start 1)))))
  have reports : g.cycles = [["a", "b"], ["a", "b", "c"], ["b", "c"], ["d", "e"]] :=
    cycles_eq_of_within 9 (by decide +kernel)
  exact ⟨reports, cycles_are_reported_once reached⟩

end Graph

end ModuleAtlas
