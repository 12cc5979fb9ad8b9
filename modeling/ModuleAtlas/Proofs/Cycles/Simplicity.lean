import ModuleAtlas.Proofs.Cycles.Coverage

/-!
# Reported cycles are simple

At every step of a walk the mark of a node on the path is its place there. So no node stands on the
path twice, and what is cut off the path at such a place begins with the marked node and has no node
twice.
-/

namespace ModuleAtlas

namespace Cycles

variable {adjacency : Adjacency} {left inside : List Nat} {w : Walk} {next place : Nat}

/-! ## Cuts -/

/-- The successor to be looked at is marked with a place on the path, where the path is then
cut. -/
def Walk.Cuts (w : Walk) (next place : Nat) : Prop :=
  ∃ visit outer pending, w.visits = visit :: outer ∧ visit.pending = next :: pending ∧
    w.marks[next]? = some (.held place)

theorem Walk.Cuts.found (cuts : w.Cuts next place) :
    (w.step adjacency).found = w.path.drop place :: w.found := by
  obtain ⟨visit, outer, pending, visits, waits, marked⟩ := cuts
  simp only [Walk.step, visits, waits, Walk.look, marked, Walk.path, List.map_cons]

/-- A step finds what it cuts off the path, or nothing. -/
theorem Walk.found_step_cases (adjacency : Adjacency) (w : Walk) :
    (∃ next place, w.Cuts next place) ∨ (w.step adjacency).found = w.found := by
  cases visits : w.visits with
  | nil => exact .inr (by simp [Walk.step, visits])
  | cons visit outer =>
    cases waits : visit.pending with
    | nil => exact .inr (by simp [Walk.step, visits, waits])
    | cons next pending =>
      by_cases cut : ∃ place, w.marks[next]? = some (.held place)
      · obtain ⟨place, marked⟩ := cut
        exact .inl ⟨next, place, visit, outer, pending, visits, waits, marked⟩
      · refine .inr ?_
        simp only [Walk.step, visits, waits, Walk.look]
        split
        · next place marked => exact absurd ⟨place, marked⟩ cut
        all_goals rfl

namespace Sound

theorem getElem?_of_cuts (sound : Sound adjacency left inside w) (cuts : w.Cuts next place) :
    w.path[place]? = some next := by
  obtain ⟨-, -, -, -, -, marked⟩ := cuts
  exact (sound.marked_path next place).mp marked

/-- A node has one mark, so it stands on the path once. -/
theorem path_nodup (sound : Sound adjacency left inside w) : w.path.Nodup := by
  rw [List.nodup_iff_getElem?_ne_getElem?]
  intro i j earlier bound same
  have held : w.path[j]? = some w.path[j] := List.getElem?_eq_getElem bound
  have here := (sound.marked_path w.path[j] j).mpr held
  have there := (sound.marked_path w.path[j] i).mpr (same.trans held)
  have place : j = i := by simpa using here.symm.trans there
  exact Nat.ne_of_lt earlier place.symm

end Sound

/-! ## The walks of a search -/

/-- The walks that come up from step to step, whatever the order of the roots. -/
inductive Walk.Arises (adjacency : Adjacency) : Walk → Prop where
  | start : Arises adjacency (.start adjacency.size)
  | enter {w : Walk} {root : Nat} (before : Arises adjacency w) (idle : w.visits = [])
      (fresh : w.marks[root]? = some .unseen) : Arises adjacency (w.enter adjacency root)
  | step {w : Walk} (before : Arises adjacency w) (busy : w.visits ≠ []) :
      Arises adjacency (w.step adjacency)

namespace Walk.Arises

theorem sound (closed : adjacency.Closed) (h : w.Arises adjacency) :
    ∃ left, Sound adjacency left [] w := by
  induction h with
  | start => exact ⟨[], .start adjacency⟩
  | @enter w root _ idle fresh ih =>
    obtain ⟨left, sound⟩ := ih
    exact ⟨left, (sound.at_root idle root).enter fresh⟩
  | step _ busy ih =>
    obtain ⟨left, sound⟩ := ih
    obtain ⟨left', sound', -⟩ := sound.step closed busy
    exact ⟨left', sound'⟩

theorem found_nodup (closed : adjacency.Closed) (h : w.Arises adjacency) :
    ∀ cycle ∈ w.found, cycle.Nodup := by
  induction h with
  | start => simp [Walk.start]
  | enter _ _ _ ih => exact ih
  | @step w before _ ih =>
    rcases w.found_step_cases adjacency with ⟨next, place, cuts⟩ | same
    · obtain ⟨left, sound⟩ := before.sound closed
      rw [cuts.found, List.forall_mem_cons]
      exact ⟨sound.path_nodup.sublist (List.drop_sublist place _), ih⟩
    · rwa [same]

theorem run (h : w.Arises adjacency) :
    (w.run adjacency).Arises adjacency ∧ (w.run adjacency).visits = [] := by
  fun_induction Walk.run adjacency w with
  | case1 w idle => exact ⟨h, idle⟩
  | case2 w busy ih => exact ih (h.step busy)

theorem visit (h : w.Arises adjacency) (idle : w.visits = []) (root : Nat) :
    (w.visit adjacency root).Arises adjacency ∧ (w.visit adjacency root).visits = [] := by
  unfold Walk.visit
  split
  · next fresh => exact (h.enter idle fresh).run
  · exact ⟨h, idle⟩

end Walk.Arises

theorem arises_walkAll (adjacency : Adjacency) : (walkAll adjacency).Arises adjacency := by
  have all : ∀ (roots : List Nat) (w : Walk), w.Arises adjacency → w.visits = [] →
      (roots.foldl (Walk.visit adjacency) w).Arises adjacency := by
    intro roots
    induction roots with
    | nil => exact fun _ h _ => h
    | cons root roots ih =>
      intro w h idle
      obtain ⟨h', idle'⟩ := h.visit idle root
      exact ih _ h' idle'
  exact all _ _ .start rfl

theorem Loop.two_le_length {α : Type} {edge : α → α → Prop} {cycle : List α}
    (loop : Loop edge cycle) (plain : ∀ a, ¬ edge a a) : 2 ≤ cycle.length := by
  obtain ⟨first, rest, rfl⟩ := List.exists_cons_of_ne_nil loop.nonempty
  obtain ⟨second, member, other⟩ := loop.exists_other plain first
  have more := List.length_pos_of_mem ((List.mem_cons.mp member).resolve_left other)
  rw [List.length_cons]
  omega

theorem nodup_of_mem_cycles (closed : adjacency.Closed) :
    ∀ cycle ∈ adjacency.cycles, cycle.Nodup := by
  intro cycle member
  exact (arises_walkAll adjacency).found_nodup closed cycle (List.mem_reverse.mp member)

end Cycles

namespace Graph

open Cycles (Loop Walk loop_of_mem_cycles nodup_of_mem_cycles)

variable {g : Graph}

theorem Derived.name_inj (h : Derived g) {i j : Nat} (hi : i < g.view.size)
    (hj : j < g.view.size) (same : g.view.name i = g.view.name j) : i = j :=
  h.number_unique (View.getElem?_names hi) (same ▸ View.getElem?_names hj)

/-- **Reported cycles are simple.** Each has at least two modules, which are live and different, and
each imports the next and the last the first. At every step of the search the place where the path
is cut lies on the path, and the node there is the one looked at. -/
theorem cycles_are_simple (h : Reachable g) :
    (∀ cycle ∈ g.cycles, 2 ≤ cycle.length ∧ cycle.Nodup ∧ (∀ name ∈ cycle, name ∈ g.modules) ∧
      Loop (Imports g.modules) cycle) ∧
    ∀ w : Walk, w.Arises g.view.adjacency → ∀ next place, w.Cuts next place →
      place < w.path.length ∧ w.path[place]? = some next ∧
      (w.step g.view.adjacency).found = w.path.drop place :: w.found := by
  have derived := h.derived
  have closed := derived.view_closed
  constructor
  · intro cycle listed
    obtain ⟨nodes, reported, rfl⟩ := List.mem_map.mp listed
    have loop := loop_of_mem_cycles closed nodes reported
    have bound (i : Nat) : i ∈ nodes → i < g.view.size := derived.lt_of_mem_report reported
    refine ⟨?_, ?_, ?_, ?_⟩
    · rw [List.length_map]
      exact loop.two_le_length derived.not_edge_self
    · refine (nodup_of_mem_cycles closed nodes reported).map_on fun i hi j hj same => ?_
      exact derived.name_inj (bound i hi) (bound j hj) same
    · intro name member
      obtain ⟨i, inside, rfl⟩ := List.mem_map.mp member
      exact derived.mem_view_names.mp (List.mem_of_getElem? (View.getElem?_names (bound i inside)))
    · exact loop.map g.view.name fun _ _ edge => (derived.link_of_edge edge).2
  · intro w arises next place cuts
    obtain ⟨left, sound⟩ := arises.sound closed
    have held := sound.getElem?_of_cuts cuts
    exact ⟨(List.getElem?_eq_some_iff.mp held).1, held, cuts.found⟩

/-- Two cycles that share an edge: the second one is cut off in the middle of the path. -/
theorem cycles_are_simple_overlap :
    let a : FileFacts := { path := "a", moduleField := "a", imports := [.plain "b"] }
    let b : FileFacts := { path := "b", moduleField := "b", imports := [.plain "c"] }
    let c : FileFacts :=
      { path := "c", moduleField := "c", imports := [.plain "a", .plain "b", .plain "d"] }
    let g := (((Graph.empty 1).add a).add b).add c
    g.cycles = [["a", "b", "c"], ["b", "c"]] ∧ Loop (Imports g.modules) ["a", "b", "c"] ∧
      Loop (Imports g.modules) ["b", "c"] := by
  intro a b c g
  have reached : Reachable g := .add c (.add b (.add a (.start 1)))
  have reports : g.cycles = [["a", "b", "c"], ["b", "c"]] :=
    cycles_eq_of_within 8 (by decide +kernel)
  obtain ⟨simple, -⟩ := cycles_are_simple reached
  have outer := simple ["a", "b", "c"] (by simp [reports])
  have inner := simple ["b", "c"] (by simp [reports])
  exact ⟨reports, outer.2.2.2, inner.2.2.2⟩

end Graph

end ModuleAtlas
