import ModuleAtlas.Proofs.Cycles.Completeness
import ModuleAtlas.Proofs.Graph.Metrics

/-!
# Cycle reports and components

A reported cycle stays within one component. A component of more than one module has a cycle, which
some reported cycle closes, so it is reported; but a module of it that gets back only through
modules already left is in no report.
-/

namespace ModuleAtlas

namespace Cycles

open Relation (ReflTransGen TransGen)

/-! ## Ways through a cycle -/

section

variable {α : Type} {edge : α → α → Prop} {cycle : List α} {a b : α}

/-- From each node of a cycle there is a way to each of them. -/
theorem Loop.transGen (loop : Loop edge cycle) (ha : a ∈ cycle) (hb : b ∈ cycle) :
    TransGen edge a b := by
  obtain ⟨first, rest, rfl⟩ := List.exists_cons_of_ne_nil loop.nonempty
  have chain : (first :: rest ++ [first]).IsChain (TransGen edge) :=
    loop.chain.imp fun _ _ => .single
  have ways := List.isChain_iff_pairwise.mp chain
  have back : ∀ a ∈ first :: rest, TransGen edge a first := by
    intro a ha
    exact (List.pairwise_append.mp ways).2.2 a ha first (List.mem_singleton_self _)
  rcases List.mem_cons.mp hb with rfl | hb
  · exact back a ha
  · have forth : TransGen edge first b :=
      (List.pairwise_cons.mp ways).1 b (List.mem_append_left _ hb)
    exact (back a ha).trans forth

/-- A cycle of edges between different nodes does not consist of one node. -/
theorem Loop.exists_other (loop : Loop edge cycle) (plain : ∀ a, ¬ edge a a) (a : α) :
    ∃ b ∈ cycle, b ≠ a := by
  obtain ⟨first, rest, rfl⟩ := List.exists_cons_of_ne_nil loop.nonempty
  have chain : (first :: (rest ++ [first])).IsChain edge := loop.chain
  by_cases same : first = a
  · subst same
    cases rest with
    | nil => exact absurd (List.isChain_cons_cons.mp chain).1 (plain first)
    | cons second rest =>
      refine ⟨second, by simp, ?_⟩
      rintro rfl
      exact plain second (List.isChain_cons_cons.mp chain).1
  · exact ⟨first, by simp, same⟩

/-- A way keeps to the edges that are kept, or it runs along one that is not. -/
theorem transGen_kept_or_exists (kept : α → α → Prop) (way : TransGen edge a b) :
    TransGen (fun a b => edge a b ∧ kept a b) a b ∨
      ∃ s t, ReflTransGen edge a s ∧ edge s t ∧ ¬ kept s t ∧ ReflTransGen edge t b := by
  induction way with
  | @single b step =>
    by_cases keep : kept a b
    · exact .inl (.single ⟨step, keep⟩)
    · exact .inr ⟨a, b, .refl, step, keep, .refl⟩
  | @tail b c way step ih =>
    rcases ih with inside | ⟨s, t, before, out, gone, after⟩
    · by_cases keep : kept b c
      · exact .inl (inside.tail ⟨step, keep⟩)
      · exact .inr ⟨b, c, way.to_reflTransGen, step, keep, .refl⟩
    · exact .inr ⟨s, t, before, out, gone, after.tail step⟩

end

/-! ## Components -/

variable {adjacency : Adjacency} {u v : Nat}

theorem mutual_of_mem_cycle (closed : adjacency.Closed) {cycle : List Nat}
    (reported : cycle ∈ adjacency.cycles) (hu : u ∈ cycle) (hv : v ∈ cycle) :
    adjacency.Mutual u v := by
  have loop := loop_of_mem_cycles closed cycle reported
  exact ⟨(loop.transGen hu hv).to_reflTransGen, (loop.transGen hv hu).to_reflTransGen⟩

theorem lt_of_mem_cycle (closed : adjacency.Closed) {cycle : List Nat}
    (reported : cycle ∈ adjacency.cycles) (hv : v ∈ cycle) : v < adjacency.size := by
  obtain ⟨u, -, step⟩ :=
    TransGen.tail'_iff.mp ((loop_of_mem_cycles closed cycle reported).transGen hv hv)
  exact closed.edge_lt step

/-- A way from a node to another and back runs along an edge that closes a reported cycle. -/
theorem exists_cycle_of_mutual (closed : adjacency.Closed) (other : u ≠ v)
    (both : adjacency.Mutual v u) :
    ∃ cycle ∈ adjacency.cycles, ∃ w ∈ cycle, adjacency.Mutual v w := by
  have forth : TransGen adjacency.Edge v u :=
    (Relation.reflTransGen_iff_eq_or_transGen.mp both.1).resolve_left other
  have round := forth.trans_left both.2
  rcases transGen_kept_or_exists (fun u v => ¬ Closes adjacency.cycles u v) round with
    inside | ⟨s, t, before, step, closes, after⟩
  · exact absurd inside (acyclic_without_closing closed v)
  · obtain ⟨cycle, reported, last, -⟩ := not_not.mp closes
    exact ⟨cycle, reported, s, List.mem_of_getLast? last, before, .head step after⟩

end Cycles

namespace Graph

open Cycles (loop_of_mem_cycles lt_of_mem_cycle mutual_of_mem_cycle exists_cycle_of_mutual)

variable {g : Graph} {row other : ModuleMetrics} {i j : Nat} {node node' : ModuleNode}

/-- Each number has a row. -/
theorem Derived.exists_row (h : Derived g) (bound : i < g.view.size) :
    ∃ row ∈ g.metrics, ∃ node, Describes g i node row := by
  have named : g.view.names[i]? = some g.view.names[i] := List.getElem?_eq_getElem bound
  have listed : g.view.names[i] ∈ g.metrics.map (·.moduleName) := by
    rw [metrics_names]
    exact List.getElem_mem bound
  obtain ⟨row, member, same⟩ := List.mem_map.mp listed
  obtain ⟨j, node, row_of⟩ := h.exists_describes member
  obtain rfl : i = j := h.number_unique named (same ▸ row_of.named)
  exact ⟨row, member, node, row_of⟩

/-- No module has an edge to itself. -/
theorem Derived.not_edge_self (h : Derived g) (i : Nat) : ¬ g.view.adjacency.Edge i i := by
  intro edge
  obtain ⟨-, node, held, imported⟩ := h.link_of_edge edge
  exact h.not_mem_own_imports held imported

theorem Describes.component_eq_iff (h : Derived g) (row_of : Describes g i node row)
    (other_of : Describes g j node' other) :
    other.component = row.component ↔ g.view.adjacency.Mutual j i := by
  have condensed := Components.condensation_components h.view_closed
  rw [row_of.component, other_of.component]
  exact condensed.componentOf_eq_componentOf_iff (g.view_size ▸ other_of.bound)
    (g.view_size ▸ row_of.bound)

theorem Describes.inCycle_iff_mutual (h : Derived g) (row_of : Describes g i node row) :
    row.inCycle = true ↔ ∃ j < g.view.size, j ≠ i ∧ g.view.adjacency.Mutual i j := by
  have condensed := Components.condensation_components h.view_closed
  rw [row_of.inCycle, decide_eq_true_iff, row_of.componentSize,
    condensed.one_lt_length_component (g.view_size ▸ row_of.bound), g.view_size]
  rfl

theorem Derived.lt_of_mem_report (h : Derived g) {nodes : List Nat}
    (reported : nodes ∈ g.view.adjacency.cycles) (member : i ∈ nodes) : i < g.view.size := by
  have bound := lt_of_mem_cycle h.view_closed reported member
  rwa [g.view_size] at bound

/-- The module of a row is in a report if its number is in the cycle of numbers. -/
theorem Describes.mem_map_name_iff (h : Derived g) (row_of : Describes g i node row)
    {nodes : List Nat} (reported : nodes ∈ g.view.adjacency.cycles) :
    row.moduleName ∈ nodes.map g.view.name ↔ i ∈ nodes := by
  rw [List.mem_map]
  constructor
  · rintro ⟨j, member, same⟩
    have bound : j < g.view.size := h.lt_of_mem_report reported member
    have named : g.view.names[j]? = some row.moduleName := same ▸ View.getElem?_names bound
    rwa [h.number_unique row_of.named named]
  · intro member
    exact ⟨i, member, View.name_eq_of_getElem? row_of.named⟩

/-- A reported module is not alone in its component. -/
theorem Describes.inCycle_of_mem (h : Derived g) (row_of : Describes g i node row)
    {nodes : List Nat} (reported : nodes ∈ g.view.adjacency.cycles) (member : i ∈ nodes) :
    row.inCycle = true := by
  have loop := loop_of_mem_cycles h.view_closed nodes reported
  obtain ⟨j, member', other⟩ := loop.exists_other h.not_edge_self i
  exact (row_of.inCycle_iff_mutual h).mpr
    ⟨j, h.lt_of_mem_report reported member', other,
      mutual_of_mem_cycle h.view_closed reported member member'⟩

/-- **Reports and components.** A module is in a cycle by the metrics if and only if a module of its
component is in a report. The modules of one report are all in one component, and in a cycle. -/
theorem cycles_reach_every_cyclic_component (h : Reachable g) :
    (∀ row ∈ g.metrics, row.inCycle = true ↔
      ∃ cycle ∈ g.cycles, ∃ other ∈ g.metrics,
        other.moduleName ∈ cycle ∧ other.component = row.component) ∧
    ∀ cycle ∈ g.cycles, ∀ name ∈ cycle, ∃ row ∈ g.metrics,
      row.moduleName = name ∧ row.inCycle = true ∧
      ∀ other ∈ g.metrics, other.moduleName ∈ cycle → other.component = row.component := by
  have derived := h.derived
  have closed := derived.view_closed
  constructor
  · intro row member
    obtain ⟨i, node, row_of⟩ := derived.exists_describes member
    constructor
    · intro cyclic
      obtain ⟨j, -, differ, both⟩ := (row_of.inCycle_iff_mutual derived).mp cyclic
      obtain ⟨nodes, reported, k, inside, both⟩ := exists_cycle_of_mutual closed differ both
      obtain ⟨other, member', node', other_of⟩ :=
        derived.exists_row (derived.lt_of_mem_report reported inside)
      exact ⟨_, List.mem_map_of_mem reported, other, member',
        (other_of.mem_map_name_iff derived reported).mpr inside,
        (row_of.component_eq_iff derived other_of).mpr both.symm⟩
    · rintro ⟨cycle, listed, other, member', inside, same⟩
      obtain ⟨nodes, reported, rfl⟩ := List.mem_map.mp listed
      obtain ⟨j, node', other_of⟩ := derived.exists_describes member'
      have inside := (other_of.mem_map_name_iff derived reported).mp inside
      have cyclic := other_of.inCycle_of_mem derived reported inside
      -- Being in a cycle is a matter of the component.
      have sizes : row.componentSize = other.componentSize := by
        rw [row_of.componentSize_eq derived, other_of.componentSize_eq derived, same]
      rw [other_of.inCycle, ← sizes] at cyclic
      rw [row_of.inCycle, cyclic]
  · intro cycle listed name inside
    obtain ⟨nodes, reported, rfl⟩ := List.mem_map.mp listed
    obtain ⟨i, member, rfl⟩ := List.mem_map.mp inside
    obtain ⟨row, listed, node, row_of⟩ :=
      derived.exists_row (derived.lt_of_mem_report reported member)
    refine ⟨row, listed, (View.name_eq_of_getElem? row_of.named).symm,
      row_of.inCycle_of_mem derived reported member, fun other member' inside' => ?_⟩
    obtain ⟨j, node', other_of⟩ := derived.exists_describes member'
    have inside' := (other_of.mem_map_name_iff derived reported).mp inside'
    exact (row_of.component_eq_iff derived other_of).mpr
      (mutual_of_mem_cycle closed reported inside' member)

theorem Derived.exists_cyclic_row (h : Derived g) (name other : String) (live : name ∈ g.modules)
    (chains : other ∈ g.modules ∧ other ≠ name ∧ (g.chain? name other).isSome ∧
      (g.chain? other name).isSome) :
    ∃ row ∈ g.metrics, row.moduleName = name ∧ row.inCycle = true := by
  have listed : name ∈ g.metrics.map (·.moduleName) := by
    rwa [metrics_names, h.mem_view_names]
  obtain ⟨row, member, rfl⟩ := List.mem_map.mp listed
  obtain ⟨i, node, row_of⟩ := h.exists_describes member
  exact ⟨row, member, rfl, (row_of.inCycle_iff h).mpr ⟨other, chains⟩⟩

/-- Three modules in one component. The third one is reached last and gets back through the second,
which was left before. -/
def shortcut : Graph :=
  let a : FileFacts := { path := "a", moduleField := "a", imports := [.plain "b", .plain "c"] }
  let b : FileFacts := { path := "b", moduleField := "b", imports := [.plain "a"] }
  let c : FileFacts := { path := "c", moduleField := "c", imports := [.plain "b"] }
  (((Graph.empty 1).add a).add b).add c

theorem reachable_shortcut : Reachable shortcut :=
  .add _ (.add _ (.add _ (.start 1)))

theorem exists_cyclic_row_shortcut :
    ∃ row ∈ shortcut.metrics, row.moduleName = "c" ∧ row.inCycle = true :=
  reachable_shortcut.derived.exists_cyclic_row "c" "a" (by decide +kernel) (by decide +kernel)

theorem cycles_reach_every_cyclic_component_shortcut :
    Reachable shortcut ∧ ∃ row ∈ shortcut.metrics, row.moduleName = "c" ∧ row.inCycle = true ∧
      ∃ cycle ∈ shortcut.cycles, ∃ other ∈ shortcut.metrics,
        other.moduleName ∈ cycle ∧ other.component = row.component := by
  obtain ⟨row, member, named, cyclic⟩ := exists_cyclic_row_shortcut
  obtain ⟨inCycle_iff, -⟩ := cycles_reach_every_cyclic_component reachable_shortcut
  exact ⟨reachable_shortcut, row, member, named, cyclic, (inCycle_iff row member).mp cyclic⟩

/-- The third module is in a cycle, but the only report has the other two. -/
theorem cyclic_module_in_no_report :
    Reachable shortcut ∧ shortcut.cycles = [["a", "b"]] ∧
      ∃ row ∈ shortcut.metrics, row.inCycle = true ∧
        ¬ ∃ cycle ∈ shortcut.cycles, row.moduleName ∈ cycle := by
  have reports : shortcut.cycles = [["a", "b"]] := cycles_eq_of_within 8 (by decide +kernel)
  obtain ⟨row, member, named, cyclic⟩ := exists_cyclic_row_shortcut
  exact ⟨reachable_shortcut, reports, row, member, cyclic, by simp [reports, named]⟩

end Graph

end ModuleAtlas
