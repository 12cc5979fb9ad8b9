import ModuleAtlas.Graph.Metrics
import ModuleAtlas.Proofs.Components.Search
import ModuleAtlas.Proofs.Graph.Invalidation

/-!
# Metrics against the graph

A row of the metrics is made from numbered nodes and their components. Each of its numbers is also
what the graph says without numbers: by its index of importers, its files, and its chains.
-/

namespace ModuleAtlas

open Relation (ReflTransGen)
open Std (ExtTreeMap ExtTreeSet)

/-! ## Numbers of components -/

namespace Components.Condensation

variable {adjacency : Adjacency} {components : List (List Nat)} {u v i : Nat}

theorem getElem?_componentOf (h : Condensation adjacency components) (bound : v < adjacency.size) :
    ∃ members, components[componentOf components v]? = some members ∧ v ∈ members := by
  obtain ⟨i, ⟨members, held, hv⟩, -⟩ := h.once v bound
  have found : componentOf components v < components.length :=
    List.findIdx_lt_length.mpr ⟨members, List.mem_of_getElem? held, by simpa using hv⟩
  have here := List.findIdx_getElem (w := found)
  exact ⟨_, List.getElem?_eq_getElem found, of_decide_eq_true here⟩

theorem componentOf_eq_iff (h : Condensation adjacency components) (bound : v < adjacency.size) :
    componentOf components v = i ↔ ∃ members, components[i]? = some members ∧ v ∈ members := by
  have own := h.getElem?_componentOf bound
  constructor
  · rintro rfl
    exact own
  · intro here
    exact (h.once v bound).unique own here

/-- Two nodes have one number if each leads to the other. -/
theorem componentOf_eq_componentOf_iff (h : Condensation adjacency components)
    (hu : u < adjacency.size) (hv : v < adjacency.size) :
    componentOf components u = componentOf components v ↔ adjacency.Mutual u v := by
  rw [h.componentOf_eq_iff hu, ← h.connected u hu v hv]
  constructor
  · rintro ⟨members, held, here⟩
    obtain ⟨members', held', there⟩ := h.getElem?_componentOf hv
    obtain rfl : members = members' := Option.some.inj (held.symm.trans held')
    exact ⟨members, List.mem_of_getElem? held, here, there⟩
  · rintro ⟨members, listed, here, there⟩
    obtain ⟨i, held⟩ := List.mem_iff_getElem?.mp listed
    have number := (h.componentOf_eq_iff hv).mpr ⟨members, held, there⟩
    exact ⟨members, number ▸ held, here⟩

theorem mem_component_iff (h : Condensation adjacency components) (bound : v < adjacency.size) :
    u ∈ components.getD (componentOf components v) [] ↔
      u < adjacency.size ∧ componentOf components u = componentOf components v := by
  obtain ⟨members, held, -⟩ := h.getElem?_componentOf bound
  rw [List.getD_eq_getElem?_getD, held, Option.getD_some]
  constructor
  · intro here
    have inside := h.in_range members (List.mem_of_getElem? held) u here
    exact ⟨inside, (h.componentOf_eq_iff inside).mpr ⟨members, held, here⟩⟩
  · rintro ⟨inside, same⟩
    obtain ⟨members', held', here⟩ := (h.componentOf_eq_iff inside).mp same
    obtain rfl : members = members' := Option.some.inj (held.symm.trans held')
    exact here

theorem component_nodup (h : Condensation adjacency components) (bound : v < adjacency.size) :
    (components.getD (componentOf components v) []).Nodup := by
  obtain ⟨members, held, -⟩ := h.getElem?_componentOf bound
  rw [List.getD_eq_getElem?_getD, held, Option.getD_some]
  exact (h.ascending members (List.mem_of_getElem? held)).imp Nat.ne_of_lt

theorem length_component (h : Condensation adjacency components) (bound : v < adjacency.size) :
    (components.getD (componentOf components v) []).length =
      ((List.range adjacency.size).filter fun u =>
        componentOf components u = componentOf components v).length := by
  apply List.Perm.length_eq
  apply (List.perm_ext_iff_of_nodup (h.component_nodup bound) (List.nodup_range.filter _)).mpr
  intro u
  rw [h.mem_component_iff bound, List.mem_filter, List.mem_range, decide_eq_true_iff]

/-- A component of more than one node is one of a node and another. -/
theorem one_lt_length_component (h : Condensation adjacency components)
    (bound : v < adjacency.size) :
    1 < (components.getD (componentOf components v) []).length ↔
      ∃ u < adjacency.size, u ≠ v ∧ adjacency.Mutual v u := by
  have own := (h.mem_component_iff bound).mpr ⟨bound, rfl⟩
  have others := List.length_erase_of_mem own
  have size : 1 < (components.getD (componentOf components v) []).length ↔
      0 < ((components.getD (componentOf components v) []).erase v).length := by omega
  rw [size, List.length_pos_iff_exists_mem]
  refine exists_congr fun u => ?_
  rw [(h.component_nodup bound).mem_erase_iff, h.mem_component_iff bound]
  constructor
  · rintro ⟨other, inside, same⟩
    exact ⟨inside, other, (h.componentOf_eq_componentOf_iff bound inside).mp same.symm⟩
  · rintro ⟨inside, other, both⟩
    exact ⟨other, inside, ((h.componentOf_eq_componentOf_iff bound inside).mpr both).symm⟩

end Components.Condensation

/-! ## Rows -/

theorem View.reverse_successors {view : View} {i : Nat} (bound : i < view.size) :
    view.reverse.successors i =
      (List.range view.size).filter fun source => i ∈ view.adjacency.successors source := by
  apply Adjacency.successors_eq_of_getElem?
  simp [View.reverse, bound]

theorem Names.nodup_toList (names : Names) : names.toList.Nodup :=
  names.distinct_toList.imp fun apart same => apart (by simp [same])

namespace Graph

open Components (componentOf)

variable {g : Graph} {row : ModuleMetrics}

theorem importersOf_nodup (g : Graph) (name : String) : (g.importersOf name).Nodup := by
  unfold importersOf
  split
  · exact Names.nodup_toList _
  · exact List.nodup_nil

theorem metrics_names (g : Graph) : g.metrics.map (·.moduleName) = g.view.names := by
  have rows : g.metrics.map (·.moduleName) = (List.range g.view.size).map g.view.name := by
    rw [metrics, List.map_map]
    rfl
  rw [rows]
  apply List.ext_getElem
  · simp [View.size]
  · intro i _ bound
    simp [View.name, bound]

theorem metrics_components (g : Graph) :
    g.metrics.map (·.component) =
      (List.range g.view.size).map (componentOf g.view.adjacency.components) := by
  rw [metrics, List.map_map]
  rfl

/-- The row of a module with a number, as the numbered nodes and their components give it. -/
structure Describes (g : Graph) (i : Nat) (node : ModuleNode) (row : ModuleMetrics) : Prop where
  named : g.view.names[i]? = some row.moduleName
  held : g.modules[row.moduleName]? = some node
  files : row.files = node.files.size
  fanIn : row.fanIn = (g.view.reverse.successors i).length
  fanOut : row.fanOut = (g.view.adjacency.successors i).length
  component : row.component = componentOf g.view.adjacency.components i
  componentSize : row.componentSize =
    (g.view.adjacency.components.getD (componentOf g.view.adjacency.components i) []).length
  inCycle : row.inCycle = decide (1 < row.componentSize)

theorem Derived.exists_describes (h : Derived g) (member : row ∈ g.metrics) :
    ∃ i node, Describes g i node row := by
  obtain ⟨i, bound, rfl⟩ := List.mem_map.mp member
  have named : g.view.names[i]? = some (g.view.name i) := by
    have bound : i < g.view.names.length := List.mem_range.mp bound
    simp [View.name, bound]
  obtain ⟨node, held⟩ := Table.mem_iff_exists.mp
    (h.mem_view_names.mp (List.mem_of_getElem? named))
  refine ⟨i, node, ?_⟩
  simp only [held]
  exact ⟨named, held, rfl, rfl, rfl, rfl, rfl, rfl⟩

namespace Describes

variable {i : Nat} {node : ModuleNode}

theorem bound (row_of : Describes g i node row) : i < g.view.size :=
  (List.getElem?_eq_some_iff.mp row_of.named).1

/-- The predecessors of a node are the numbers of the importers. -/
theorem fanIn_eq (h : Derived g) (row_of : Describes g i node row) :
    row.fanIn = (g.importersOf row.moduleName).length := by
  have predecessor (s : Nat) : s ∈ g.view.reverse.successors i ↔ g.view.adjacency.Edge s i := by
    rw [View.reverse_successors row_of.bound, List.mem_filter, List.mem_range, decide_eq_true_iff]
    refine and_iff_right_of_imp fun edge => ?_
    obtain ⟨source, -, named, -, -⟩ := h.edge_iff.mp edge
    exact (List.getElem?_eq_some_iff.mp named).1
  have distinct : ((g.view.reverse.successors i).map g.view.name).Nodup := by
    have numbers : (g.view.reverse.successors i).Nodup := by
      rw [View.reverse_successors row_of.bound]
      exact List.nodup_range.filter _
    refine numbers.map_on fun s hs t ht same => ?_
    obtain ⟨source, -, named, -, -⟩ := h.edge_iff.mp ((predecessor s).mp hs)
    obtain ⟨source', -, named', -, -⟩ := h.edge_iff.mp ((predecessor t).mp ht)
    rw [View.name_eq_of_getElem? named, View.name_eq_of_getElem? named'] at same
    subst same
    exact Option.some.inj ((h.indexOf?_iff.mpr named).symm.trans (h.indexOf?_iff.mpr named'))
  have listed : ((g.view.reverse.successors i).map g.view.name).Perm
      (g.importersOf row.moduleName) := by
    apply (List.perm_ext_iff_of_nodup distinct (importersOf_nodup g _)).mpr
    intro source
    rw [h.mem_importersOf, List.mem_map]
    constructor
    · rintro ⟨s, hs, rfl⟩
      have link := h.link_of_edge ((predecessor s).mp hs)
      rwa [View.name_eq_of_getElem? row_of.named] at link
    · intro link
      have named := h.getElem?_number link.source_live
      refine ⟨_, (predecessor _).mpr ?_, View.name_eq_of_getElem? named⟩
      exact h.edge_iff.mpr ⟨source, row.moduleName, named, row_of.named, link⟩
  rw [row_of.fanIn, ← listed.length_eq, List.length_map]

theorem fanOut_eq (h : Derived g) (row_of : Describes g i node row) :
    row.fanOut = (node.imports.keys.filter fun target => target ∈ g.modules).length := by
  have successors := Adjacency.successors_eq_of_getElem? (h.view_row node row_of.named row_of.held)
  rw [row_of.fanOut, successors, List.length_filterMap_eq_countP, ← List.countP_eq_length_filter]
  refine List.countP_congr fun target _ => ?_
  rw [View.indexOf?, List.isSome_idxOf?, decide_eq_true_iff, h.mem_view_names]

theorem files_eq (h : Derived g) (row_of : Describes g i node row) :
    row.files =
      (g.paths.filter fun path => g.moduleOf? path = some row.moduleName).length := by
  rw [row_of.files, ← ExtTreeSet.length_toList]
  apply List.Perm.length_eq
  apply (List.perm_ext_iff_of_nodup (Names.nodup_toList _) (g.files.nodup_keys.filter _)).mpr
  intro path
  rw [ExtTreeSet.mem_toList, h.mem_files_iff row_of.held, List.mem_filter, decide_eq_true_iff,
    ExtTreeMap.mem_keys, Table.mem_iff_exists]
  refine (and_iff_right_of_imp fun tracked => ?_).symm
  obtain ⟨c, held, -⟩ := Option.map_eq_some_iff.mp tracked
  exact ⟨c, held⟩

theorem componentSize_eq (h : Derived g) (row_of : Describes g i node row) :
    row.componentSize = (g.metrics.filter fun other => other.component = row.component).length := by
  have condensed := Components.condensation_components h.view_closed
  have bound : i < g.view.adjacency.size := g.view_size ▸ row_of.bound
  have counted : (g.metrics.filter fun other => other.component = row.component).length =
      (g.metrics.map (·.component)).countP (· = row.component) := by
    rw [List.countP_map, ← List.countP_eq_length_filter]
    rfl
  rw [row_of.componentSize, condensed.length_component bound, counted, metrics_components,
    List.countP_map, ← List.countP_eq_length_filter, row_of.component, g.view_size]
  rfl

end Describes

/-- Two numbers are in one component if there are chains both ways between their modules. -/
theorem Derived.mutual_iff (h : Derived g) {i j : Nat} {name other : String}
    (named : g.view.names[i]? = some name) (named' : g.view.names[j]? = some other) :
    g.view.adjacency.Mutual i j ↔ (g.chain? name other).isSome ∧ (g.chain? other name).isSome := by
  have live := h.mem_view_names.mp (List.mem_of_getElem? named)
  have live' := h.mem_view_names.mp (List.mem_of_getElem? named')
  rw [Adjacency.Mutual, h.reach_iff named named', h.reach_iff named' named,
    h.chain?_isSome_iff live live', h.chain?_isSome_iff live' live]

theorem Describes.inCycle_iff (h : Derived g) {i : Nat} {node : ModuleNode}
    (row_of : Describes g i node row) :
    row.inCycle = true ↔ ∃ name ∈ g.modules, name ≠ row.moduleName ∧
      (g.chain? row.moduleName name).isSome ∧ (g.chain? name row.moduleName).isSome := by
  have condensed := Components.condensation_components h.view_closed
  have bound : i < g.view.adjacency.size := g.view_size ▸ row_of.bound
  rw [row_of.inCycle, decide_eq_true_iff, row_of.componentSize,
    condensed.one_lt_length_component bound]
  constructor
  · rintro ⟨j, inside, other, both⟩
    rw [g.view_size] at inside
    have named' := List.getElem?_eq_getElem inside
    refine ⟨_, h.mem_view_names.mp (List.mem_of_getElem? named'), fun same => other ?_,
      (h.mutual_iff row_of.named named').mp both⟩
    rw [same] at named'
    exact Option.some.inj ((h.indexOf?_iff.mpr named').symm.trans (h.indexOf?_iff.mpr row_of.named))
  · rintro ⟨name, live, other, chains⟩
    have named' := h.getElem?_number live
    refine ⟨_, g.view_size ▸ (List.getElem?_eq_some_iff.mp named').1, fun same => other ?_,
      (h.mutual_iff row_of.named named').mpr chains⟩
    rw [same] at named'
    exact Option.some.inj (named'.symm.trans row_of.named)

/-- **Metrics.** There is one row for each module, in ascending order of names. Its counts are those
of the index of importers, of the imports that lead to modules and of the tracked files; its
component has the rows that chains lead to and back from, and it is in a cycle if that is so of
another module. -/
theorem metrics_count_what_the_graph_holds (h : Reachable g) :
    (g.metrics.map (·.moduleName)).Pairwise (· < ·) ∧
    (∀ name, name ∈ g.metrics.map (·.moduleName) ↔ name ∈ g.modules) ∧
    ∀ row ∈ g.metrics,
      row.fanIn = (g.importersOf row.moduleName).length ∧
      (∃ node, g.modules[row.moduleName]? = some node ∧
        row.fanOut = (node.imports.keys.filter fun target => target ∈ g.modules).length) ∧
      row.files = (g.paths.filter fun path => g.moduleOf? path = some row.moduleName).length ∧
      (∀ other ∈ g.metrics, row.component = other.component ↔
        (g.chain? row.moduleName other.moduleName).isSome ∧
          (g.chain? other.moduleName row.moduleName).isSome) ∧
      row.componentSize = (g.metrics.filter fun other => other.component = row.component).length ∧
      (row.inCycle = true ↔ ∃ name ∈ g.modules, name ≠ row.moduleName ∧
        (g.chain? row.moduleName name).isSome ∧ (g.chain? name row.moduleName).isSome) := by
  have derived := h.derived
  have condensed := Components.condensation_components derived.view_closed
  rw [metrics_names]
  refine ⟨?_, fun name => derived.mem_view_names, fun row member => ?_⟩
  · rw [derived.view_names]
    exact g.modules.ordered_keys.imp compare_lt_iff_lt.mp
  · obtain ⟨i, node, row_of⟩ := derived.exists_describes member
    refine ⟨row_of.fanIn_eq derived, ⟨node, row_of.held, row_of.fanOut_eq derived⟩,
      row_of.files_eq derived, fun other member' => ?_, row_of.componentSize_eq derived,
      row_of.inCycle_iff derived⟩
    obtain ⟨j, node', other_of⟩ := derived.exists_describes member'
    rw [row_of.component, other_of.component, ← derived.mutual_iff row_of.named other_of.named]
    exact condensed.componentOf_eq_componentOf_iff (g.view_size ▸ row_of.bound)
      (g.view_size ▸ other_of.bound)

/-- Two modules import each other, and one of them has two files. A third module imports one of them
and a module that is gone. -/
theorem metrics_count_what_the_graph_holds_ring :
    let a : FileFacts := { path := "a", moduleField := "m", imports := [.plain "n"] }
    let b : FileFacts := { path := "b", moduleField := "n", imports := [.plain "m"] }
    let c : FileFacts := { path := "c", moduleField := "o", imports := [.plain "x", .plain "m"] }
    let d : FileFacts := { path := "d", moduleField := "m", imports := [.plain "n"] }
    let e : FileFacts := { path := "e", moduleField := "x", imports := [.plain "m"] }
    let g := ((Graph.empty 1).addAll [c, a, e, d, b]).remove "e"
    (∃ row ∈ g.metrics, row.moduleName = "m" ∧ row.files = 2 ∧ row.fanIn = 2 ∧ row.fanOut = 1 ∧
      row.inCycle = true) ∧
    ∃ row ∈ g.metrics, row.moduleName = "o" ∧ row.files = 1 ∧ row.fanIn = 0 ∧ row.fanOut = 1 := by
  intro a b c d e g
  have reached : Reachable g :=
    .remove "e" (.add b (.add d (.add e (.add a (.add c (.start 1))))))
  obtain ⟨-, names, rows⟩ := metrics_count_what_the_graph_holds reached
  obtain ⟨row, member, named⟩ := List.mem_map.mp ((names "m").mpr (by decide +kernel))
  obtain ⟨row', member', named'⟩ := List.mem_map.mp ((names "o").mpr (by decide +kernel))
  obtain ⟨fanIn, ⟨node, held, fanOut⟩, files, -, -, inCycle⟩ := rows row member
  obtain ⟨fanIn', ⟨node', held', fanOut'⟩, files', -, -, -⟩ := rows row' member'
  simp only [named, named'] at fanIn held files inCycle fanIn' held' files'
  have chains : ∃ name ∈ g.modules, name ≠ "m" ∧ (g.chain? "m" name).isSome ∧
      (g.chain? name "m").isSome := ⟨"n", by decide +kernel⟩
  have targets : g.modules["m"]?.map (fun node =>
      (node.imports.keys.filter fun target => target ∈ g.modules).length) = some 1 := by
    decide +kernel
  have targets' : g.modules["o"]?.map (fun node =>
      (node.imports.keys.filter fun target => target ∈ g.modules).length) = some 1 := by
    decide +kernel
  refine ⟨⟨row, member, named, files.trans (by decide +kernel), fanIn.trans (by decide +kernel), ?_,
    inCycle.mpr chains⟩, row', member', named', files'.trans (by decide +kernel),
    fanIn'.trans (by decide +kernel), ?_⟩
  · rw [held, Option.map_some] at targets
    exact fanOut.trans (Option.some.inj targets)
  · rw [held', Option.map_some] at targets'
    exact fanOut'.trans (Option.some.inj targets')

end Graph

end ModuleAtlas
