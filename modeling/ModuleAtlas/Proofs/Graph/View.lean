import ModuleAtlas.Graph.View
import ModuleAtlas.Proofs.Adjacency
import ModuleAtlas.Proofs.Graph.History

/-! The numbered nodes of a graph are its modules, and their edges the imports that lead from one
module to another. -/

namespace ModuleAtlas

open Relation (ReflTransGen)
open Std (ExtTreeMap ExtTreeSet)

theorem View.indexOf?_eq_some_iff {names : List String} (distinct : names.Nodup) {name : String}
    {i : Nat} : View.indexOf? names name = some i ↔ names[i]? = some name := by
  rw [View.indexOf?, List.idxOf?_eq_some_iff, List.getElem?_eq_some_iff]
  constructor
  · rintro ⟨bound, found, -⟩
    exact ⟨bound, found⟩
  · rintro ⟨bound, found⟩
    refine ⟨bound, found, fun j earlier again => ?_⟩
    exact Nat.ne_of_lt earlier (distinct.getElem_inj_iff.mp (again.trans found.symm))

theorem View.name_eq_of_getElem? {view : View} {i : Nat} {name : String}
    (named : view.names[i]? = some name) : view.name i = name := by
  rw [View.name, List.getD_eq_getElem?_getD, named, Option.getD_some]

theorem View.getElem?_names {view : View} {i : Nat} (bound : i < view.size) :
    view.names[i]? = some (view.name i) := by
  have held : view.names[i]? = some view.names[i] := List.getElem?_eq_getElem bound
  rw [held, View.name_eq_of_getElem? held]

namespace Graph

/-- An import of one module that leads to a module. -/
def Link (g : Graph) (source target : String) : Prop :=
  target ∈ g.modules ∧ Imports g.modules source target

theorem Link.source_live {g : Graph} {source target : String} (link : g.Link source target) :
    source ∈ g.modules := by
  obtain ⟨-, node, held, -⟩ := link
  exact Table.mem_iff_exists.mpr ⟨node, held⟩

theorem Derived.mem_importersOf {g : Graph} (h : Derived g) {source target : String} :
    source ∈ g.importersOf target ↔ g.Link source target := by
  rw [mem_importersOf_iff, h.mirrors.entered_iff, Link]

theorem view_size (g : Graph) : g.view.adjacency.size = g.view.names.length := by
  simp [view, View.ofModules]

namespace Derived

variable {g : Graph} {i j : Nat} {name source target : String}

theorem has_files (h : Derived g) {node : ModuleNode} (held : g.modules[name]? = some node) :
    node.files.isEmpty = false := by
  obtain ⟨path, member⟩ := (h.live_iff name).mp (Table.mem_iff_exists.mpr ⟨node, held⟩)
  rw [ExtTreeSet.isEmpty_eq_false_iff]
  rintro none
  have here := (h.mem_files_iff held path).mpr member
  rw [none] at here
  exact ExtTreeSet.not_mem_empty here

theorem live_eq (h : Derived g) :
    (g.modules.toList.filter fun (_, node) => !node.files.isEmpty) = g.modules.toList := by
  rw [List.filter_eq_self]
  rintro ⟨name, node⟩ member
  simp [h.has_files (ExtTreeMap.mem_toList_iff_getElem?_eq_some.mp member)]

theorem view_names (h : Derived g) : g.view.names = g.modules.keys := by
  rw [view, View.ofModules, h.live_eq]
  exact ExtTreeMap.map_fst_toList_eq_keys

theorem mem_view_names (h : Derived g) : name ∈ g.view.names ↔ name ∈ g.modules := by
  rw [h.view_names, ExtTreeMap.mem_keys]

theorem view_names_nodup (h : Derived g) : g.view.names.Nodup := by
  rw [h.view_names]
  exact g.modules.nodup_keys

theorem indexOf?_iff (h : Derived g) :
    View.indexOf? g.view.names name = some i ↔ g.view.names[i]? = some name :=
  View.indexOf?_eq_some_iff h.view_names_nodup

theorem number_unique (h : Derived g) (named : g.view.names[i]? = some name)
    (named' : g.view.names[j]? = some name) : i = j :=
  Option.some.inj ((h.indexOf?_iff.mpr named).symm.trans (h.indexOf?_iff.mpr named'))

/-- The successors of a node, as the module it stands for imports them. -/
theorem view_row (h : Derived g) (node : ModuleNode) (named : g.view.names[i]? = some name)
    (held : g.modules[name]? = some node) :
    g.view.adjacency[i]? =
      some (node.imports.keys.filterMap (View.indexOf? g.view.names)) := by
  obtain ⟨node', entry⟩ : ∃ node', g.modules.toList[i]? = some (name, node') := by
    rw [h.view_names, ← ExtTreeMap.map_fst_toList_eq_keys, List.getElem?_map] at named
    obtain ⟨⟨_, node'⟩, entry, rfl⟩ := Option.map_eq_some_iff.mp named
    exact ⟨node', entry⟩
  have held' := ExtTreeMap.mem_toList_iff_getElem?_eq_some.mp (List.mem_of_getElem? entry)
  obtain rfl : node = node' := Option.some.inj (held.symm.trans held')
  simp only [view, View.ofModules, h.live_eq, List.getElem?_toArray, List.getElem?_map, entry,
    Option.map_some]

theorem edge_iff (h : Derived g) :
    g.view.adjacency.Edge i j ↔
      ∃ source target, g.view.names[i]? = some source ∧ g.view.names[j]? = some target ∧
        g.Link source target := by
  constructor
  · intro edge
    cases row : g.view.adjacency[i]? with
    | none => simp [Adjacency.Edge, Adjacency.successors, row] at edge
    | some successors =>
      have bound : i < g.view.names.length := by
        rw [← g.view_size]
        exact (Array.getElem?_eq_some_iff.mp row).1
      have named := List.getElem?_eq_getElem bound
      have live := h.mem_view_names.mp (List.getElem_mem bound)
      obtain ⟨node, held⟩ := Table.mem_iff_exists.mp live
      rw [Adjacency.Edge, Adjacency.successors_eq_of_getElem? (h.view_row node named held),
        List.mem_filterMap] at edge
      obtain ⟨target, imported, found⟩ := edge
      have named' := h.indexOf?_iff.mp found
      refine ⟨_, target, named, named', ?_, node, held, by simpa using imported⟩
      exact h.mem_view_names.mp (List.mem_of_getElem? named')
  · rintro ⟨source, target, named, named', -, node, held, imported⟩
    rw [Adjacency.Edge, Adjacency.successors_eq_of_getElem? (h.view_row node named held),
      List.mem_filterMap]
    exact ⟨target, by simpa using imported, h.indexOf?_iff.mpr named'⟩

theorem link_of_edge (h : Derived g) (edge : g.view.adjacency.Edge i j) :
    g.Link (g.view.name i) (g.view.name j) := by
  obtain ⟨source, target, named, named', link⟩ := h.edge_iff.mp edge
  rwa [View.name_eq_of_getElem? named, View.name_eq_of_getElem? named']

/-- A module has a number, and is the one named by it. -/
theorem getElem?_number (h : Derived g) (live : name ∈ g.modules) :
    g.view.names[g.view.names.idxOf name]? = some name :=
  List.getElem?_idxOf (h.mem_view_names.mpr live)

theorem edge_of_link (h : Derived g) (link : g.Link source target) :
    g.view.adjacency.Edge (g.view.names.idxOf source) (g.view.names.idxOf target) :=
  h.edge_iff.mpr ⟨source, target, h.getElem?_number link.source_live, h.getElem?_number link.1, link⟩

theorem idxOf_eq (h : Derived g) (named : g.view.names[i]? = some name) :
    g.view.names.idxOf name = i :=
  h.number_unique (h.getElem?_number (h.mem_view_names.mp (List.mem_of_getElem? named))) named

/-- Paths between numbers are chains of links between the modules they stand for. -/
theorem reach_iff (h : Derived g) (named : g.view.names[i]? = some source)
    (named' : g.view.names[j]? = some target) :
    g.view.adjacency.Reach i j ↔ ReflTransGen g.Link source target := by
  constructor
  · intro path
    have links : ReflTransGen g.Link (g.view.name i) (g.view.name j) :=
      ReflTransGen.lift g.view.name (fun _ _ => h.link_of_edge) _ _ path
    rwa [View.name_eq_of_getElem? named, View.name_eq_of_getElem? named'] at links
  · intro links
    have path : g.view.adjacency.Reach (g.view.names.idxOf source) (g.view.names.idxOf target) :=
      ReflTransGen.lift g.view.names.idxOf (fun _ _ => h.edge_of_link) _ _ links
    rwa [h.idxOf_eq named, h.idxOf_eq named'] at path

theorem view_closed (h : Derived g) : g.view.adjacency.Closed := by
  intro successors member v hv
  obtain ⟨u, row⟩ := Array.mem_iff_getElem?.mp (Array.mem_toList_iff.mp member)
  have edge : g.view.adjacency.Edge u v := by
    rwa [Adjacency.Edge, Adjacency.successors_eq_of_getElem? row]
  obtain ⟨-, target, -, named, -⟩ := h.edge_iff.mp edge
  rw [g.view_size]
  exact (List.getElem?_eq_some_iff.mp named).1

end Derived

end Graph

end ModuleAtlas
