import ModuleAtlas.Proofs.Graph.Metrics
import Mathlib.Data.List.Chain
import Mathlib.Data.Set.Basic
import Mathlib.Order.Bounds.Defs

/-!
# Depths are longest paths

Components come sinks first, so when a component gets its depth all those it leads to have theirs:
`Condensation.depth_lt` and `Condensation.exists_deepest`. Between modules this says that depths are
shared within a component, fall along every import that leaves one, and never skip a number:
`Levels`. Such numbers are the lengths of longest paths.
-/

namespace ModuleAtlas

open Relation (ReflTransGen)

/-! ## Depths of numbered components -/

namespace Components

variable {adjacency : Adjacency} {components : List (List Nat)} {members : List Nat} {i u v : Nat}

/-- A fold that puts one entry for each item behind the others leaves what was there. -/
theorem foldl_concat_eq {α β : Type} (entry : List β → α → β) (made : List β) (items : List α) :
    ∃ rest, rest.length = items.length ∧
      items.foldl (fun made item => made ++ [entry made item]) made = made ++ rest := by
  induction items generalizing made with
  | nil => exact ⟨[], rfl, (List.append_nil made).symm⟩
  | cons item items ih =>
    obtain ⟨rest, length, whole⟩ := ih (made ++ [entry made item])
    refine ⟨entry made item :: rest, by rw [List.length_cons, length, List.length_cons], ?_⟩
    rw [List.foldl_cons, whole, List.append_assoc]
    rfl

/-- A component gets its depth from those of the components before it. -/
theorem depths_split (adjacency : Adjacency) (held : components[i]? = some members) :
    ∃ earlier rest, earlier.length = i ∧
      depths adjacency components =
        earlier ++ depthOf adjacency components earlier members :: rest := by
  obtain ⟨bound, rfl⟩ := List.getElem?_eq_some_iff.mp held
  let entry := depthOf adjacency components
  obtain ⟨earlier, length, start⟩ := foldl_concat_eq entry [] (components.take i)
  obtain ⟨rest, -, made⟩ := foldl_concat_eq entry (earlier ++ [entry earlier components[i]])
    (components.drop (i + 1))
  refine ⟨earlier, rest, length.trans (List.length_take_of_le bound.le), ?_⟩
  have whole : depths adjacency components =
      (components.take i ++ components[i] :: components.drop (i + 1)).foldl
        (fun made members => made ++ [entry made members]) [] := by
    rw [← List.drop_eq_getElem_cons, List.take_append_drop]
    rfl
  rw [whole, List.foldl_append, start, List.nil_append, List.foldl_cons, made, List.append_assoc]
  rfl

/-- The depth of the component of a node. -/
def nodeDepth (adjacency : Adjacency) (components : List (List Nat)) (v : Nat) : Nat :=
  (depths adjacency components).getD (componentOf components v) 0

namespace Condensation

/-- The depths of the components that a component leads to, each with one more. -/
def onward (adjacency : Adjacency) (components : List (List Nat)) (members : List Nat) (i : Nat) :
    List Nat :=
  ((members.flatMap adjacency.successors).filter fun v => componentOf components v ≠ i).map
    fun v => nodeDepth adjacency components v + 1

/-- A depth is the greatest of those that its component leads on to, or zero. -/
theorem nodeDepth_eq (h : Condensation adjacency components) (closed : adjacency.Closed)
    (held : components[componentOf components u]? = some members) :
    nodeDepth adjacency components u =
      (onward adjacency components members (componentOf components u)).foldl max 0 := by
  obtain ⟨earlier, rest, place, made⟩ := depths_split adjacency held
  have own : nodeDepth adjacency components u = depthOf adjacency components earlier members := by
    rw [nodeDepth, made, ← place, List.getD_eq_getElem?_getD, List.getElem?_append_right le_rfl]
    simp
  rw [own, depthOf, onward, List.filter_map, List.map_map, place]
  congr 1
  refine List.map_congr_left fun v listed => ?_
  obtain ⟨leads, other⟩ := List.mem_filter.mp listed
  obtain ⟨a, inside, edge⟩ := List.mem_flatMap.mp leads
  obtain ⟨members', held', inside'⟩ := h.getElem?_componentOf (closed.edge_lt edge)
  -- Sinks come first, so the depth is among those made before.
  have before : componentOf components v < earlier.length := by
    rw [place]
    have leaves : componentOf components v ≠ componentOf components u := by simpa using other
    exact h.sinks_first _ _ members members' held held' leaves.symm a inside v inside' edge
  simp only [Function.comp_apply, nodeDepth, made, List.getD_eq_getElem?_getD,
    List.getElem?_append_left before]

/-- Depths fall along edges between components. -/
theorem depth_lt (h : Condensation adjacency components) (closed : adjacency.Closed)
    (bound : u < adjacency.size) (edge : adjacency.Edge u v)
    (leaves : componentOf components v ≠ componentOf components u) :
    nodeDepth adjacency components v < nodeDepth adjacency components u := by
  obtain ⟨members, held, inside⟩ := h.getElem?_componentOf bound
  have listed : nodeDepth adjacency components v + 1 ∈
      onward adjacency components members (componentOf components u) := by
    refine List.mem_map.mpr ⟨v, List.mem_filter.mpr ⟨?_, by simpa using leaves⟩, rfl⟩
    exact List.mem_flatMap.mpr ⟨u, inside, edge⟩
  rw [h.nodeDepth_eq closed held]
  exact (List.max?_eq_some_iff.mp List.max?_cons').2 _ (.tail _ listed)

/-- No number is skipped: an edge leads out of a component to the depth below its own. -/
theorem exists_deepest (h : Condensation adjacency components) (closed : adjacency.Closed)
    (bound : u < adjacency.size) (deep : nodeDepth adjacency components u ≠ 0) :
    ∃ a < adjacency.size, ∃ b, componentOf components a = componentOf components u ∧
      adjacency.Edge a b ∧ componentOf components b ≠ componentOf components u ∧
      nodeDepth adjacency components u = nodeDepth adjacency components b + 1 := by
  obtain ⟨members, held, -⟩ := h.getElem?_componentOf bound
  rw [h.nodeDepth_eq closed held] at deep ⊢
  let later := onward adjacency components members (componentOf components u)
  have greatest : later.foldl max 0 ∈ 0 :: later := (List.max?_eq_some_iff.mp List.max?_cons').1
  obtain ⟨b, listed, same⟩ := List.mem_map.mp ((List.mem_cons.mp greatest).resolve_left deep)
  obtain ⟨leads, leaves⟩ := List.mem_filter.mp listed
  obtain ⟨a, inside, edge⟩ := List.mem_flatMap.mp leads
  have bound' := h.in_range members (List.mem_of_getElem? held) a inside
  exact ⟨a, bound', b, (h.componentOf_eq_iff bound').mpr ⟨members, held, inside⟩, edge,
    by simpa using leaves, same.symm⟩

end Condensation

end Components

namespace Graph

variable {g : Graph} {depth : String → Nat} {name other : String}

/-! ## Paths of components -/

/-- The modules that a module leads to and that lead back to it. -/
def componentAround (g : Graph) (name : String) : Set String :=
  {other | ReflTransGen g.Link name other ∧ ReflTransGen g.Link other name}

theorem mem_componentAround_self (g : Graph) (name : String) : name ∈ g.componentAround name :=
  ⟨.refl, .refl⟩

theorem componentAround_eq_iff :
    g.componentAround name = g.componentAround other ↔ other ∈ g.componentAround name := by
  constructor
  · intro same
    rw [same]
    exact g.mem_componentAround_self other
  · rintro ⟨there, back⟩
    ext a
    exact ⟨fun ⟨out, home⟩ => ⟨back.trans out, home.trans there⟩,
      fun ⟨out, home⟩ => ⟨there.trans out, home.trans back⟩⟩

/-- Components, all different, each with an import that leads to the next; the first is the one
around a module. -/
structure CondensedPath (g : Graph) (name : String) (path : List (Set String)) : Prop where
  first : ∃ component, path.head? = some component ∧ name ∈ component
  components : ∀ component ∈ path, ∃ m ∈ g.modules, component = g.componentAround m
  distinct : path.Nodup
  steps : path.IsChain fun component next => ∃ a ∈ component, ∃ b ∈ next, g.Link a b

/-- Numbers that the modules of a component share, that fall along the imports that leave it, and
that skip no number. -/
structure Levels (g : Graph) (depth : String → Nat) : Prop where
  shared : ∀ a ∈ g.modules, ∀ b ∈ g.componentAround a, depth b = depth a
  falls : ∀ a b, g.Link a b → b ∉ g.componentAround a → depth b < depth a
  deepest : ∀ name ∈ g.modules, depth name ≠ 0 →
    ∃ a ∈ g.componentAround name, ∃ b, g.Link a b ∧ depth name = depth b + 1

namespace Levels

/-- No path is longer than the depth of its first component. -/
theorem length_le (h : Levels g depth) {path : List (Set String)} (live : name ∈ g.modules)
    (way : g.CondensedPath name path) : path.length ≤ depth name + 1 := by
  induction path generalizing name with
  | nil => simp
  | cons component rest ih =>
    cases rest with
    | nil => simp
    | cons next rest =>
      obtain ⟨_, head, inside⟩ := way.first
      obtain rfl := Option.some.inj head
      obtain ⟨⟨a, ha, b, hb, link⟩, steps⟩ := List.isChain_cons_cons.mp way.steps
      obtain ⟨fresh, distinct⟩ := List.nodup_cons.mp way.distinct
      have around {c : Set String} (listed : c ∈ component :: next :: rest) {m : String}
          (member : m ∈ c) : c = g.componentAround m := by
        obtain ⟨m', -, rfl⟩ := way.components c listed
        exact componentAround_eq_iff.mpr member
      have here := around List.mem_cons_self inside
      -- The step leaves the component, or the next one would be the same.
      have leaves : b ∉ g.componentAround a := by
        intro back
        apply fresh
        rw [around List.mem_cons_self ha, componentAround_eq_iff.mpr back,
          ← around (.tail _ List.mem_cons_self) hb]
        exact List.mem_cons_self
      have below := h.falls a b link leaves
      have same : depth a = depth name := h.shared name live a (here ▸ ha)
      have onward : g.CondensedPath b (next :: rest) :=
        ⟨⟨next, rfl, hb⟩, fun c listed => way.components c (.tail _ listed), distinct, steps⟩
      have := ih link.1 onward
      rw [List.length_cons]
      omega

/-- From every module some path goes all the way down. -/
theorem exists_path (h : Levels g depth) (live : name ∈ g.modules) :
    ∃ path, g.CondensedPath name path ∧ path.length = depth name + 1 ∧
      ∀ component ∈ path, ∀ m ∈ component, depth m ≤ depth name := by
  induction level : depth name generalizing name with
  | zero =>
    refine ⟨[g.componentAround name], ⟨⟨_, rfl, g.mem_componentAround_self name⟩, ?_,
      List.nodup_singleton _, .singleton _⟩, rfl, ?_⟩
    · simpa using ⟨name, live, rfl⟩
    · simpa using fun m member => (h.shared name live m member).trans level
  | succ n ih =>
    obtain ⟨a, inside, b, link, one⟩ := h.deepest name live (by omega)
    have below : depth b = n := by omega
    obtain ⟨path, way, length, bounded⟩ := ih link.1 below
    obtain ⟨next, head, leads⟩ := way.first
    refine ⟨g.componentAround name :: path, ⟨⟨_, rfl, g.mem_componentAround_self name⟩, ?_, ?_, ?_⟩,
      by rw [List.length_cons, length], ?_⟩
    · rw [List.forall_mem_cons]
      exact ⟨⟨name, live, rfl⟩, way.components⟩
    · refine List.nodup_cons.mpr ⟨fun again => ?_, way.distinct⟩
      have := bounded _ again name (g.mem_componentAround_self name)
      omega
    · refine List.isChain_cons.mpr ⟨fun next' head' => ?_, way.steps⟩
      obtain rfl : next = next' := Option.some.inj (head.symm.trans head')
      exact ⟨a, inside, b, leads, link⟩
    · rw [List.forall_mem_cons]
      refine ⟨fun m member => ((h.shared name live m member).trans level).le, ?_⟩
      exact fun c listed m member => (bounded c listed m member).trans (Nat.le_succ n)

theorem isGreatest (h : Levels g depth) (live : name ∈ g.modules) :
    IsGreatest {k | ∃ path, g.CondensedPath name path ∧ path.length = k + 1} (depth name) := by
  constructor
  · obtain ⟨path, way, length, -⟩ := h.exists_path live
    exact ⟨path, way, length⟩
  · rintro k ⟨path, way, length⟩
    have := h.length_le live way
    omega

end Levels

/-! ## Depths of modules -/

/-- The depth of the component with the number of a module. -/
def depthOf (g : Graph) (name : String) : Nat :=
  Components.nodeDepth g.view.adjacency g.view.adjacency.components (g.view.names.idxOf name)

theorem depth_eq {row : ModuleMetrics} (member : row ∈ g.metrics) :
    row.depth = (Components.depths g.view.adjacency g.view.adjacency.components).getD
      row.component 0 := by
  obtain ⟨i, -, rfl⟩ := List.mem_map.mp member
  rfl

theorem Derived.depth_eq_depthOf (h : Derived g) {row : ModuleMetrics} (member : row ∈ g.metrics) :
    row.depth = g.depthOf row.moduleName := by
  obtain ⟨i, node, row_of⟩ := h.exists_describes member
  rw [depth_eq member, row_of.component, depthOf, h.idxOf_eq row_of.named]
  rfl

theorem Derived.idxOf_lt (h : Derived g) (live : name ∈ g.modules) :
    g.view.names.idxOf name < g.view.adjacency.size := by
  rw [g.view_size]
  exact (List.getElem?_eq_some_iff.mp (h.getElem?_number live)).1

theorem Derived.mem_componentAround_iff (h : Derived g) (live : name ∈ g.modules)
    (live' : other ∈ g.modules) :
    other ∈ g.componentAround name ↔
      g.view.adjacency.Mutual (g.view.names.idxOf name) (g.view.names.idxOf other) :=
  and_congr (h.reach_iff (h.getElem?_number live) (h.getElem?_number live')).symm
    (h.reach_iff (h.getElem?_number live') (h.getElem?_number live)).symm

theorem live_of_mem_componentAround (live : name ∈ g.modules)
    (member : other ∈ g.componentAround name) : other ∈ g.modules := by
  rcases member.1.cases_tail with rfl | ⟨_, -, link⟩
  · exact live
  · exact link.1

theorem Derived.levels (h : Derived g) : g.Levels g.depthOf := by
  have closed := h.view_closed
  have condensed := Components.condensation_components closed
  have number {a b : String} (ha : a ∈ g.modules) (hb : b ∈ g.modules) :
      b ∈ g.componentAround a ↔
        Components.componentOf g.view.adjacency.components (g.view.names.idxOf b) =
          Components.componentOf g.view.adjacency.components (g.view.names.idxOf a) := by
    rw [h.mem_componentAround_iff ha hb, eq_comm,
      condensed.componentOf_eq_componentOf_iff (h.idxOf_lt ha) (h.idxOf_lt hb)]
  refine ⟨fun a ha b member => ?_, fun a b link leaves => ?_, fun name live deep => ?_⟩
  · have hb := live_of_mem_componentAround ha member
    rw [depthOf, depthOf, Components.nodeDepth, Components.nodeDepth, (number ha hb).mp member]
  · rw [number link.source_live link.1] at leaves
    exact condensed.depth_lt closed (h.idxOf_lt link.source_live) (h.edge_of_link link) leaves
  · obtain ⟨i, bound, j, same, edge, -, one⟩ :=
      condensed.exists_deepest closed (h.idxOf_lt live) deep
    have link := h.link_of_edge edge
    have back : g.view.names.idxOf (g.view.name i) = i :=
      h.idxOf_eq (View.getElem?_names (bound.trans_eq g.view_size))
    have back' : g.view.names.idxOf (g.view.name j) = j :=
      h.idxOf_eq (View.getElem?_names ((closed.edge_lt edge).trans_eq g.view_size))
    refine ⟨g.view.name i, (number live link.source_live).mpr (by rw [back, same]),
      g.view.name j, link, ?_⟩
    rw [depthOf, depthOf, back']
    exact one

/-- **Depths.** Every module has a row, and its depth is the greatest number of steps on a path of
components that starts at its own. So modules of one component have the same depth, and an import
that leads out of a component leads to a smaller one. -/
theorem depths_are_longest_paths (h : Reachable g) :
    (∀ name ∈ g.modules, ∃ row ∈ g.metrics, row.moduleName = name) ∧
    ∀ row ∈ g.metrics,
      IsGreatest {k | ∃ path, g.CondensedPath row.moduleName path ∧ path.length = k + 1}
        row.depth ∧
      ∀ other ∈ g.metrics,
        (g.componentAround row.moduleName = g.componentAround other.moduleName →
          row.depth = other.depth) ∧
        (g.Link row.moduleName other.moduleName →
          g.componentAround row.moduleName ≠ g.componentAround other.moduleName →
          other.depth < row.depth) := by
  have derived := h.derived
  have levels := derived.levels
  refine ⟨fun name live => ?_, fun row member => ?_⟩
  · rw [← derived.mem_view_names, ← metrics_names] at live
    exact List.mem_map.mp live
  · have live : row.moduleName ∈ g.modules := by
      rw [← derived.mem_view_names, ← metrics_names]
      exact List.mem_map_of_mem member
    rw [derived.depth_eq_depthOf member]
    refine ⟨levels.isGreatest live, fun other member' => ?_⟩
    rw [derived.depth_eq_depthOf member', Ne, componentAround_eq_iff]
    exact ⟨fun same => (levels.shared _ live _ same).symm, levels.falls _ _⟩

/-- The ring of m and n has one depth, between that of o, which imports it, and that of q, which it
imports. -/
theorem depths_are_longest_paths_ring :
    let m : FileFacts := { path := "a", moduleField := "m", imports := [.plain "n", .plain "q"] }
    let n : FileFacts := { path := "b", moduleField := "n", imports := [.plain "m"] }
    let o : FileFacts := { path := "c", moduleField := "o", imports := [.plain "m"] }
    let q : FileFacts := { path := "d", moduleField := "q" }
    let g := (Graph.empty 1).addAll [o, m, q, n]
    ∃ top ∈ g.metrics, ∃ left ∈ g.metrics, ∃ right ∈ g.metrics, ∃ low ∈ g.metrics,
      [top, left, right, low].map (·.moduleName) = ["o", "m", "n", "q"] ∧
      left.depth = right.depth ∧ low.depth < left.depth ∧ left.depth < top.depth ∧
      ∃ path, g.CondensedPath "o" path ∧ path.length = top.depth + 1 := by
  intro m n o q g
  have reached : Reachable g := .add n (.add q (.add m (.add o (.start 1))))
  obtain ⟨rows, depths⟩ := depths_are_longest_paths reached
  obtain ⟨top, htop, is_o⟩ := rows "o" (by decide +kernel)
  obtain ⟨left, hleft, is_m⟩ := rows "m" (by decide +kernel)
  obtain ⟨right, hright, is_n⟩ := rows "n" (by decide +kernel)
  obtain ⟨low, hlow, is_q⟩ := rows "q" (by decide +kernel)
  have link {a b : String} (imported : a ∈ g.importersOf b) : g.Link a b :=
    reached.derived.mem_importersOf.mp imported
  have mn : g.Link "m" "n" := link (by decide +kernel)
  have nm : g.Link "n" "m" := link (by decide +kernel)
  have ring : g.componentAround "m" = g.componentAround "n" :=
    componentAround_eq_iff.mpr ⟨.single mn, .single nm⟩
  have mq : g.componentAround "m" ≠ g.componentAround "q" := by
    intro same
    rcases (componentAround_eq_iff.mp same).2.cases_head with other | ⟨_, ⟨-, node, held, leads⟩, -⟩
    · exact absurd other (by decide)
    · have alone : (g.modules["q"]?).all fun node => node.imports.isEmpty := by decide +kernel
      rw [held, Option.all_some, Std.ExtTreeMap.isEmpty_iff] at alone
      exact Std.ExtTreeMap.not_mem_empty (alone ▸ leads)
  have om : g.componentAround "o" ≠ g.componentAround "m" := by
    intro same
    rcases (componentAround_eq_iff.mp same).2.cases_tail with other | ⟨last, -, link⟩
    · exact absurd other (by decide)
    · have alone : g.importersOf "o" = [] := by decide +kernel
      rw [← reached.derived.mem_importersOf, alone] at link
      exact absurd link List.not_mem_nil
  refine ⟨top, htop, left, hleft, right, hright, low, hlow, ?_, ?_, ?_, ?_, ?_⟩
  · simp [is_o, is_m, is_n, is_q]
  · exact ((depths left hleft).2 right hright).1 (by rw [is_m, is_n, ring])
  · have mq' : g.Link "m" "q" := link (by decide +kernel)
    exact ((depths left hleft).2 low hlow).2 (by rwa [is_m, is_q]) (by rwa [is_m, is_q])
  · have om' : g.Link "o" "m" := link (by decide +kernel)
    exact ((depths top htop).2 left hleft).2 (by rwa [is_o, is_m]) (by rwa [is_o, is_m])
  · exact is_o ▸ (depths top htop).1.1

end Graph

end ModuleAtlas
