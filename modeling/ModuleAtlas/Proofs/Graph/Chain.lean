import ModuleAtlas.Proofs.Graph.Invalidation
import Mathlib.Data.List.Chain
import Mathlib.Data.List.Lex
import Mathlib.Data.String.Basic

/-!
# The first of the shortest chains

Each level of the search for a chain holds, for every node it is the first to reach, the first of
the shortest routes to that node, and holds these routes in order. Routes of one length stay in
order when each is lengthened by the successors of its last node in ascending order, and of those
that then lead to one node the search keeps the first.
-/

namespace ModuleAtlas

open Relation (ReflTransGen)
open Std (ExtTreeMap ExtTreeSet)

/-! ## Routes -/

/-- A way from one node to another, with both of them. -/
structure Route {α : Type} (edge : α → α → Prop) (source target : α) (route : List α) : Prop where
  first : route.head? = some source
  last : route.getLast? = some target
  steps : route.IsChain edge

/-- No route is shorter. -/
structure Shortest {α : Type} (edge : α → α → Prop) (source target : α) (route : List α) :
    Prop where
  way : Route edge source target route
  least : ∀ other, Route edge source target other → route.length ≤ other.length

section
variable {α β : Type} {edge : α → α → Prop} {source u v : α} {route : List α}

namespace Route

theorem single (source : α) : Route edge source source [source] :=
  ⟨rfl, rfl, .singleton source⟩

theorem length_pos (h : Route edge source v route) : 0 < route.length :=
  List.length_pos_of_mem (List.mem_of_mem_head? h.first)

theorem concat (h : Route edge source u route) (step : edge u v) :
    Route edge source v (route ++ [v]) := by
  refine ⟨?_, List.getLast?_concat, ?_⟩
  · rw [List.head?_append, h.first, Option.some_or]
  · refine List.isChain_append.mpr ⟨h.steps, .singleton v, ?_⟩
    simpa [h.last] using step

/-- A route of more than one node has a last step. -/
theorem exists_concat (h : Route edge source v route) (long : 1 < route.length) :
    ∃ u before, route = before ++ [v] ∧ Route edge source u before ∧ edge u v := by
  obtain ⟨before, rfl⟩ := List.getLast?_eq_some_iff.mp h.last
  obtain ⟨chain, -, joined⟩ := List.isChain_append.mp h.steps
  have nonempty : before ≠ [] := by
    rintro rfl
    simp at long
  have last := List.getLast?_eq_getLast_of_ne_nil nonempty
  refine ⟨before.getLast nonempty, before, rfl, ⟨?_, last, chain⟩, ?_⟩
  · rw [← h.first, List.head?_append_of_ne_nil _ nonempty]
  · exact joined _ last v rfl

theorem map {edge' : β → β → Prop} (f : α → β) (kept : ∀ a b, edge a b → edge' (f a) (f b))
    (h : Route edge source v route) : Route edge' (f source) (f v) (route.map f) :=
  ⟨by simp [h.first], by simp [h.last], List.isChain_map_of_isChain f kept h.steps⟩

theorem forall_mem (h : Route edge source v route) {inside : α → Prop} (start : inside source)
    (closed : ∀ a b, edge a b → inside b) : ∀ a ∈ route, inside a := by
  obtain ⟨rest, rfl⟩ := List.head?_eq_some_iff.mp h.first
  have steps := h.steps
  clear h
  induction rest generalizing source with
  | nil => simpa using start
  | cons next rest ih =>
    obtain ⟨step, steps⟩ := List.isChain_cons_cons.mp steps
    rw [List.forall_mem_cons]
    exact ⟨start, ih (closed source next step) steps⟩

end Route

/-- The shortest route without its last node is a shortest one. -/
theorem Shortest.exists_concat (h : Shortest edge source v route) (long : 1 < route.length) :
    ∃ u before, route = before ++ [v] ∧ Shortest edge source u before ∧ edge u v := by
  obtain ⟨u, before, rfl, way, step⟩ := h.way.exists_concat long
  refine ⟨u, before, rfl, ⟨way, fun other way' => ?_⟩, step⟩
  simpa using h.least _ (way'.concat step)

end

/-! ## The order of routes -/

section
variable {l m : List Nat} {a b : Nat}

theorem concat_lt_concat (less : l < m) (same : l.length = m.length) : l ++ [a] < m ++ [b] := by
  replace less : List.Lex (· < ·) l m := less
  induction less with
  | nil => simp at same
  | rel less => exact .rel less
  | cons _ ih => exact .cons (ih (by simpa using same))

theorem concat_le_concat (le : l ≤ m) (same : l.length = m.length) : l ++ [a] ≤ m ++ [a] := by
  rcases le.eq_or_lt with rfl | less
  · exact le_rfl
  · exact (concat_lt_concat less same).le

end

namespace Chain

variable {adjacency : Adjacency} {source depth : Nat} {level : Level}

/-! ## Candidates -/

/-- Those paths that are the first to lead to a node not seen before. -/
def firsts (seen : ExtTreeSet Nat) : List (List Nat) → List (List Nat)
  | [] => []
  | path :: paths =>
    if path.headD 0 ∈ seen then firsts seen paths
    else path :: firsts (seen.insert (path.headD 0)) paths

theorem firsts_sublist (seen : ExtTreeSet Nat) (paths : List (List Nat)) :
    (firsts seen paths).Sublist paths := by
  fun_induction firsts seen paths with
  | case1 => exact .slnil
  | case2 seen path paths _ ih => exact ih.cons path
  | case3 seen path paths _ ih => exact ih.cons_cons path

theorem not_mem_seen_of_mem_firsts {seen : ExtTreeSet Nat} {paths : List (List Nat)}
    {path : List Nat} (member : path ∈ firsts seen paths) : path.headD 0 ∉ seen := by
  fun_induction firsts seen paths with
  | case1 => simp at member
  | case2 seen _ paths _ ih => exact ih member
  | case3 seen first paths fresh ih =>
    rcases List.mem_cons.mp member with rfl | member
    · exact fresh
    · exact fun known => ih member (ExtTreeSet.mem_insert.mpr (.inr known))

/-- A path that is left out leads where an earlier one does that is not. -/
theorem exists_first {before : List Nat → List Nat → Prop} {seen : ExtTreeSet Nat}
    {paths : List (List Nat)} {path : List Nat} (ordered : paths.Pairwise before)
    (member : path ∈ paths) (fresh : path.headD 0 ∉ seen) :
    ∃ first ∈ firsts seen paths,
      first.headD 0 = path.headD 0 ∧ (first = path ∨ before first path) := by
  fun_induction firsts seen paths with
  | case1 => simp at member
  | case2 seen head paths known ih =>
    rcases List.mem_cons.mp member with rfl | member
    · exact absurd known fresh
    · exact ih ordered.of_cons member fresh
  | case3 seen head paths new ih =>
    rcases List.mem_cons.mp member with rfl | member
    · exact ⟨path, List.mem_cons_self, rfl, .inl rfl⟩
    · by_cases same : head.headD 0 = path.headD 0
      · exact ⟨head, List.mem_cons_self, same, .inr (List.rel_of_pairwise_cons ordered member)⟩
      · have fresh' : path.headD 0 ∉ seen.insert (head.headD 0) := by
          rw [ExtTreeSet.mem_insert, not_or]
          exact ⟨fun equal => same (compare_eq_iff_eq.mp equal), fresh⟩
        obtain ⟨first, kept, found⟩ := ih ordered.of_cons member fresh'
        exact ⟨first, .tail _ kept, found⟩

/-- The paths of a level, lengthened by one node in every way. -/
def candidates (adjacency : Adjacency) (paths : List (List Nat)) : List (List Nat) :=
  paths.flatMap fun path => (adjacency.successors (path.headD 0)).map (· :: path)

theorem mem_candidates {paths : List (List Nat)} {path : List Nat} :
    path ∈ candidates adjacency paths ↔
      ∃ before ∈ paths, ∃ v, adjacency.Edge (before.headD 0) v ∧ path = v :: before := by
  simp only [candidates, List.mem_flatMap, List.mem_map, Adjacency.Edge]
  grind

/-- A path is taken up if it leads to a node not seen before. -/
def Level.offer (level : Level) (path : List Nat) : Level :=
  level.append path.tail (path.headD 0)

theorem foldl_offer_paths {paths : List (List Nat)} (nonempty : ∀ path ∈ paths, path ≠ [])
    (level : Level) :
    (paths.foldl Level.offer level).paths = level.paths ++ firsts level.seen paths := by
  induction paths generalizing level with
  | nil => simp [firsts]
  | cons path paths ih =>
    rw [List.forall_mem_cons] at nonempty
    obtain ⟨next, rest, rfl⟩ := List.exists_cons_of_ne_nil nonempty.1
    rw [List.foldl_cons, ih nonempty.2, firsts, Level.offer, Level.append]
    split <;> simp_all

theorem nextLevel_paths (adjacency : Adjacency) (level : Level) :
    (nextLevel adjacency level).paths = firsts level.seen (candidates adjacency level.paths) := by
  have flat : nextLevel adjacency level =
      (candidates adjacency level.paths).foldl Level.offer { paths := [], seen := level.seen } := by
    rw [candidates, List.foldl_flatMap]
    simp only [List.foldl_map]
    rfl
  have nonempty : ∀ path ∈ candidates adjacency level.paths, path ≠ [] := by
    intro path member
    obtain ⟨before, -, v, -, rfl⟩ := mem_candidates.mp member
    exact List.cons_ne_nil v before
  rw [flat, foldl_offer_paths nonempty]
  rfl

/-- Paths of one length in order are still in order when they are lengthened. -/
theorem candidates_ordered {paths : List (List Nat)} {length : Nat}
    (ascending : ∀ u, (adjacency.successors u).Pairwise (· < ·))
    (ordered : paths.Pairwise fun path later => path.reverse < later.reverse)
    (deep : ∀ path ∈ paths, path.length = length) :
    (candidates adjacency paths).Pairwise fun path later => path.reverse < later.reverse := by
  refine List.pairwise_flatMap.mpr ⟨fun path _ => ?_, ?_⟩
  · refine List.pairwise_map.mpr ((ascending _).imp fun {a b} less => ?_)
    rw [List.reverse_cons, List.reverse_cons]
    exact List.Lex.append_left _ (.rel less) _
  · refine ordered.imp_of_mem fun {path later} hp hl less => ?_
    have same : path.reverse.length = later.reverse.length := by simp [deep path hp, deep later hl]
    intro longer hlonger longer' hlonger'
    obtain ⟨a, -, rfl⟩ := List.mem_map.mp hlonger
    obtain ⟨b, -, rfl⟩ := List.mem_map.mp hlonger'
    rw [List.reverse_cons, List.reverse_cons]
    exact concat_lt_concat less same

/-! ## Levels -/

/-- The level holds the first of the shortest routes to each node that is `depth` steps away, in
order. -/
structure Exact (adjacency : Adjacency) (source depth : Nat) (level : Level) : Prop where
  deep : ∀ path ∈ level.paths, path.length = depth + 1
  shortest : ∀ path ∈ level.paths, Shortest adjacency.Edge source (path.headD 0) path.reverse
  least : ∀ v route, Shortest adjacency.Edge source v route → route.length = depth + 1 →
    ∃ path ∈ level.paths, path.headD 0 = v ∧ path.reverse ≤ route
  seen_iff : ∀ v, v ∈ level.seen ↔
    ∃ route, Route adjacency.Edge source v route ∧ route.length ≤ depth + 1
  ordered : level.paths.Pairwise fun path later => path.reverse < later.reverse

namespace Exact

theorem start (adjacency : Adjacency) (source : Nat) :
    Exact adjacency source 0 { paths := [[source]], seen := ExtTreeSet.ofList [source] } where
  deep := by simp
  shortest := by
    simpa using ⟨.single source, fun other way => way.length_pos⟩
  least := by
    intro v route short length
    obtain ⟨a, rfl⟩ := List.length_eq_one_iff.mp length
    obtain rfl : a = source := Option.some.inj short.way.first
    obtain rfl : a = v := Option.some.inj short.way.last
    exact ⟨[a], List.mem_singleton_self _, rfl, le_rfl⟩
  seen_iff := by
    intro v
    rw [Frontier.mem_first]
    constructor
    · rintro rfl
      exact ⟨[v], .single v, le_rfl⟩
    · rintro ⟨route, way, short⟩
      obtain ⟨a, rfl⟩ := List.length_eq_one_iff.mp (Nat.le_antisymm short way.length_pos)
      exact (Option.some.inj way.last).symm.trans (Option.some.inj way.first)
  ordered := List.pairwise_singleton _ _

variable {v : Nat} {path route : List Nat}

theorem lt_length (h : Exact adjacency source depth level) (fresh : v ∉ level.seen)
    (way : Route adjacency.Edge source v route) : depth + 1 < route.length := by
  by_contra short
  exact fresh ((h.seen_iff v).mpr ⟨route, way, Nat.le_of_not_lt short⟩)

theorem lengthen (h : Exact adjacency source depth level) (member : path ∈ level.paths)
    (step : adjacency.Edge (path.headD 0) v) :
    Route adjacency.Edge source v (v :: path).reverse := by
  rw [List.reverse_cons]
  exact (h.shortest path member).way.concat step

/-- A route of the next level that is a shortest one lengthens a route of this level, and the first
such is among the candidates. -/
theorem exists_candidate (h : Exact adjacency source depth level)
    (short : Shortest adjacency.Edge source v route) (length : route.length = depth + 2) :
    ∃ path ∈ level.paths, adjacency.Edge (path.headD 0) v ∧ (v :: path).reverse ≤ route := by
  obtain ⟨u, before, rfl, short', step⟩ := short.exists_concat (by omega)
  have length' : before.length = depth + 1 := by simpa using length
  obtain ⟨path, member, rfl, le⟩ := h.least u before short' length'
  refine ⟨path, member, step, ?_⟩
  rw [List.reverse_cons]
  exact concat_le_concat le (by simp [h.deep path member, length'])

theorem seen_next (h : Exact adjacency source depth level) :
    v ∈ (nextLevel adjacency level).seen ↔
      ∃ route, Route adjacency.Edge source v route ∧ route.length ≤ depth + 2 := by
  rw [mem_nextLevel_seen]
  constructor
  · rintro (known | ⟨u, reached, step⟩)
    · obtain ⟨route, way, short⟩ := (h.seen_iff v).mp known
      exact ⟨route, way, Nat.le_succ_of_le short⟩
    · obtain ⟨path, member, rfl⟩ := List.mem_map.mp reached
      exact ⟨_, h.lengthen member step, by simp [h.deep path member]⟩
  · rintro ⟨route, way, short⟩
    by_cases known : v ∈ level.seen
    · exact .inl known
    · -- No route to a node not seen yet is shorter than this one.
      have length : route.length = depth + 2 := Nat.le_antisymm short (h.lt_length known way)
      have least : Shortest adjacency.Edge source v route :=
        ⟨way, fun other way' => length ▸ h.lt_length known way'⟩
      obtain ⟨path, member, step, -⟩ := h.exists_candidate least length
      exact .inr ⟨path.headD 0, List.mem_map_of_mem member, step⟩

/-- **One level.** -/
theorem next (ascending : ∀ u, (adjacency.successors u).Pairwise (· < ·))
    (h : Exact adjacency source depth level) :
    Exact adjacency source (depth + 1) (nextLevel adjacency level) := by
  have paths := nextLevel_paths adjacency level
  have ordered := candidates_ordered ascending h.ordered h.deep
  have origin : ∀ path ∈ (nextLevel adjacency level).paths, ∃ before ∈ level.paths, ∃ v,
      adjacency.Edge (before.headD 0) v ∧ v ∉ level.seen ∧ path = v :: before := by
    intro path member
    rw [paths] at member
    obtain ⟨before, held, v, step, rfl⟩ := mem_candidates.mp ((firsts_sublist _ _).subset member)
    exact ⟨before, held, v, step, not_mem_seen_of_mem_firsts member, rfl⟩
  refine ⟨?_, ?_, ?_, fun v => h.seen_next, paths ▸ ordered.sublist (firsts_sublist _ _)⟩
  · intro path member
    obtain ⟨before, held, v, -, -, rfl⟩ := origin path member
    rw [List.length_cons, h.deep before held]
  · intro path member
    obtain ⟨before, held, v, step, fresh, rfl⟩ := origin path member
    refine ⟨h.lengthen held step, fun other way => ?_⟩
    rw [List.length_reverse, List.length_cons, h.deep before held]
    exact h.lt_length fresh way
  · intro v route short length
    obtain ⟨before, held, step, le⟩ := h.exists_candidate short length
    have fresh : v ∉ level.seen := by
      intro known
      obtain ⟨other, way, less⟩ := (h.seen_iff v).mp known
      have := short.least other way
      omega
    obtain ⟨path, kept, leads, first⟩ :=
      exists_first ordered (mem_candidates.mpr ⟨before, held, v, step, rfl⟩) fresh
    refine ⟨path, paths ▸ kept, leads, ?_⟩
    rcases first with rfl | less
    · exact le
    · exact less.le.trans le

end Exact

theorem eq_or_before_of_find? {α : Type} {before : α → α → Prop} {p : α → Bool} {l : List α}
    {a b : α} (ordered : l.Pairwise before) (found : l.find? p = some a) (member : b ∈ l)
    (holds : p b = true) : a = b ∨ before a b := by
  obtain ⟨-, earlier, later, rfl, others⟩ := List.find?_eq_some_iff_append.mp found
  rcases List.mem_append.mp member with member | member
  · simpa [holds] using others b member
  · rcases List.mem_cons.mp member with rfl | member
    · exact .inl rfl
    · obtain ⟨-, ordered, -⟩ := List.pairwise_append.mp ordered
      exact .inr (List.rel_of_pairwise_cons ordered member)

/-- **The search for a chain.** What it finds is a shortest route, and the first of those. -/
theorem search_least (ascending : ∀ u, (adjacency.successors u).Pairwise (· < ·)) {target : Nat}
    (fuel : Nat) (h : Exact adjacency source depth level) {chain : List Nat}
    (found : search adjacency target fuel level = some chain) :
    Shortest adjacency.Edge source target chain ∧
      ∀ other, Route adjacency.Edge source target other → other.length = chain.length →
        chain ≤ other := by
  induction fuel generalizing depth level with
  | zero => simp [search] at found
  | succ fuel ih =>
    unfold search at found
    cases here : level.paths.find? fun path => path.head? = some target with
    | none =>
      rw [here] at found
      exact ih (h.next ascending) found
    | some path =>
      rw [here] at found
      obtain rfl : path.reverse = chain := Option.some.inj found
      have member := List.mem_of_find?_eq_some here
      have ends : path.head? = some target := by simpa using List.find?_some here
      have short : Shortest adjacency.Edge source target path.reverse := by
        have short := h.shortest path member
        rwa [List.headD_eq_head?_getD, ends, Option.getD_some] at short
      refine ⟨short, fun other way same => ?_⟩
      have short' : Shortest adjacency.Edge source target other :=
        ⟨way, fun route way' => same ▸ short.least route way'⟩
      have length : other.length = depth + 1 := by
        rw [same, List.length_reverse, h.deep path member]
      obtain ⟨path', member', ends', le⟩ := h.least target other short' length
      have ends' : path'.head? = some target := by
        have nonempty : path' ≠ [] := List.ne_nil_of_length_pos (by simp [h.deep path' member'])
        obtain ⟨last, rest, rfl⟩ := List.exists_cons_of_ne_nil nonempty
        exact congrArg some ends'
      rcases eq_or_before_of_find? h.ordered here member' (by simpa using ends') with rfl | less
      · exact le
      · exact less.le.trans le

end Chain

/-- What is found is a shortest route, and the first of those. -/
theorem Adjacency.chain?_least {adjacency : Adjacency}
    (ascending : ∀ u, (adjacency.successors u).Pairwise (· < ·)) {source target : Nat}
    {chain : List Nat} (found : adjacency.chain? source target = some chain) :
    Shortest adjacency.Edge source target chain ∧
      ∀ other, Route adjacency.Edge source target other → other.length = chain.length →
        chain ≤ other :=
  Chain.search_least ascending _ (.start adjacency source) found

namespace Graph

variable {g : Graph}

/-! ## Names and numbers -/

namespace Derived

theorem names_ascend (h : Derived g) : g.view.names.Pairwise (· < ·) := by
  rw [h.view_names]
  exact ExtTreeMap.ordered_keys.imp fun less => compare_lt_iff_lt.mp less

theorem name_lt_name (h : Derived g) {i j : Nat} (less : i < j) (bound : j < g.view.size) :
    g.view.name i < g.view.name j := by
  have ordered := List.pairwise_iff_getElem.mp h.names_ascend i j (less.trans bound) bound less
  rwa [← View.name_eq_of_getElem? (List.getElem?_eq_getElem (less.trans bound)),
    ← View.name_eq_of_getElem? (List.getElem?_eq_getElem bound)] at ordered

theorem lt_of_named (h : Derived g) {i j : Nat} {name name' : String}
    (named : g.view.names[i]? = some name) (named' : g.view.names[j]? = some name')
    (less : name < name') : i < j := by
  have bound : i < g.view.size := (List.getElem?_eq_some_iff.mp named).1
  rw [← View.name_eq_of_getElem? named, ← View.name_eq_of_getElem? named'] at less
  rcases Nat.lt_trichotomy i j with before | rfl | after
  · exact before
  · exact absurd less (lt_irrefl _)
  · exact absurd less (h.name_lt_name after bound).asymm

/-- The successors of a module come in the order of their names. -/
theorem successors_ascend (h : Derived g) (u : Nat) :
    (g.view.adjacency.successors u).Pairwise (· < ·) := by
  by_cases bound : u < g.view.size
  · have named := View.getElem?_names bound
    obtain ⟨node, held⟩ :=
      Table.mem_iff_exists.mp (h.mem_view_names.mp (List.mem_of_getElem? named))
    rw [Adjacency.successors_eq_of_getElem? (h.view_row node named held), List.pairwise_filterMap]
    refine ExtTreeMap.ordered_keys.imp fun {a b} less i hi j hj => ?_
    exact h.lt_of_named (h.indexOf?_iff.mp hi) (h.indexOf?_iff.mp hj) (compare_lt_iff_lt.mp less)
  · have outside : ¬ u < g.view.adjacency.size := by rwa [g.view_size]
    simp [Adjacency.successors, outside]

/-- Routes of numbers compare as the routes of the modules they stand for. -/
theorem map_name_le (h : Derived g) {l m : List Nat} (le : l ≤ m)
    (bound : ∀ v ∈ m, v < g.view.size) : l.map g.view.name ≤ m.map g.view.name := by
  rcases le.eq_or_lt with rfl | less
  · exact le_rfl
  · apply le_of_lt
    replace less : List.Lex (· < ·) l m := less
    clear le
    induction less with
    | nil => exact .nil
    | rel less => exact .rel (h.name_lt_name less (bound _ (List.mem_cons_self)))
    | cons _ ih => exact .cons (ih fun v hv => bound v (.tail _ hv))

/-- A route of imports, by the numbers of its modules. -/
theorem route_idxOf (h : Derived g) {source target : String} {route : List String}
    (way : Route g.Link source target route) :
    Route g.view.adjacency.Edge (g.view.names.idxOf source) (g.view.names.idxOf target)
      (route.map g.view.names.idxOf) :=
  way.map g.view.names.idxOf fun _ _ => h.edge_of_link

theorem map_name_idxOf (h : Derived g) {names : List String}
    (live : ∀ name ∈ names, name ∈ g.modules) : (names.map g.view.names.idxOf).map g.view.name = names := by
  rw [List.map_map]
  refine (List.map_congr_left fun name member => ?_).trans (List.map_id names)
  exact View.name_eq_of_getElem? (h.getElem?_number (live name member))

/-- A chain between different names is one between the numbers of two modules. -/
theorem exists_numbers (h : Derived g) {source target : String} (differ : source ≠ target)
    {chain : List String} (found : g.chain? source target = some chain) :
    source ∈ g.modules ∧ target ∈ g.modules ∧ ∃ nodes,
      g.view.adjacency.chain? (g.view.names.idxOf source) (g.view.names.idxOf target) = some nodes ∧
      chain = nodes.map g.view.name := by
  simp only [chain?, if_neg differ] at found
  split at found
  · next i j hi hj =>
    have named := h.indexOf?_iff.mp hi
    have named' := h.indexOf?_iff.mp hj
    obtain ⟨nodes, numbered, rfl⟩ := Option.map_eq_some_iff.mp found
    rw [h.idxOf_eq named, h.idxOf_eq named']
    exact ⟨h.mem_view_names.mp (List.mem_of_getElem? named),
      h.mem_view_names.mp (List.mem_of_getElem? named'), nodes, numbered, rfl⟩
  · simp at found

end Derived

/-- **Chains are shortest, and first of those.** A name leads to itself. From one module to another
there is a chain unless no imports lead there. It goes from the one to the other, each module
imports the next, no chain is shorter, and of those of its length it is the first in the order of
names. -/
theorem chain_is_first_of_the_shortest (h : Reachable g) (source target : String) :
    (source = target → g.chain? source target = some [source]) ∧
    (source ≠ target →
      (g.chain? source target = none ↔
        source ∉ g.modules ∨ target ∉ g.modules ∨ ¬ ReflTransGen g.Link source target) ∧
      ∀ chain, g.chain? source target = some chain →
        Route g.Link source target chain ∧
        ∀ other, Route g.Link source target other →
          chain.length ≤ other.length ∧ (other.length = chain.length → chain ≤ other)) := by
  have derived := h.derived
  refine ⟨fun same => by simp [chain?, same], fun differ => ?_⟩
  refine ⟨⟨fun none => ?_, fun missing => ?_⟩, ?_⟩
  · by_contra linked
    push Not at linked
    obtain ⟨hs, ht, links⟩ := linked
    simpa [none] using (derived.chain?_isSome_iff hs ht).mpr links
  · rw [Option.eq_none_iff_forall_ne_some]
    intro chain found
    obtain ⟨hs, ht, -⟩ := derived.exists_numbers differ found
    have links := (derived.chain?_isSome_iff hs ht).mp (by simp [found])
    tauto
  · intro chain found
    obtain ⟨hs, ht, nodes, numbered, rfl⟩ := derived.exists_numbers differ found
    obtain ⟨short, first⟩ := Adjacency.chain?_least derived.successors_ascend numbered
    refine ⟨?_, fun other way => ?_⟩
    · have way := short.way.map g.view.name fun _ _ => derived.link_of_edge
      rwa [View.name_eq_of_getElem? (derived.getElem?_number hs),
        View.name_eq_of_getElem? (derived.getElem?_number ht)] at way
    · have live : ∀ name ∈ other, name ∈ g.modules := way.forall_mem hs fun _ _ link => link.1
      have way' := derived.route_idxOf way
      refine ⟨by simpa using short.least _ way', fun same => ?_⟩
      have le := first _ way' (by simpa using same)
      have bound : ∀ v ∈ other.map g.view.names.idxOf, v < g.view.size := by
        intro v member
        obtain ⟨name, inside, rfl⟩ := List.mem_map.mp member
        exact (List.getElem?_eq_some_iff.mp (derived.getElem?_number (live name inside))).1
      have ordered := derived.map_name_le le bound
      rwa [derived.map_name_idxOf live] at ordered

/-- Of two chains of three modules the one through the earlier name is found, though that module
was added last. -/
theorem chain_is_first_of_the_shortest_tie :
    let a : FileFacts := { path := "1", moduleField := "a", imports := [.plain "c", .plain "b"] }
    let b : FileFacts := { path := "3", moduleField := "b", imports := [.plain "d"] }
    let c : FileFacts := { path := "2", moduleField := "c", imports := [.plain "d"] }
    let d : FileFacts := { path := "0", moduleField := "d", imports := [.plain "a"] }
    let g := (Graph.empty 1).addAll [d, a, c, b]
    g.chain? "a" "d" = some ["a", "b", "d"] ∧ Route g.Link "a" "d" ["a", "b", "d"] ∧
      Route g.Link "a" "d" ["a", "c", "d"] ∧ ["a", "b", "d"] ≤ ["a", "c", "d"] ∧
      g.chain? "a" "x" = none ∧ g.chain? "x" "x" = some ["x"] := by
  intro a b c d g
  have reached : Reachable g := .add b (.add c (.add a (.add d (.start 1))))
  have found : g.chain? "a" "d" = some ["a", "b", "d"] := by decide +kernel
  have out : g.Link "a" "c" := reached.derived.mem_importersOf.mp (by decide +kernel)
  have on : g.Link "c" "d" := reached.derived.mem_importersOf.mp (by decide +kernel)
  have other : Route g.Link "a" "d" ["a", "c", "d"] := ⟨rfl, rfl, by simp [out, on]⟩
  obtain ⟨-, first⟩ := (chain_is_first_of_the_shortest reached "a" "d").2 (by decide)
  obtain ⟨way, least⟩ := first _ found
  have unknown := ((chain_is_first_of_the_shortest reached "a" "x").2 (by decide)).1
  exact ⟨found, way, other, (least _ other).2 rfl, unknown.mpr (.inr (.inl (by decide +kernel))),
    (chain_is_first_of_the_shortest reached "x" "x").1 rfl⟩

end Graph

end ModuleAtlas
