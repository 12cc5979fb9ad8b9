import ModuleAtlas.Graph.Chain
import ModuleAtlas.Graph.Impact
import ModuleAtlas.Proofs.Frontier
import ModuleAtlas.Proofs.Graph.View

/-!
# Forward and backward reachability

The chain search goes forward along the numbered edges, invalidation backward along the index of
importers. Both are searches level by level, so both come to know what is reachable.
-/

namespace ModuleAtlas

open Relation (ReflTransGen)
open Std (ExtTreeMap ExtTreeSet)

/-! ## Chains -/

namespace Chain

variable {adjacency : Adjacency} {before : ExtTreeSet Nat} {level : Level} {path : List Nat}

/-- The nodes that the paths of a level lead to. -/
def Level.nodes (level : Level) : List Nat :=
  level.paths.map (·.headD 0)

/-- The level leads to the nodes seen since `before`. -/
structure Fresh (before : ExtTreeSet Nat) (level : Level) : Prop where
  nonempty : ∀ path ∈ level.paths, path ≠ []
  kept : ∀ v ∈ before, v ∈ level.seen
  nodes_iff : ∀ v, v ∈ level.nodes ↔ v ∈ level.seen ∧ v ∉ before

theorem mem_append_seen {next v : Nat} :
    v ∈ (level.append path next).seen ↔ v ∈ level.seen ∨ v = next := by
  unfold Level.append
  split
  · next known => exact ⟨.inl, fun h => h.elim id (· ▸ known)⟩
  · simp [ExtTreeSet.mem_insert, or_comm, eq_comm (a := next)]

theorem Fresh.append (h : Fresh before level) (path : List Nat) (next : Nat) :
    Fresh before (level.append path next) := by
  unfold Level.append
  split
  · exact h
  · next unseen =>
    have new : next ∉ before := fun old => unseen (h.kept next old)
    refine ⟨?_, ?_, fun v => ?_⟩
    · simpa [or_imp, forall_and] using h.nonempty
    · intro v old
      exact ExtTreeSet.mem_insert.mpr (.inr (h.kept v old))
    · have := h.nodes_iff v
      simp only [Level.nodes, List.map_append, List.mem_append, ExtTreeSet.mem_insert] at this ⊢
      rw [this]
      by_cases same : v = next
      · subst same
        simp [new]
      · simp [same, Ne.symm same]

theorem mem_foldl_append_seen (path successors : List Nat) {v : Nat} :
    v ∈ (successors.foldl (Level.append path) level).seen ↔ v ∈ level.seen ∨ v ∈ successors := by
  induction successors generalizing level with
  | nil => simp
  | cons next successors ih => rw [List.foldl_cons, ih, mem_append_seen, List.mem_cons, or_assoc]

theorem Fresh.foldl_append (h : Fresh before level) (path successors : List Nat) :
    Fresh before (successors.foldl (Level.append path) level) := by
  induction successors generalizing level with
  | nil => exact h
  | cons next successors ih => exact ih (h.append path next)

theorem mem_foldl_extend_seen (paths : List (List Nat)) {v : Nat} :
    v ∈ (paths.foldl (extend adjacency) level).seen ↔
      v ∈ level.seen ∨ ∃ u ∈ paths.map (·.headD 0), adjacency.Edge u v := by
  induction paths generalizing level with
  | nil => simp
  | cons path paths ih =>
    rw [List.foldl_cons, ih, extend, mem_foldl_append_seen, or_assoc]
    simp [Adjacency.Edge]

theorem Fresh.foldl_extend (h : Fresh before level) (paths : List (List Nat)) :
    Fresh before (paths.foldl (extend adjacency) level) := by
  induction paths generalizing level with
  | nil => exact h
  | cons path paths ih => exact ih (h.foldl_append _ _)

theorem mem_nextLevel_seen {v : Nat} :
    v ∈ (nextLevel adjacency level).seen ↔
      v ∈ level.seen ∨ ∃ u ∈ level.nodes, adjacency.Edge u v :=
  mem_foldl_extend_seen level.paths

theorem nextLevel_fresh (adjacency : Adjacency) (level : Level) :
    Fresh level.seen (nextLevel adjacency level) := by
  apply Fresh.foldl_extend
  exact ⟨by simp, fun v old => old, by simp [Level.nodes]⟩

theorem find?_isSome_iff (nonempty : ∀ path ∈ level.paths, path ≠ []) (target : Nat) :
    (level.paths.find? fun path => path.head? = some target).isSome ↔ target ∈ level.nodes := by
  rw [List.find?_isSome, Level.nodes, List.mem_map]
  refine exists_congr fun path => and_congr_right fun member => ?_
  obtain ⟨node, rest, rfl⟩ := List.exists_cons_of_ne_nil (nonempty path member)
  simp

/-- **The search for a chain.** With more levels left than there are nodes unseen it finds the
target exactly if there is a path to it. -/
theorem search_isSome_iff (closed : adjacency.Closed) {source target : Nat}
    (bound : source < adjacency.size) (fuel : Nat) {level : Level}
    (nonempty : ∀ path ∈ level.paths, path ≠ [])
    (frontier : Frontier adjacency.Edge source level.nodes (· ∈ level.seen))
    (new : target ∈ level.seen → target ∈ level.nodes)
    (enough : level.nodes = [] ∨
      (List.range adjacency.size).countP (fun v => ¬ v ∈ level.seen) < fuel) :
    (search adjacency target fuel level).isSome ↔ adjacency.Reach source target := by
  induction fuel generalizing level with
  | zero =>
    have drained : level.nodes = [] := enough.resolve_right (Nat.not_lt_zero _)
    rw [drained] at frontier new
    rw [Adjacency.Reach, ← frontier.seen_iff_reach]
    simpa [search] using new
  | succ fuel ih =>
    have fresh := nextLevel_fresh adjacency level
    have next : Frontier adjacency.Edge source (nextLevel adjacency level).nodes
        (· ∈ (nextLevel adjacency level).seen) :=
      frontier.next (fun v => mem_nextLevel_seen) fresh.nodes_iff
    unfold search
    cases found : level.paths.find? fun path => path.head? = some target with
    | some path =>
      have here : target ∈ level.nodes := by
        rw [← find?_isSome_iff nonempty, found]
        rfl
      have reached : adjacency.Reach source target :=
        frontier.reached target (frontier.front_seen target here)
      simpa using reached
    | none =>
      have absent : target ∉ level.nodes := by
        rw [← find?_isSome_iff nonempty, found]
        simp
      refine ih fresh.nonempty next ?_ ?_
      · intro seen
        exact (fresh.nodes_iff target).mpr ⟨seen, fun old => absent (new old)⟩
      · by_cases drained : (nextLevel adjacency level).nodes = []
        · exact .inl drained
        · have inside : ∀ v ∈ (nextLevel adjacency level).nodes, v ∈ List.range adjacency.size := by
            intro v hv
            have path : adjacency.Reach source v := next.reached v (next.front_seen v hv)
            rw [List.mem_range]
            exact path.stays bound fun _ _ _ edge => closed.edge_lt edge
          have less := Frontier.unseen_lt fresh.kept fresh.nodes_iff inside drained
          rcases enough with none | enough
          · obtain ⟨v, rest, eq⟩ := List.exists_cons_of_ne_nil drained
            have hv := (fresh.nodes_iff v).mp (by simp [eq])
            have := mem_nextLevel_seen.mp hv.1
            simp [none, hv.2] at this
          · exact .inr (by omega)

end Chain

theorem Adjacency.chain?_isSome_iff {adjacency : Adjacency} (closed : adjacency.Closed)
    {source target : Nat} (bound : source < adjacency.size) :
    (adjacency.chain? source target).isSome ↔ adjacency.Reach source target := by
  refine Chain.search_isSome_iff closed bound _ (by simp) .first ?_ (.inr ?_)
  · rw [Frontier.mem_first]
    simp [Chain.Level.nodes]
  · exact Nat.lt_succ_of_le (List.countP_le_length.trans (by simp))

/-! ## Dependents -/

theorem spread_step (next : String → List String) (fuel : Nat) {level : List String}
    (busy : level ≠ []) (seen : Names) :
    ∃ fresh, (∀ v, v ∈ fresh ↔ v ∉ seen ∧ ∃ u ∈ level, v ∈ next u) ∧
      spread next (fuel + 1) level seen =
        spread next fuel (ExtTreeSet.ofList fresh : Names).toList (seen.insertMany fresh) := by
  refine ⟨(level.flatMap next).filter fun name => name ∉ seen, ?_, ?_⟩
  · simp [and_comm]
  · obtain ⟨name, rest, rfl⟩ := List.exists_cons_of_ne_nil busy
    rfl

/-- **A spread.** With more levels left than there are names unseen it ends with all that can be
reached. -/
theorem mem_spread_iff {next : String → List String} {start : String} {nodes : List String}
    (inside : ∀ u, ∀ v ∈ next u, v ∈ nodes) (fuel : Nat) {level : List String} {seen : Names}
    (frontier : Frontier (fun u v => v ∈ next u) start level (· ∈ seen))
    (enough : level = [] ∨ nodes.countP (fun v => ¬ v ∈ seen) < fuel) (v : String) :
    v ∈ spread next fuel level seen ↔ ReflTransGen (fun u v => v ∈ next u) start v := by
  induction fuel generalizing level seen with
  | zero =>
    obtain rfl : level = [] := enough.resolve_right (Nat.not_lt_zero _)
    exact frontier.seen_iff_reach v
  | succ fuel ih =>
    by_cases drained : level = []
    · subst drained
      exact frontier.seen_iff_reach v
    · obtain ⟨fresh, fresh_iff, step⟩ := spread_step next fuel drained seen
      have seen_iff : ∀ v, v ∈ seen.insertMany fresh ↔ v ∈ seen ∨ ∃ u ∈ level, v ∈ next u := by
        intro v
        by_cases old : v ∈ seen <;> simp [fresh_iff, old]
      have front_iff : ∀ v, v ∈ (ExtTreeSet.ofList fresh : Names).toList ↔
          v ∈ seen.insertMany fresh ∧ v ∉ seen := by
        intro v
        by_cases old : v ∈ seen <;> simp [fresh_iff, old]
      have found : ∀ v ∈ (ExtTreeSet.ofList fresh : Names).toList, v ∈ nodes := by
        intro v hv
        obtain ⟨-, u, -, leads⟩ := (fresh_iff v).mp (by simpa using hv)
        exact inside u v leads
      rw [step]
      refine ih (frontier.next seen_iff front_iff) ?_
      by_cases last : (ExtTreeSet.ofList fresh : Names).toList = []
      · exact .inl last
      · have less := Frontier.unseen_lt (fun v old => (seen_iff v).mpr (.inl old)) front_iff found last
        have := enough.resolve_left drained
        exact .inr (by omega)

namespace Graph

variable {g : Graph}

/-- The dependents of a module are those that lead to it. -/
theorem Derived.mem_dependents_iff (h : Derived g) {origin name : String} :
    name ∈ g.dependents origin ↔ ReflTransGen g.Link name origin := by
  have inside : ∀ u, ∀ v ∈ g.importersOf u, v ∈ g.modules.keys := by
    intro u v importer
    rw [ExtTreeMap.mem_keys]
    exact (h.mem_importersOf.mp importer).source_live
  have count : g.modules.keys.countP (fun v => ¬ v ∈ (ExtTreeSet.ofList [origin] : Names)) <
      g.modules.size + 1 := by
    rw [← ExtTreeMap.length_keys]
    exact Nat.lt_succ_of_le List.countP_le_length
  rw [dependents, mem_spread_iff inside _ .first (.inr count), ← Relation.reflTransGen_swap]
  simp only [h.mem_importersOf]

/-- There is a chain of imports between two modules exactly if one leads to the other. -/
theorem Derived.chain?_isSome_iff (h : Derived g) {source target : String}
    (hs : source ∈ g.modules) (ht : target ∈ g.modules) :
    (g.chain? source target).isSome ↔ ReflTransGen g.Link source target := by
  unfold chain?
  split
  · next same =>
    subst same
    simpa using ReflTransGen.refl
  · have number : View.indexOf? g.view.names source = some (g.view.names.idxOf source) :=
      h.indexOf?_iff.mpr (h.getElem?_number hs)
    have number' : View.indexOf? g.view.names target = some (g.view.names.idxOf target) :=
      h.indexOf?_iff.mpr (h.getElem?_number ht)
    have bound : g.view.names.idxOf source < g.view.adjacency.size := by
      rw [g.view_size]
      exact (List.getElem?_eq_some_iff.mp (h.getElem?_number hs)).1
    simp only [number, number', Option.isSome_map, Adjacency.chain?_isSome_iff h.view_closed bound]
    exact h.reach_iff (h.getElem?_number hs) (h.getElem?_number ht)

theorem Derived.moduleOf?_live (h : Derived g) {path name : String}
    (tracked : g.moduleOf? path = some name) : name ∈ g.modules :=
  (h.live_iff name).mpr ⟨path, tracked⟩

theorem Derived.mem_invalidate_iff (h : Derived g) {path origin : String}
    (tracked : g.moduleOf? path = some origin) (q : String) :
    q ∈ g.invalidate path ↔
      ∃ name, g.moduleOf? q = some name ∧ ReflTransGen g.Link name origin := by
  simp only [invalidate, tracked, ExtTreeSet.mem_toList, ExtTreeSet.mem_ofList,
    List.contains_iff_mem, List.mem_flatMap, h.mem_dependents_iff]
  constructor
  · rintro ⟨name, leads, member⟩
    cases held : g.modules[name]? with
    | none => simp [held] at member
    | some node =>
      simp only [held, ExtTreeSet.mem_toList] at member
      exact ⟨name, (h.mem_files_iff held q).mp member, leads⟩
  · rintro ⟨name, member, leads⟩
    obtain ⟨node, held⟩ := Table.mem_iff_exists.mp (h.moduleOf?_live member)
    refine ⟨name, leads, ?_⟩
    simp only [held, ExtTreeSet.mem_toList]
    exact (h.mem_files_iff held q).mpr member

/-- **Invalidation.** A change to a tracked file reaches exactly the files of the modules with a
chain of imports to its module, listed in order and once each. That includes the file and all others
of its module. A path that is not tracked stands alone. -/
theorem invalidation_follows_chains (h : Reachable g) (path : String) :
    (g.moduleOf? path = none → g.invalidate path = [path]) ∧
    ∀ origin, g.moduleOf? path = some origin →
      (g.invalidate path).Pairwise (· < ·) ∧
      (∀ q, q ∈ g.invalidate path ↔
        ∃ name, g.moduleOf? q = some name ∧ (g.chain? name origin).isSome) ∧
      path ∈ g.invalidate path ∧
      ∀ q, g.moduleOf? q = some origin → q ∈ g.invalidate path := by
  have derived := h.derived
  refine ⟨fun untracked => by simp [invalidate, untracked], fun origin tracked => ?_⟩
  have member := derived.mem_invalidate_iff tracked
  have own : ∀ q, g.moduleOf? q = some origin → q ∈ g.invalidate path :=
    fun q hq => (member q).mpr ⟨origin, hq, .refl⟩
  refine ⟨?_, fun q => ?_, own path tracked, own⟩
  · simp only [invalidate, tracked]
    exact ExtTreeSet.ordered_toList.imp fun less => compare_lt_iff_lt.mp less
  · rw [member]
    refine exists_congr fun name => and_congr_right fun hq => ?_
    exact (derived.chain?_isSome_iff (derived.moduleOf?_live hq)
      (derived.moduleOf?_live tracked)).symm

/-- Two modules import each other, a third one imports one of them and a name that is no module,
and a fourth has nothing to do with them. -/
theorem invalidation_follows_chains_ring :
    let a : FileFacts := { path := "a", moduleField := "m", imports := [.plain "n"] }
    let b : FileFacts := { path := "b", moduleField := "n", imports := [.plain "m"] }
    let c : FileFacts := { path := "c", moduleField := "o", imports := [.plain "x", .plain "n"] }
    let d : FileFacts := { path := "d", moduleField := "p" }
    let g := (Graph.empty 1).addAll [c, a, d, b]
    g.moduleOf? "a" = some "m" ∧ g.invalidate "a" = ["a", "b", "c"] ∧
      (∃ name, g.moduleOf? "c" = some name ∧ (g.chain? name "m").isSome) ∧
      (¬ ∃ name, g.moduleOf? "d" = some name ∧ (g.chain? name "m").isSome) ∧
      g.moduleOf? "x" = none ∧ g.invalidate "x" = ["x"] := by
  intro a b c d g
  have reached : Reachable g := .add b (.add d (.add a (.add c (.start 1))))
  have tracked : g.moduleOf? "a" = some "m" := by decide +kernel
  have untracked : g.moduleOf? "x" = none := by decide +kernel
  have listed : g.invalidate "a" = ["a", "b", "c"] := by decide +kernel
  obtain ⟨-, member, -, -⟩ := (invalidation_follows_chains reached "a").2 "m" tracked
  refine ⟨tracked, listed, (member "c").mp (by simp [listed]), ?_, untracked,
    (invalidation_follows_chains reached "x").1 untracked⟩
  rw [← member "d", listed]
  decide

end Graph

end ModuleAtlas
