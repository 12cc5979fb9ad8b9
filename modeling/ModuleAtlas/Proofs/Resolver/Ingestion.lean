import ModuleAtlas.Proofs.Graph.Loading
import ModuleAtlas.Proofs.Resolver.Stages

/-!
# The order of ingestion does not show

A graph whose cache has always had room for its files has lost none of them: `Roomy.snapshot_eq`. So
the resolvers of two such graphs with the same files have the same files and the same definitions.
Their modules may name different files and places for an import edge, which no stage of resolution
and no report reads: `Resolver.SameView.answers_eq`.
-/

namespace ModuleAtlas

open Std (ExtTreeMap)
open Recency (Cache)

theorem Recency.Cache.Carries.size_eq {table : Table FileFacts} {cache : Cache String FileFacts}
    (h : cache.Carries fun path facts => table[path]? = some facts) : cache.size = table.size := by
  obtain ⟨order, refines, holds⟩ := h
  have once : table.toList.Nodup := by
    apply List.Nodup.of_map Prod.fst
    rw [ExtTreeMap.map_fst_toList_eq_keys]
    exact table.nodup_keys
  have same : order.entries.Perm table.toList := by
    refine (List.perm_ext_iff_of_nodup (.of_map _ refines.keys_nodup) once).mpr fun entry => ?_
    rw [holds, ExtTreeMap.mem_toList_iff_getElem?_eq_some]
  rw [refines.size, same.length_eq, ExtTreeMap.length_toList]

namespace Graph

/-! ## Graphs that lose nothing -/

/-- A graph that comes from an empty one by adding and removing files, with room in its cache for
all that are tracked at any time. -/
inductive Roomy : List Edit → Graph → Prop where
  | start (capacity : Nat) : Roomy [] (.empty capacity)
  | edit {history : List Edit} {g : Graph} (e : Edit) : Roomy history g →
      (survivors (history ++ [e])).size ≤ g.cache.capacity → Roomy (history ++ [e]) (g.edit e)
  | resize {history : List Edit} {g : Graph} (capacity : Nat) : Roomy history g →
      (survivors history).size ≤ capacity → Roomy history (g.setCacheCapacity capacity)

namespace Roomy

variable {history : List Edit} {g : Graph}

theorem follows (h : Roomy history g) : Follows history g := by
  induction h with
  | start capacity => exact .start capacity
  | edit e _ _ ih => exact ih.edit e
  | resize capacity _ _ ih => exact ih.setCacheCapacity capacity

theorem carries_edit (h : Follows history g)
    (full : g.cache.Carries fun path facts => (survivors history)[path]? = some facts) {e : Edit}
    (room : (survivors (history ++ [e])).size ≤ g.cache.capacity) :
    (g.edit e).cache.Carries
      fun path facts => (survivors (history ++ [e]))[path]? = some facts := by
  have size := full.size_eq
  rw [survivors_append] at room ⊢
  cases e with
  | add facts =>
    change (g.add facts).cache.Carries _
    rw [add_cache]
    refine full.put ?_ (fun f => ?_) fun path f other => ?_
    · -- a path that is new makes the files one more
      rw [← Table.mem_iff_exists, or_iff_not_imp_left]
      intro fresh
      rw [Edit.track, ExtTreeMap.size_insert, if_neg (by simpa using fresh)] at room
      omega
    · simp [Edit.track, eq_comm]
    · rw [Edit.track, ExtTreeMap.getElem?_insert, if_neg (by simpa using other.symm)]
  | remove path =>
    change (g.remove path).cache.Carries _
    rw [remove_cache]
    split
    · refine full.evict (fun f => ?_) fun p f other => ?_
      · simp [Edit.track]
      · rw [Edit.track, ExtTreeMap.getElem?_erase, if_neg (by simpa using other.symm)]
    · next untracked =>
      have unchanged : (Edit.remove path).track (survivors history) = survivors history := by
        rw [h.tracks_iff, ExtTreeMap.mem_iff_isSome_getElem?, Option.not_isSome_iff_eq_none]
          at untracked
        apply ExtTreeMap.ext_getElem?
        intro p
        rw [Edit.track, ExtTreeMap.getElem?_erase]
        split
        · next own => rw [← Std.LawfulEqCmp.eq_of_compare own, untracked]
        · rfl
      rwa [unchanged]

/-- The cache holds all files that are tracked. -/
theorem carries (h : Roomy history g) :
    g.cache.Carries fun path facts => (survivors history)[path]? = some facts := by
  induction h with
  | start capacity => exact Cache.carries_empty (by simp [survivors]) capacity
  | edit e before room ih => exact carries_edit before.follows ih room
  | resize capacity _ room ih => exact ih.setCapacity (ih.size_eq ▸ room)

theorem lostPaths_eq (h : Roomy history g) : g.lostPaths = [] := by
  apply List.filter_eq_nil_iff.mpr
  intro path listed
  rw [h.follows.paths, ExtTreeMap.mem_keys] at listed
  obtain ⟨facts, held⟩ := Table.mem_iff_exists.mp listed
  rw [Bool.not_eq_true, Option.isNone_eq_false_iff]
  exact h.carries.isSome_peek? held

/-- **Snapshots.** They are complete without the help of a loader. -/
theorem snapshot_eq {σ : Type} [HasGraph σ] (load : Loader σ) {s : σ}
    (h : Roomy history (HasGraph.graph s)) :
    (load.snapshot s).1 = ⟨(replay 0 history).modules, (survivors history).values⟩ := by
  have cached := cached_append_lost h.follows (.refl _)
  rw [h.lostPaths_eq, List.filterMap_nil] at cached
  have files : (load.getAllFiles s).1 = (survivors history).values := by
    simp only [Loader.getAllFiles, Loader.fillMissing, h.lostPaths_eq, Loader.loadAll]
    exact sortByPath_of_perm (survivors_filedByPath history) cached
  rw [← files, ← h.follows.modules]
  rfl

end Roomy

/-! ## Modules up to attribution -/

theorem Agree.unattributed_eq {g g' : Graph} (h : Agree g g') :
    (g.modules.map fun _ node => node.unattributed) =
      g'.modules.map fun _ node => node.unattributed := by
  apply ExtTreeMap.ext_getElem?
  intro name
  have live : name ∈ g.modules ↔ name ∈ g'.modules := by
    rw [← ExtTreeMap.mem_keys, h.names, ExtTreeMap.mem_keys]
  rw [ExtTreeMap.mem_iff_isSome_getElem?, ExtTreeMap.mem_iff_isSome_getElem?] at live
  rw [ExtTreeMap.getElem?_map, ExtTreeMap.getElem?_map]
  cases held : g.modules[name]? with
  | none =>
    cases held' : g'.modules[name]? with
    | none => rfl
    | some node' => simp [held, held'] at live
  | some node =>
    cases held' : g'.modules[name]? with
    | none => simp [held, held'] at live
    | some node' => exact congrArg some (h.modules name node node' held held')

end Graph

section
variable {modules modules' : Table ModuleNode}

theorem lookAlike_of_unattributed
    (same : (modules.map fun _ node => node.unattributed) =
      modules'.map fun _ node => node.unattributed) (home : String) :
    Resolver.LookAlike home modules modules' := by
  have alike (name : String) (node node' : ModuleNode) (held : modules[name]? = some node)
      (held' : modules'[name]? = some node') : node.unattributed = node'.unattributed := by
    have equal := congrArg (·[name]?) same
    simpa [held, held'] using equal
  constructor
  · intro name
    rw [← ExtTreeMap.mem_map (f := fun _ node => node.unattributed), same, ExtTreeMap.mem_map]
  · intro name node node' held held' member
    have exports := congrArg (·.exports) (alike name node node' held held')
    exact iff_of_eq (congrArg (member ∈ ·) exports)
  · intro node node' held held' member
    have definitions := congrArg (·.definitions) (alike home node node' held held')
    exact iff_of_eq (congrArg (member ∈ ·) definitions)

theorem SymbolTable.ofModules_unattributed (modules : Table ModuleNode) :
    ofModules (modules.map fun _ node => node.unattributed) = ofModules modules := by
  simp only [ofModules, Table.values_eq_map_toList, ExtTreeMap.toList_map, List.map_map,
    List.flatMap_map]
  rfl

end

namespace Resolver

/-! ## Answers -/

/-- All that can be asked of a resolver about references and imports. -/
structure Answers where
  resolve : FileFacts → Reference → Resolution
  unresolved : List UnresolvedReference
  unused : List UnusedImport
  bridges : List Assessment

def answers (resolver : Resolver) : Answers where
  resolve := resolver.resolve
  unresolved := resolver.findUnresolved
  unused := resolver.findUnused
  bridges := resolver.findProbableBridges

/-- Two resolvers hold the same but for their modules, and these look alike from everywhere. -/
structure SameView (resolver resolver' : Resolver) : Prop where
  files : resolver.files = resolver'.files
  symbols : resolver.symbols = resolver'.symbols
  bridges : resolver.bridges = resolver'.bridges
  excluded : resolver.excluded = resolver'.excluded
  settings : resolver.settings = resolver'.settings
  modules : ∀ home, LookAlike home resolver.modules resolver'.modules

namespace SameView

variable {resolver resolver' : Resolver} (h : SameView resolver resolver') (file : FileFacts)
include h

theorem ground : SameGround resolver resolver' (resolver.context file) (resolver'.context file) :=
  .contexts h.bridges h.excluded file

theorem resolve_eq (reference : Reference) :
    resolver.resolve file reference = resolver'.resolve file reference := by
  have ground := h.ground file
  have matched (usage : Usage) :
      resolver.bestMatch? (resolver.context file) (RefName.stripSigils reference.name) usage =
        resolver'.bestMatch? (resolver'.context file) (RefName.stripSigils reference.name) usage :=
    SameGround.bestMatch?_eq h.symbols (ground.score_eq (fun _ => rfl) usage)
  rw [resolve, resolve, resolveIn_eq, resolveIn_eq, ground.taken?_eq matched,
    ground.leftOver_eq matched, (h.modules file.moduleName).qualifies_eq]

theorem unresolvedIn_eq : resolver.unresolvedIn file = resolver'.unresolvedIn file := by
  have reports : resolver.reportsUnresolved (resolver.context file) =
      resolver'.reportsUnresolved (resolver'.context file) := by
    funext reference
    have same := h.resolve_eq file reference
    rw [resolve, resolve] at same
    simp only [reportsUnresolved, same]
    rfl
  simp only [unresolvedIn, reports]
  rfl

theorem evidence_eq (reference : Reference) :
    resolver.evidence (resolver.context file) reference =
      resolver'.evidence (resolver'.context file) reference := by
  have ground := h.ground file
  have foreign : resolver.foreignCandidates (resolver.context file) reference =
      resolver'.foreignCandidates (resolver'.context file) reference := by
    simp only [foreignCandidates, candidates, h.symbols, ground.bridgeUsage?, ground.sameLanguage]
  simp only [evidence, foreign, ground.declaredBridge?,
    (h.modules file.moduleName).moduleDefines_eq]
  rfl

theorem assessmentsIn_eq : resolver.assessmentsIn file = resolver'.assessmentsIn file := by
  have ground := h.ground file
  have assessed : resolver.assessIn (resolver.context file) =
      resolver'.assessIn (resolver'.context file) := by
    funext reference
    simp only [assessIn, h.evidence_eq, h.settings, ground.declaredBridge?]
    rfl
  simp only [assessmentsIn, assessed, ground.declaredBridge?, ground.bridgeUsage?]

/-- **Answers.** They depend on the modules only by what can be seen of them. -/
theorem answers_eq : resolver.answers = resolver'.answers := by
  have resolved : resolver.resolve = resolver'.resolve :=
    funext fun file => funext fun reference => h.resolve_eq file reference
  have unresolved : resolver.unresolvedIn = resolver'.unresolvedIn :=
    funext fun file => h.unresolvedIn_eq file
  have assessed : resolver.assessmentsIn = resolver'.assessmentsIn :=
    funext fun file => h.assessmentsIn_eq file
  simp only [answers, findUnresolved, findUnused, findProbableBridges, resolved, unresolved, assessed,
    h.files]

end SameView

end Resolver

open ModuleAtlas.Graph (Edit Roomy replay survivors)

/-- **Ingestion.** Graphs that have always had room for their files, and that have the same files in
the end, have resolvers with the same answers, or both refuse the settings. -/
theorem ingestion_order_does_not_show {s s' : Session} {history history' : List Edit}
    (roomy : Roomy history s.graph) (roomy' : Roomy history' s'.graph)
    (same : survivors history = survivors history') (settings : Option Settings) :
    (s.resolver settings).map Resolver.answers = (s'.resolver settings).map Resolver.answers := by
  have snapshot := roomy.snapshot_eq Session.ask
  have snapshot' := roomy'.snapshot_eq Session.ask
  obtain ⟨derived, tracked⟩ := Graph.replay_derived 0 history
  obtain ⟨derived', tracked'⟩ := Graph.replay_derived 0 history'
  have agree := derived.agree derived' (by rw [tracked, tracked', same])
  have modules := agree.unattributed_eq
  have symbols : SymbolTable.ofModules (replay 0 history).modules =
      SymbolTable.ofModules (replay 0 history').modules := by
    rw [← SymbolTable.ofModules_unattributed, modules, SymbolTable.ofModules_unattributed]
  apply Session.resolver_map_eq
  intro bridges excluded settings
  apply Resolver.SameView.answers_eq
  rw [snapshot, snapshot', same]
  exact ⟨rfl, symbols, rfl, rfl, rfl, lookAlike_of_unattributed modules⟩

/-- Two files of a module import another one. Which of them came last is told by the edge between
the modules, and by no answer of a resolver. -/
theorem ingestion_order_does_not_show_attribution :
    let a : FileFacts := { path := "a", moduleField := "app", imports := [.plain "core"] }
    let b : FileFacts := { path := "b", moduleField := "app", imports := [.plain "core"] }
    let stale : FileFacts := { path := "a", moduleField := "core" }
    let history : List Edit := [.add a, .add b]
    let history' : List Edit := [.add stale, .add b, .add a]
    let session (history : List Edit) : Session := { graph := replay 2 history }
    let named (s : Session) : Option String :=
      (s.graph.modules["app"]?.bind (·.imports["core"]?)).map (·.file)
    named (session history) = some "b" ∧ named (session history') = some "a" ∧
      ∀ settings, ((session history).resolver settings).map Resolver.answers =
        ((session history').resolver settings).map Resolver.answers := by
  intro a b stale history history' session named
  have roomy : Roomy history (session history).graph :=
    .edit (.add b) (.edit (.add a) (.start 2) (by decide +kernel)) (by decide +kernel)
  have roomy' : Roomy history' (session history').graph :=
    .edit (.add a) (.edit (.add b) (.edit (.add stale) (.start 2) (by decide +kernel))
      (by decide +kernel)) (by decide +kernel)
  have same : survivors history = survivors history' := by
    apply ExtTreeMap.ext_getElem?
    intro path
    simp only [survivors, history, history', List.foldl_cons, List.foldl_nil, Edit.track, a, b, stale,
      ExtTreeMap.getElem?_insert, Std.LawfulEqCmp.compare_eq_iff_eq]
    by_cases first : "a" = path
    · simp [← first]
    · simp [first]
  refine ⟨by decide +kernel, by decide +kernel, fun settings => ?_⟩
  exact ingestion_order_does_not_show roomy roomy' same settings

end ModuleAtlas
