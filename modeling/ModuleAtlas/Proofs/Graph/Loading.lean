import ModuleAtlas.Graph.Loading
import ModuleAtlas.Proofs.Graph.History
import ModuleAtlas.Proofs.Recency.Contents
import Mathlib.Data.List.Basic

/-!
# Files from the cache and from a loader

The cache of a graph has no part in its modules, so a graph is the one that its history makes
together with some cache: `Follows`. All that is read from such a graph by way of a loader comes
from the files that are tracked, whatever the cache has lost and in whatever order it is loaded
again.
-/

namespace ModuleAtlas

open Std (ExtTreeMap)
open Recency (Cache)

namespace Graph

/-! ## Graphs up to their cache -/

section
variable (g : Graph) (cache : Cache String FileFacts) (name path : String)

def withCache : Graph :=
  { g with cache }

/-- What is left of a graph without what it has cached. -/
def bare : Graph :=
  g.withCache (.empty 0)

theorem withCache_modules : (g.withCache cache).modules = g.modules := rfl

theorem withCache_files : (g.withCache cache).files = g.files := rfl

theorem withCache_link : (g.link name).withCache cache = (g.withCache cache).link name := by
  simp only [link, withCache]
  split <;> rfl

theorem withCache_deriveImporters :
    (g.deriveImporters name).withCache cache = (g.withCache cache).deriveImporters name := by
  unfold deriveImporters
  exact apply_ite (withCache · cache) _ _ _

theorem withCache_ensureModule :
    (g.ensureModule name).withCache cache = (g.withCache cache).ensureModule name := by
  unfold ensureModule
  rw [apply_ite (withCache · cache)]
  exact ite_congr rfl (fun _ => rfl) fun _ => withCache_deriveImporters _ cache name

theorem withCache_apply (c : Contribution) :
    (g.apply path c).withCache cache = (g.withCache cache).apply path c := by
  simp only [apply, ← withCache_ensureModule]
  exact withCache_link _ cache _

theorem withCache_purge : (g.purge name).withCache cache = (g.withCache cache).purge name := by
  simp only [purge, withCache]
  split <;> rfl

theorem withCache_rebuild : (g.rebuild name).withCache cache = (g.withCache cache).rebuild name := by
  cases held : g.modules[name]? with
  | none => simp only [rebuild, withCache_modules, held]
  | some node =>
    simp only [rebuild, withCache_modules, held]
    exact withCache_link _ cache name

theorem withCache_retract : (g.retract path).withCache cache = (g.withCache cache).retract path := by
  cases tracked : g.files[path]? with
  | none => simp only [retract, withCache_files, tracked]
  | some c =>
    cases held : g.modules[c.moduleName]? with
    | none =>
      simp only [retract, withCache_files, withCache_modules, tracked, held]
      rfl
    | some node =>
      simp only [retract, withCache_files, withCache_modules, tracked, held]
      rw [apply_ite (withCache · cache)]
      exact ite_congr rfl (fun _ => withCache_purge _ cache _) fun _ => withCache_rebuild _ cache _

theorem retract_cache : (g.retract path).cache = g.cache := by
  have same := congrArg Graph.cache (withCache_retract g g.cache path)
  exact same.symm

theorem apply_cache (c : Contribution) : (g.apply path c).cache = g.cache := by
  have same := congrArg Graph.cache (withCache_apply g g.cache path c)
  exact same.symm

theorem add_cache (facts : FileFacts) :
    (g.add facts).cache = g.cache.put facts.path facts := by
  simp only [add, apply_cache, retract_cache]

theorem remove_cache :
    (g.remove path).cache = if g.tracks path then (g.cache.evict path).2 else g.cache := by
  unfold remove
  split
  · simp only [retract_cache]
  · rfl

theorem bare_edit (e : Edit) : (g.edit e).bare = (g.bare.edit e).bare := by
  cases e with
  | add facts =>
    change ((g.retract facts.path).apply facts.path facts.contribution).withCache _ =
      ((g.bare.retract facts.path).apply facts.path facts.contribution).withCache _
    rw [bare, ← withCache_retract, ← withCache_apply]
    rfl
  | remove path =>
    change (g.remove path).bare = (g.bare.remove path).bare
    unfold remove
    rw [apply_ite bare, apply_ite bare]
    refine ite_congr rfl (fun _ => ?_) fun _ => rfl
    change (g.retract path).withCache _ = (g.bare.retract path).withCache _
    rw [bare, ← withCache_retract]
    rfl

end

/-! ## Graphs that follow a history -/

/-- The graph is the one that the history makes, but for its cache, and what is cached is what
survives the history. -/
structure Follows (history : List Edit) (g : Graph) : Prop where
  bare : g.bare = (replay 0 history).bare
  cached : g.cache.Within fun path facts => (survivors history)[path]? = some facts

theorem survivors_append (history : List Edit) (e : Edit) :
    survivors (history ++ [e]) = e.track (survivors history) := by
  simp [survivors]

namespace Follows

variable {history : List Edit} {g : Graph}

theorem start (capacity : Nat) : Follows [] (.empty capacity) :=
  ⟨rfl, Cache.within_empty _ capacity⟩

theorem modules (h : Follows history g) : g.modules = (replay 0 history).modules := by
  have same := congrArg Graph.modules h.bare
  exact same

theorem files (h : Follows history g) :
    g.files = (survivors history).map fun _ f => f.contribution :=
  (congrArg Graph.files h.bare).trans (replay_derived 0 history).2

theorem tracks_iff (h : Follows history g) {path : String} :
    g.tracks path = true ↔ path ∈ survivors history := by
  simp [tracks, h.files]

theorem paths (h : Follows history g) : g.paths = (survivors history).keys := by
  simp [Graph.paths, h.files]

/-- Nothing but the cache has to be looked at after a change to the cache. -/
theorem withCache (h : Follows history g) {cache : Cache String FileFacts}
    (cached : cache.Within fun path facts => (survivors history)[path]? = some facts) :
    Follows history (g.withCache cache) :=
  ⟨h.bare, cached⟩

theorem edit (h : Follows history g) (e : Edit) : Follows (history ++ [e]) (g.edit e) := by
  constructor
  · rw [bare_edit, h.bare, ← bare_edit]
    simp [replay]
  · rw [survivors_append]
    cases e with
    | add facts =>
      change (g.add facts).cache.Within _
      rw [add_cache]
      refine h.cached.put ?_ fun path f other known => ?_
      · simp [Edit.track]
      · rwa [Edit.track, ExtTreeMap.getElem?_insert, if_neg (by simpa using other.symm)]
    | remove path =>
      change (g.remove path).cache.Within _
      have others : ∀ p f, p ≠ path → (survivors history)[p]? = some f →
          ((Edit.remove path).track (survivors history))[p]? = some f := by
        intro p f other known
        rwa [Edit.track, ExtTreeMap.getElem?_erase, if_neg (by simpa using other.symm)]
      rw [remove_cache]
      split
      · exact h.cached.evict others
      · next untracked =>
        refine h.cached.mono fun p f known => others p f ?_ known
        rintro rfl
        exact untracked (h.tracks_iff.mpr (Table.mem_iff_exists.mpr ⟨f, known⟩))

theorem setCacheCapacity (h : Follows history g) (capacity : Nat) :
    Follows history (g.setCacheCapacity capacity) :=
  h.withCache (h.cached.setCapacity capacity)

/-- A path is untracked, or its facts are found in the cache, or they are lost. -/
theorem lookup_cases (h : Follows history g) (path : String) :
    (survivors history)[path]? = none ∧ g.lookup path = (.untracked, g) ∨
    ∃ facts, (survivors history)[path]? = some facts ∧
      ((∃ g', g.lookup path = (.cached facts, g') ∧ Follows history g') ∨
        g.lookup path = (.lost, g)) := by
  unfold Graph.lookup
  cases known : (survivors history)[path]? with
  | none =>
    have untracked : ¬ g.tracks path = true := by
      rw [h.tracks_iff, ExtTreeMap.mem_iff_isSome_getElem?, known]
      simp
    exact .inl ⟨rfl, if_neg untracked⟩
  | some facts =>
    have tracked : g.tracks path = true := h.tracks_iff.mpr (Table.mem_iff_exists.mpr ⟨facts, known⟩)
    obtain ⟨seen, within⟩ := h.cached.get? path
    refine .inr ⟨facts, rfl, ?_⟩
    rw [if_pos tracked]
    split
    · next found cache got =>
      rw [got] at seen within
      have own := h.cached.peek? seen.symm
      obtain rfl : facts = found := Option.some.inj (known.symm.trans own)
      exact .inl ⟨_, rfl, h.withCache within⟩
    · exact .inr rfl

theorem fill (h : Follows history g) {path : String} {facts : FileFacts}
    (known : (survivors history)[path]? = some facts) : Follows history (g.fill path facts) := by
  unfold Graph.fill
  split
  · exact h.withCache (h.cached.put known fun _ _ _ => id)
  · exact h

theorem foldl_fill (h : Follows history g) {loaded : List FileFacts}
    (known : ∀ facts ∈ loaded, (survivors history)[facts.path]? = some facts) :
    Follows history (loaded.foldl (fun g facts => g.fill facts.path facts) g) := by
  induction loaded generalizing g with
  | nil => exact h
  | cons facts loaded ih =>
    obtain ⟨first, rest⟩ := List.forall_mem_cons.mp known
    exact ih (h.fill first) rest

end Follows

/-! ## All files in order -/

variable {facts : Table FileFacts}

theorem values_paths (filed : FiledByPath facts) : facts.values.map (·.path) = facts.keys := by
  rw [Table.values_eq_map_toList, ← ExtTreeMap.map_fst_toList_eq_keys, List.map_map]
  refine List.map_congr_left fun entry held => ?_
  exact filed _ _ (ExtTreeMap.mem_toList_iff_getElem?_eq_some.mp held)

theorem filterMap_keys (facts : Table FileFacts) :
    facts.keys.filterMap (fun path => facts[path]?) = facts.values := by
  rw [Table.values_eq_map_toList, ← ExtTreeMap.map_fst_toList_eq_keys, List.filterMap_map]
  refine List.filterMap_eq_map_iff_forall_eq_some.mpr fun entry held => ?_
  exact ExtTreeMap.mem_toList_iff_getElem?_eq_some.mp held

theorem keys_ascend {α : Type} (table : Table α) : table.keys.Pairwise (· < ·) :=
  table.ordered_keys.imp compare_lt_iff_lt.mp

theorem pairwise_sortByPath (found : List FileFacts) :
    (sortByPath found).Pairwise fun a b => a.path ≤ b.path := by
  have trans : ∀ a b c : FileFacts, decide (a.path ≤ b.path) = true →
      decide (b.path ≤ c.path) = true → decide (a.path ≤ c.path) = true := by
    simpa using fun a b c : FileFacts => le_trans
  have total : ∀ a b : FileFacts, (decide (a.path ≤ b.path) || decide (b.path ≤ a.path)) = true := by
    simpa using fun a b : FileFacts => le_total a.path b.path
  simpa [sortByPath] using List.pairwise_mergeSort trans total found

/-- Files that are each tracked, once each, come into the order of their paths. -/
theorem sortByPath_of_perm (filed : FiledByPath facts) {found : List FileFacts}
    (perm : found.Perm facts.values) : sortByPath found = facts.values := by
  have sorted := pairwise_sortByPath found
  have ascending : facts.values.Pairwise fun a b => a.path ≤ b.path := by
    rw [← List.pairwise_map (f := FileFacts.path) (R := (· ≤ ·)), values_paths filed]
    exact (keys_ascend facts).imp le_of_lt
  have reordered : (sortByPath found).Perm facts.values := (List.mergeSort_perm _ _).trans perm
  refine reordered.eq_of_pairwise (fun a b ha hb ab ba => ?_) sorted ascending
  obtain ⟨path, held⟩ := Table.mem_values_iff.mp (reordered.mem_iff.mp ha)
  obtain ⟨path', held'⟩ := Table.mem_values_iff.mp hb
  have same : path = path' := by
    rw [← filed path a held, ← filed path' b held']
    exact le_antisymm ab ba
  exact Option.some.inj (held.symm.trans (same ▸ held'))

/-- What is cached and what is lost make up all that is tracked. -/
theorem cached_append_lost {history : List Edit} {g : Graph} (h : Follows history g)
    {lost : List String} (any : lost.Perm g.lostPaths) :
    (g.cachedFiles ++ lost.filterMap fun path => (survivors history)[path]?).Perm
      (survivors history).values := by
  have cached : g.cachedFiles =
      (g.paths.filter fun path => !(g.cache.peek? path).isNone).filterMap
        fun path => (survivors history)[path]? := by
    rw [cachedFiles, List.filterMap_filter]
    refine List.filterMap_congr fun path _ => ?_
    cases found : g.cache.peek? path with
    | none => rfl
    | some facts => exact (h.cached.peek? found).symm
  refine ((any.filterMap _).append_left _).trans ?_
  rw [cached, lostPaths, ← List.filterMap_append, ← filterMap_keys, ← h.paths]
  exact (List.perm_append_comm.trans (List.filter_append_perm _ _)).filterMap _

end Graph

/-! ## Loaders -/

namespace Loader

open ModuleAtlas.Graph HasGraph

variable {σ : Type} [HasGraph σ] {load : Loader σ} {ready : σ → Prop} {history : List Edit} {s : σ}

/-- In every state that is `ready` and whose graph follows the history, the loader knows the facts
that survive, and leaves the graph alone when it is asked for them. A state stays ready when the
loader has been asked, and whatever becomes of its graph. -/
structure Answers (load : Loader σ) (ready : σ → Prop) (history : List Edit) : Prop where
  known : ∀ s, ready s → Follows history (graph s) →
    ∀ (path : String) (f : FileFacts), (survivors history)[path]? = some f →
      (load path s).1 = some f ∧ graph (load path s).2 = graph s
  asked : ∀ s, ready s → ∀ path, ready (load path s).2
  changed : ∀ s, ready s → ∀ g, ready (withGraph s g)

/-- The state is ready and has a graph that follows the history. -/
def Serves (ready : σ → Prop) (history : List Edit) (s : σ) : Prop :=
  ready s ∧ Follows history (graph s)

namespace Answers

theorem ask (answers : load.Answers ready history) (h : Serves ready history s) {path : String}
    {f : FileFacts} (known : (survivors history)[path]? = some f) :
    (load path s).1 = some f ∧ Serves ready history (load path s).2 := by
  obtain ⟨found, same⟩ := answers.known s h.1 h.2 path f known
  exact ⟨found, answers.asked s h.1 path, same ▸ h.2⟩

theorem change (answers : load.Answers ready history) (h : ready s) {history' : List Edit}
    {g : Graph} (follows : Follows history' g) : Serves ready history' (withGraph s g) :=
  ⟨answers.changed s h g, (graph_withGraph s g).symm ▸ follows⟩

theorem loadAll_eq (answers : load.Answers ready history) (h : Serves ready history s)
    {paths : List String} (tracked : ∀ path ∈ paths, path ∈ survivors history) :
    (load.loadAll paths s).1 = paths.filterMap (fun path => (survivors history)[path]?) ∧
      Serves ready history (load.loadAll paths s).2 := by
  induction paths generalizing s with
  | nil => exact ⟨rfl, h⟩
  | cons path paths ih =>
    obtain ⟨first, rest⟩ := List.forall_mem_cons.mp tracked
    obtain ⟨f, known⟩ := Table.mem_iff_exists.mp first
    obtain ⟨found, serves⟩ := answers.ask h known
    obtain ⟨more, serves'⟩ := ih serves rest
    refine ⟨?_, serves'⟩
    simp [loadAll, found, Option.filter, survivors_filedByPath history path f known, known, more]

/-- **One file.** -/
theorem getFile (answers : load.Answers ready history) (h : Serves ready history s)
    (path : String) :
    (load.getFile path s).1 = (survivors history)[path]? ∧
      Serves ready history (load.getFile path s).2 := by
  unfold Loader.getFile
  rcases h.2.lookup_cases path with ⟨unknown, found⟩ | ⟨f, known, ⟨g, found, follows⟩ | found⟩
  · rw [found, unknown]
    exact ⟨rfl, h⟩
  · rw [found, known]
    exact ⟨rfl, answers.change h.1 follows⟩
  · obtain ⟨loaded, serves⟩ := answers.ask h known
    cases asked : load path s with
    | mk answer s' =>
      rw [asked] at loaded serves
      obtain rfl : answer = some f := loaded
      rw [found, known]
      exact ⟨rfl, answers.change serves.1 (serves.2.fill known)⟩

/-- **All files.** The order in which those that are lost are loaded does not show. -/
theorem fillMissing (answers : load.Answers ready history) (h : Serves ready history s)
    {lost : List String} (any : lost.Perm (graph s).lostPaths) :
    (load.fillMissing lost s).1 = (survivors history).values ∧
      Serves ready history (load.fillMissing lost s).2 := by
  have filed := survivors_filedByPath history
  have tracked : ∀ path ∈ lost, path ∈ survivors history := by
    intro path member
    have listed := List.mem_of_mem_filter (any.mem_iff.mp member)
    rwa [h.2.paths, ExtTreeMap.mem_keys] at listed
  obtain ⟨loaded, serves⟩ := answers.loadAll_eq h tracked
  unfold Loader.fillMissing
  simp only [loaded]
  refine ⟨sortByPath_of_perm filed (cached_append_lost h.2 any),
    answers.change serves.1 (serves.2.foldl_fill fun f hf => ?_)⟩
  obtain ⟨path, -, known⟩ := List.mem_filterMap.mp hf
  rwa [filed path f known]

theorem getAllFiles (answers : load.Answers ready history) (h : Serves ready history s) :
    (load.getAllFiles s).1 = (survivors history).values ∧
      Serves ready history (load.getAllFiles s).2 :=
  answers.fillMissing h (.refl _)

theorem snapshot (answers : load.Answers ready history) (h : Serves ready history s) :
    (load.snapshot s).1 = ⟨(replay 0 history).modules, (survivors history).values⟩ ∧
      Serves ready history (load.snapshot s).2 := by
  obtain ⟨files, serves⟩ := answers.getAllFiles h
  refine ⟨?_, serves⟩
  rw [← files, ← h.2.modules]
  rfl

end Answers

end Loader

end ModuleAtlas
