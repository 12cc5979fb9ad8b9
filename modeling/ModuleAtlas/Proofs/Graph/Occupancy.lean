import ModuleAtlas.Proofs.Graph.Transparency

/-!
# The cache stays within the graph

Files get into the cache when they are added and when they are loaded again, they leave it when they
are removed and when there is no room, and a loader may use the graph while it is asked. All of this
is made up of a few `Change`s. Each of them keeps the cache within the files that are tracked, so
every run of calls does.
-/

namespace ModuleAtlas

open Recency (Cache)
open Std (ExtTreeMap)

namespace Graph

/-! ## Changes -/

/-- What can happen to a graph. To look for a file in the cache is a `touch` of it. -/
inductive Change where
  | edit (e : Edit)
  | setCapacity (capacity : Nat)
  | markDirty (paths : List String)
  | takeDirty
  | touch (path : String)
  | fill (path : String) (facts : FileFacts)

def change (g : Graph) : Change → Graph
  | .edit e => g.edit e
  | .setCapacity capacity => g.setCacheCapacity capacity
  | .markDirty paths => g.markDirty paths
  | .takeDirty => g.takeDirty.2
  | .touch path => (g.lookup path).2
  | .fill path facts => g.fill path facts

/-- Some changes make one graph the other. -/
def Becomes (g g' : Graph) : Prop :=
  ∃ changes : List Change, changes.foldl change g = g'

namespace Becomes

variable {g g' g'' : Graph}

theorem refl (g : Graph) : Becomes g g :=
  ⟨[], rfl⟩

theorem trans (first : Becomes g g') (second : Becomes g' g'') : Becomes g g'' := by
  obtain ⟨changes, rfl⟩ := first
  obtain ⟨more, rfl⟩ := second
  exact ⟨changes ++ more, List.foldl_append⟩

theorem one (g : Graph) (c : Change) : Becomes g (g.change c) :=
  ⟨[c], rfl⟩

end Becomes

/-! ## What every change keeps -/

theorem tracks_iff {g : Graph} {path : String} : g.tracks path = true ↔ path ∈ g.files :=
  decide_eq_true_iff

/-- The graph is made by its files, and what is cached is tracked. -/
structure Kept (g : Graph) : Prop where
  derived : Derived g
  cached : g.cache.Within fun path _ => path ∈ g.files

namespace Kept

variable {g g' : Graph}

theorem start (capacity : Nat) : Kept (.empty capacity) :=
  ⟨.empty capacity, Cache.within_empty _ capacity⟩

/-- Nothing but the cache has to be looked at after a change to the cache. -/
theorem withCache (h : Kept g) {cache : Cache String FileFacts}
    (cached : cache.Within fun path _ => path ∈ g.files) : Kept (g.withCache cache) :=
  ⟨⟨h.derived.live_iff, h.derived.made, h.derived.mirrors⟩, cached⟩

theorem add (h : Kept g) (facts : FileFacts) : Kept (g.add facts) := by
  refine ⟨add_derived h.derived facts, ?_⟩
  rw [add_cache, add_files h.derived]
  refine h.cached.put ?_ fun path _ _ tracked => ?_
  · exact ExtTreeMap.mem_insert_self
  · exact ExtTreeMap.mem_insert.mpr (.inr tracked)

theorem remove (h : Kept g) (path : String) : Kept (g.remove path) := by
  refine ⟨remove_derived h.derived path, ?_⟩
  have others : ∀ p, p ≠ path → p ∈ g.files → p ∈ g.files.erase path := by
    intro p other tracked
    exact ExtTreeMap.mem_erase.mpr ⟨by simpa using other.symm, tracked⟩
  rw [remove_cache, remove_files h.derived]
  split
  · exact h.cached.evict fun p _ => others p
  · next untracked =>
    refine h.cached.mono fun p _ tracked => others p ?_ tracked
    rintro rfl
    exact untracked (tracks_iff.mpr tracked)

/-- A path is untracked, or its facts are found in the cache, or they are lost. -/
theorem lookup_cases (h : Kept g) (path : String) :
    path ∉ g.files ∧ g.lookup path = (.untracked, g) ∨
    (∃ facts cache, g.lookup path = (.cached facts, g.withCache cache) ∧
      path ∉ g.lostPaths ∧ cache.capacity = g.cache.capacity ∧
      ∀ known, g.cache.Within known → cache.Within known) ∨
    path ∈ g.lostPaths ∧ g.lookup path = (.lost, g) := by
  unfold lookup
  by_cases tracked : path ∈ g.files
  · obtain ⟨seen, -⟩ := h.cached.get? path
    have capacity : (g.cache.get? path).2.capacity = g.cache.capacity := h.cached.capacity_get?
    rw [if_pos (tracks_iff.mpr tracked)]
    split
    · next facts cache got =>
      rw [got] at seen capacity
      refine .inr (.inl ⟨facts, cache, rfl, ?_, capacity, fun known within => ?_⟩)
      · simp [lostPaths, ← seen]
      · have within := (within.get? path).2
        rwa [got] at within
    · next got =>
      rw [got] at seen
      refine .inr (.inr ⟨?_, rfl⟩)
      simp [lostPaths, paths, tracked, ← seen]
  · exact .inl ⟨tracked, if_neg fun known => tracked (tracks_iff.mp known)⟩

theorem touch (h : Kept g) (path : String) : Kept (g.lookup path).2 := by
  rcases h.lookup_cases path with ⟨-, found⟩ | ⟨facts, cache, found, -, -, within⟩ | ⟨-, found⟩
  · exact found ▸ h
  · exact found ▸ h.withCache (within _ h.cached)
  · exact found ▸ h

theorem fill (h : Kept g) (path : String) (facts : FileFacts) : Kept (g.fill path facts) := by
  unfold Graph.fill
  split
  · next tracked => exact h.withCache (h.cached.put (tracks_iff.mp tracked) fun _ _ _ => id)
  · exact h

/-- **One change.** -/
theorem change (h : Kept g) (c : Change) : Kept (g.change c) := by
  cases c with
  | edit e =>
    cases e with
    | add facts => exact h.add facts
    | remove path => exact h.remove path
  | setCapacity capacity => exact h.withCache (h.cached.setCapacity capacity)
  | markDirty | takeDirty =>
    exact ⟨⟨h.derived.live_iff, h.derived.made, h.derived.mirrors⟩, h.cached⟩
  | touch path => exact h.touch path
  | fill path facts => exact h.fill path facts

/-- **Any number of changes.** -/
theorem becomes (h : Kept g) (later : Becomes g g') : Kept g' := by
  obtain ⟨changes, rfl⟩ := later
  induction changes generalizing g with
  | nil => exact h
  | cons c changes ih => exact ih (h.change c)

theorem mem_files_of_mem_keys (h : Kept g) {path : String} (held : path ∈ g.cache.keys) :
    path ∈ g.files := by
  obtain ⟨-, tracked⟩ := h.cached.exists_of_mem_keys held
  exact tracked

theorem size_le_files (h : Kept g) : g.cache.size ≤ g.files.size := by
  rw [← ExtTreeMap.length_keys]
  exact h.cached.size_le_length fun path _ tracked => ExtTreeMap.mem_keys.mpr tracked

end Kept

end Graph

/-! ## Loaders -/

namespace Loader

open ModuleAtlas.Graph HasGraph

variable {σ : Type} [HasGraph σ] {load : Loader σ}

/-- The loader does with the graph what anyone may do, if anything. -/
def Orderly (load : Loader σ) : Prop :=
  ∀ path s, Becomes (graph s) (graph (load path s).2)

/-- The loader answers and does no more. -/
def Quiet (load : Loader σ) : Prop :=
  ∀ path s, graph (load path s).2 = graph s

theorem Quiet.loadAll (quiet : load.Quiet) (paths : List String) (s : σ) :
    graph (load.loadAll paths s).2 = graph s := by
  induction paths generalizing s with
  | nil => rfl
  | cons path paths ih => exact (ih _).trans (quiet path s)

namespace Orderly

theorem loadAll (orderly : load.Orderly) (paths : List String) (s : σ) :
    Becomes (graph s) (graph (load.loadAll paths s).2) := by
  induction paths generalizing s with
  | nil => exact .refl _
  | cons path paths ih => exact (orderly path s).trans (ih _)

theorem getFile (orderly : load.Orderly) (path : String) (s : σ) :
    Becomes (graph s) (graph (load.getFile path s).2) := by
  unfold Loader.getFile
  split
  · exact .refl _
  · next found =>
    have touched := Becomes.one (graph s) (.touch path)
    rw [Graph.change, found] at touched
    rwa [graph_withGraph]
  · have asked := orderly path s
    split
    · next answer => rwa [answer] at asked
    · next facts s' answer =>
      rw [answer] at asked
      rw [graph_withGraph]
      exact asked.trans (.one _ (.fill path facts))

theorem fillMissing (orderly : load.Orderly) (lost : List String) (s : σ) :
    Becomes (graph s) (graph (load.fillMissing lost s).2) := by
  have filled (g : Graph) (loaded : List FileFacts) :
      Becomes g (loaded.foldl (fun g facts => g.fill facts.path facts) g) :=
    ⟨loaded.map fun facts => .fill facts.path facts, List.foldl_map⟩
  simp only [Loader.fillMissing, graph_withGraph]
  exact (orderly.loadAll lost s).trans (filled _ _)

theorem serve (orderly : load.Orderly) (s : σ) (request : Request) :
    Becomes (graph s) (graph (serve load s request).2) := by
  cases request with
  | edit e =>
    have edited : graph (Graph.serve load s (.edit e)).2 = (graph s).edit e := by
      cases e <;> exact graph_withGraph s _
    exact edited ▸ .one _ (.edit e)
  | setCapacity capacity =>
    have resized : graph (Graph.serve load s (.setCapacity capacity)).2 =
        (graph s).setCacheCapacity capacity := graph_withGraph s _
    exact resized ▸ .one _ (.setCapacity capacity)
  | getFile path => exact orderly.getFile path s
  | getAllFiles | snapshot => exact orderly.fillMissing _ s

end Orderly

end Loader

namespace Graph

open HasGraph

variable {σ : Type} [HasGraph σ]

/-! ## Calls -/

structure Provider (σ : Type) [HasGraph σ] where
  load : Loader σ
  orderly : load.Orderly

/-- A state with the loader that was set last. -/
structure Host (σ : Type) [HasGraph σ] where
  state : σ
  provider : Option (Provider σ) := none

inductive Call (σ : Type) [HasGraph σ] where
  | request (request : Request)
  | setLoader (provider : Option (Provider σ))
  | markDirty (paths : List String)
  | takeDirty

namespace Host

/-- With no loader set, nothing is loaded. -/
def load (host : Host σ) : Loader σ :=
  match host.provider with
  | some provider => provider.load
  | none => fun _ s => (none, s)

def perform (host : Host σ) : Call σ → Host σ
  | .request request => { host with state := (serve host.load host.state request).2 }
  | .setLoader provider => { host with provider }
  | .markDirty paths =>
    { host with state := withGraph host.state ((graph host.state).markDirty paths) }
  | .takeDirty => { host with state := withGraph host.state (graph host.state).takeDirty.2 }

theorem load_orderly (host : Host σ) : host.load.Orderly := by
  unfold load
  split
  · next provider _ => exact provider.orderly
  · exact fun _ _ => .refl _

theorem perform_becomes (host : Host σ) (call : Call σ) :
    Becomes (graph host.state) (graph (host.perform call).state) := by
  cases call with
  | request request => exact host.load_orderly.serve host.state request
  | setLoader => exact .refl _
  | markDirty paths =>
    simp only [perform, graph_withGraph]
    exact .one _ (.markDirty paths)
  | takeDirty =>
    simp only [perform, graph_withGraph]
    exact .one _ .takeDirty

/-- **A run of calls.** -/
theorem run_becomes (host : Host σ) (calls : List (Call σ)) :
    Becomes (graph host.state) (graph (calls.foldl perform host).state) := by
  induction calls generalizing host with
  | nil => exact .refl _
  | cons call calls ih => exact (perform_becomes host call).trans (ih _)

/-- Calls lead to this state from an empty graph. -/
def Attained (host : Host σ) : Prop :=
  ∃ (start : Host σ) (capacity : Nat) (calls : List (Call σ)),
    graph start.state = .empty capacity ∧ calls.foldl perform start = host

theorem Attained.kept {host : Host σ} (h : host.Attained) : Kept (graph host.state) := by
  obtain ⟨start, capacity, calls, fresh, rfl⟩ := h
  exact (fresh ▸ Kept.start capacity).becomes (start.run_becomes calls)

end Host

/-! ## Reading -/

/-- The requests that only read. -/
inductive Read where
  | file (path : String)
  | all
  | snapshot

def Read.request : Read → Request
  | .file path => .getFile path
  | .all => .getAllFiles
  | .snapshot => .snapshot

/-- The paths that the loader is asked for. -/
def sought (g : Graph) : Read → List String
  | .file path => if path ∈ g.lostPaths then [path] else []
  | .all | .snapshot => g.lostPaths

theorem sought_of_lost {g : Graph} {path : String} (lost : path ∈ g.lostPaths) :
    g.sought (.file path) = [path] :=
  if_pos lost

theorem sought_of_not_lost {g : Graph} {path : String} (held : path ∉ g.lostPaths) :
    g.sought (.file path) = [] :=
  if_neg held

/-- Two graphs differ at most in what they have cached. -/
def SameButCache (g g' : Graph) : Prop :=
  g.bare = g'.bare ∧ g.cache.capacity = g'.cache.capacity

theorem Kept.fill_sameButCache {g : Graph} (h : Kept g) (path : String) (facts : FileFacts) :
    SameButCache (g.fill path facts) g := by
  unfold Graph.fill
  split
  · exact ⟨rfl, h.cached.capacity_put⟩
  · exact ⟨rfl, rfl⟩

theorem Kept.foldl_fill_sameButCache {g : Graph} (h : Kept g) (loaded : List FileFacts) :
    SameButCache (loaded.foldl (fun g facts => g.fill facts.path facts) g) g := by
  induction loaded generalizing g with
  | nil => exact ⟨rfl, rfl⟩
  | cons facts loaded ih =>
    obtain ⟨bare, capacity⟩ := ih (h.fill facts.path facts)
    obtain ⟨bare', capacity'⟩ := h.fill_sameButCache facts.path facts
    exact ⟨bare.trans bare', capacity.trans capacity'⟩

variable {load : Loader σ} {s : σ}

theorem getFile_sameButCache (orderly : load.Orderly) (h : Kept (graph s)) (path : String) :
    SameButCache (graph (load.getFile path s).2)
      (graph (load.loadAll ((graph s).sought (.file path)) s).2) := by
  unfold Loader.getFile
  rcases h.lookup_cases path with
    ⟨untracked, found⟩ | ⟨facts, cache, found, held, capacity, -⟩ | ⟨lost, found⟩
  · have absent : path ∉ (graph s).lostPaths := fun lost =>
      untracked (by simpa [paths] using List.mem_of_mem_filter lost)
    rw [found, sought_of_not_lost absent]
    exact ⟨rfl, rfl⟩
  · rw [found, sought_of_not_lost held]
    simp only [graph_withGraph, Loader.loadAll]
    exact ⟨rfl, capacity⟩
  · rw [found, sought_of_lost lost]
    simp only [Loader.loadAll]
    have asked := h.becomes (orderly path s)
    cases answer : load path s with
    | mk found s' =>
      rw [answer] at asked
      cases found with
      | none => exact ⟨rfl, rfl⟩
      | some facts =>
        simp only [graph_withGraph]
        exact asked.fill_sameButCache path facts

theorem fillMissing_sameButCache (orderly : load.Orderly) (h : Kept (graph s))
    (lost : List String) :
    SameButCache (graph (load.fillMissing lost s).2) (graph (load.loadAll lost s).2) := by
  simp only [Loader.fillMissing, graph_withGraph]
  exact (h.becomes (orderly.loadAll lost s)).foldl_fill_sameButCache _

/-- To read changes what is cached. All else that changes is the loader's doing. -/
theorem read_sameButCache (orderly : load.Orderly) (h : Kept (graph s)) (read : Read) :
    SameButCache (graph (serve load s read.request).2)
      (graph (load.loadAll ((graph s).sought read) s).2) := by
  cases read with
  | file path => exact getFile_sameButCache orderly h path
  | all | snapshot => exact fillMissing_sameButCache orderly h _

/-- **The cache stays within the graph.** After any calls, with any loaders, what is cached is
tracked, and there is no more of it than the capacity allows and than there are files. To read a
file, all files or a snapshot leaves the loader and all but the cache as they were when the loader
had answered; with a loader that only answers, as they were before. -/
theorem cache_stays_within_the_graph {start : Host σ} {capacity : Nat}
    (fresh : graph start.state = .empty capacity) (calls : List (Call σ)) :
    let host := calls.foldl Host.perform start
    let g := graph host.state
    (∀ path ∈ g.cache.keys, path ∈ g.files) ∧
    g.cache.size ≤ g.cache.capacity ∧ g.cache.size ≤ g.files.size ∧
    ∀ read : Read,
      let host' := host.perform (.request read.request)
      host'.provider = host.provider ∧
      SameButCache (graph host'.state) (graph (host.load.loadAll (g.sought read) host.state).2) ∧
      (host.load.Quiet → SameButCache (graph host'.state) g) := by
  intro host g
  have kept : Kept g := Host.Attained.kept ⟨start, capacity, calls, fresh, rfl⟩
  refine ⟨fun path => kept.mem_files_of_mem_keys, kept.cached.size_le_capacity, kept.size_le_files,
    fun read => ?_⟩
  have same := read_sameButCache host.load_orderly kept read
  refine ⟨rfl, same, fun quiet => ?_⟩
  rwa [quiet.loadAll] at same

/-- A loader that takes a file away while it is asked, and answers with facts of another path. They
are kept under the path that was asked for. -/
theorem cache_stays_within_the_graph_meddling :
    let a : FileFacts := { path := "a", moduleField := "m" }
    let b : FileFacts := { path := "b", moduleField := "m" }
    let other : FileFacts := { path := "c", moduleField := "m" }
    let meddler : Provider Graph :=
      ⟨fun _ g => (some other, g.remove "b"), fun _ g => .one g (.edit (.remove "b"))⟩
    let calls : List (Call Graph) :=
      [.request (.edit (.add a)), .request (.edit (.add b)), .request (.setCapacity 0),
        .request (.setCapacity 2), .setLoader (some meddler), .markDirty ["a"],
        .request (.getFile "b"), .request (.getFile "a"), .request .getAllFiles]
    let g := graph (calls.foldl Host.perform { state := .empty 2 }).state
    g.cache.keys = ["a"] ∧ g.cache.peek? "a" = some other ∧ "a" ∈ g.files ∧
      g.cache.size ≤ g.files.size := by
  intro a b other meddler calls g
  have keys : g.cache.keys = ["a"] := by decide +kernel
  have held : g.cache.peek? "a" = some other := by decide +kernel
  have fresh : graph ({ state := .empty 2 } : Host Graph).state = .empty 2 := rfl
  obtain ⟨tracked, -, files, -⟩ := cache_stays_within_the_graph fresh calls
  have listed : "a" ∈ g.cache.keys := keys ▸ List.mem_singleton_self "a"
  exact ⟨keys, held, tracked "a" listed, files⟩

end Graph

end ModuleAtlas
