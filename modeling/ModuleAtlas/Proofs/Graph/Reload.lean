import ModuleAtlas.Proofs.Graph.Occupancy

/-!
# What a reload leaves in the cache

Between the look into the cache and the answer of the loader the graph may be edited. The answer is
kept under each path that was asked for and is still tracked, so it also takes the place of facts
that were added in the meantime.
-/

namespace ModuleAtlas

open Recency (Cache)
open Std (ExtTreeMap)

/-- What the loader says in reply to a reading, and under which path it is to be kept. Of several
files only facts of their own path count. -/
def Loader.answers {σ : Type} [HasGraph σ] (load : Loader σ) (s : σ) :
    Graph.Read → List (String × FileFacts)
  | .file path =>
    if path ∈ (HasGraph.graph s).lostPaths then (load path s).1.toList.map fun f => (path, f)
    else []
  | .all | .snapshot =>
    (load.loadAll (HasGraph.graph s).lostPaths s).1.map fun f => (f.path, f)

namespace Graph

open HasGraph

variable {g : Graph} {path : String} {v : FileFacts}

/-! ## Edits -/

/-- The paths of the table are tracked, and what is cached under them is what the table has. -/
structure Current (facts : Table FileFacts) (g : Graph) : Prop where
  kept : Kept g
  tracked : ∀ path ∈ facts, path ∈ g.files
  cached : g.cache.Within fun path f => ∀ v, facts[path]? = some v → f = v

/-- **One edit.** -/
theorem Current.edit {facts : Table FileFacts} (h : Current facts g) (e : Edit) :
    Current (e.track facts) (g.edit e) := by
  refine ⟨h.kept.change (.edit e), ?_, ?_⟩
  · have derived := h.kept.derived
    intro path known
    cases e with
    | add added =>
      rw [Graph.edit, add_files derived]
      exact ExtTreeMap.mem_insert.mpr ((ExtTreeMap.mem_insert.mp known).imp_right (h.tracked path))
    | remove removed =>
      rw [Graph.edit, remove_files derived]
      exact ExtTreeMap.mem_erase.mpr ((ExtTreeMap.mem_erase.mp known).imp_right (h.tracked path))
  · cases e with
    | add added =>
      rw [Graph.edit, add_cache]
      refine h.cached.put ?_ fun path f other current v => ?_
      · simp [Edit.track]
      · rw [Edit.track, ExtTreeMap.getElem?_insert, if_neg (by simpa using other.symm)]
        exact current v
    | remove removed =>
      have others : ∀ path f, path ≠ removed → (∀ v, facts[path]? = some v → f = v) →
          ∀ v, ((Edit.remove removed).track facts)[path]? = some v → f = v := by
        intro path f other current v
        rw [Edit.track, ExtTreeMap.getElem?_erase, if_neg (by simpa using other.symm)]
        exact current v
      rw [Graph.edit, remove_cache]
      split
      · exact h.cached.evict others
      · refine h.cached.mono fun path f current => ?_
        by_cases own : path = removed
        · simp [own, Edit.track]
        · exact others path f own current

/-- **Any number of edits.** What they added is tracked, and cached as they added it, if it is
cached. -/
theorem Kept.current (h : Kept g) (during : List Edit) :
    Current (survivors during) (during.foldl Graph.edit g) := by
  have run : ∀ (facts : Table FileFacts) (g : Graph), Current facts g →
      Current (during.foldl Edit.track facts) (during.foldl Graph.edit g) := by
    induction during with
    | nil => exact fun _ _ current => current
    | cons e during ih => exact fun facts g current => ih _ _ (current.edit e)
  exact run ∅ g ⟨h, by simp, h.cached.mono (by simp)⟩

/-! ## Fills -/

def fillOne (g : Graph) (answer : String × FileFacts) : Graph :=
  g.fill answer.1 answer.2

theorem fillOne_files (g : Graph) (answer : String × FileFacts) :
    (g.fillOne answer).files = g.files := by
  unfold fillOne fill
  split <;> rfl

/-- What is cached under a path is one of these facts. -/
def Holding (path : String) (allowed : FileFacts → Prop) (g : Graph) : Prop :=
  g.cache.Within fun p f => p = path → allowed f

variable {allowed allowed' : FileFacts → Prop} {answers : List (String × FileFacts)}

theorem Holding.mono (h : Holding path allowed g) (more : ∀ f, allowed f → allowed' f) :
    Holding path allowed' g :=
  Cache.Within.mono h fun _ f held own => more f (held own)

theorem Holding.peek? (h : Holding path allowed g) :
    g.cache.peek? path = none ∨ ∃ f, allowed f ∧ g.cache.peek? path = some f := by
  cases found : g.cache.peek? path with
  | none => exact .inl rfl
  | some f => exact .inr ⟨f, Cache.Within.peek? h found rfl, rfl⟩

/-- Facts kept under other paths make no difference. -/
theorem Holding.foldl_fill (h : Holding path allowed g)
    (others : ∀ answer ∈ answers, answer.1 ≠ path) :
    Holding path allowed (answers.foldl fillOne g) := by
  induction answers generalizing g with
  | nil => exact h
  | cons answer answers ih =>
    rw [List.forall_mem_cons] at others
    refine ih ?_ others.2
    unfold fillOne fill
    split
    · exact Cache.Within.put h (fun own => absurd own others.1) fun _ _ _ => id
    · exact h

/-- Of a path that is tracked and was answered for, only answers stay. -/
theorem Kept.holding_answers (h : Kept g) (tracked : path ∈ g.files)
    (answered : path ∈ answers.map Prod.fst) :
    Holding path (fun f => (path, f) ∈ answers) (answers.foldl fillOne g) := by
  induction answers generalizing g with
  | nil => simp at answered
  | cons answer answers ih =>
    rw [List.foldl_cons]
    by_cases again : path ∈ answers.map Prod.fst
    · refine (ih (h.fill _ _) ?_ again).mono fun f member => .tail _ member
      rwa [← fillOne, fillOne_files]
    · -- The last answer for the path is this one.
      obtain rfl : answer.1 = path := by simpa [again, eq_comm] using answered
      have here : Holding answer.1 (fun f => (answer.1, f) ∈ answer :: answers)
          (g.fillOne answer) := by
        unfold fillOne Graph.fill
        rw [if_pos (tracks_iff.mpr tracked)]
        exact h.cached.put (fun _ => List.mem_cons_self) fun _ _ other _ own => absurd own other
      refine here.foldl_fill fun other member same => again ?_
      exact List.mem_map.mpr ⟨other, member, same⟩

/-! ## Reloads -/

section
variable {σ : Type} [HasGraph σ] {s : σ}

theorem answers_eq_of_mem {load : Loader σ} {f : FileFacts}
    (member : (path, f) ∈ load.answers s (.file path)) :
    load.answers s (.file path) = [(path, f)] := by
  simp only [Loader.answers] at member ⊢
  split at member
  · next lost =>
    obtain ⟨answer, found, same⟩ := List.mem_map.mp member
    obtain rfl : answer = f := congrArg Prod.snd same
    rw [if_pos lost, Option.mem_toList.mp found]
    rfl
  · simp at member

/-- To read is to fill in the answers. With the facts still in the cache there are none, and the
facts count as used. -/
theorem Kept.read_cases (h : Kept (graph s)) (load : Loader σ) (read : Read) :
    graph (serve load s read.request).2 = (load.answers s read).foldl fillOne
      (graph (load.loadAll ((graph s).sought read) s).2) ∨
    load.answers s read = [] ∧ ∀ known,
      (graph (load.loadAll ((graph s).sought read) s).2).cache.Within known →
        (graph (serve load s read.request).2).cache.Within known := by
  cases read with
  | file path =>
    simp only [Read.request, serve, Loader.getFile, Loader.answers]
    rcases h.lookup_cases path with
      ⟨untracked, found⟩ | ⟨facts, cache, found, held, -, within⟩ | ⟨lost, found⟩
    · have absent : path ∉ (graph s).lostPaths := fun lost =>
        untracked (by simpa [paths] using List.mem_of_mem_filter lost)
      rw [found, sought_of_not_lost absent, if_neg absent]
      exact .inl rfl
    · rw [found, sought_of_not_lost held, if_neg held]
      refine .inr ⟨rfl, fun known before => ?_⟩
      rw [graph_withGraph]
      exact within known before
    · rw [found, sought_of_lost lost, if_pos lost]
      refine .inl ?_
      cases answer : load path s with
      | mk found s' =>
        cases found with
        | none => simp [Loader.loadAll, answer]
        | some facts => simp [Loader.loadAll, answer, graph_withGraph, fillOne]
  | all | snapshot =>
    refine .inl ?_
    simp only [Read.request, serve, Loader.snapshot, Loader.getAllFiles, Loader.fillMissing,
      Loader.answers, sought, graph_withGraph, List.foldl_map]
    rfl

end

/-- **A reload prefers the loader.** Let a reading ask the loader, and let the graph be edited until
it has answered. Take a path that was added in the meantime, and neither removed nor added again
since. If the loader was not asked for it or had no answer, the cache then holds the new facts or
nothing. If it had one, the cache holds that answer or nothing, and after the reading of one file
nothing only where the cache has no capacity. -/
theorem reload_prefers_the_loader {σ : Type} [HasGraph σ] {host : Host σ} (h : host.Attained)
    (read : Read) {during : List Edit} {path : String} {v : FileFacts}
    (edited : graph (host.load.loadAll ((graph host.state).sought read) host.state).2 =
      during.foldl edit (graph host.state))
    (added : (survivors during)[path]? = some v) :
    let answers := host.load.answers host.state read
    let cache := (graph (host.perform (.request read.request)).state).cache
    (path ∉ answers.map Prod.fst → cache.peek? path = none ∨ cache.peek? path = some v) ∧
    (path ∈ answers.map Prod.fst →
      cache.peek? path = none ∨ ∃ f, (path, f) ∈ answers ∧ cache.peek? path = some f) ∧
    ∀ f, read = .file path → (path, f) ∈ answers → cache.capacity ≠ 0 →
      cache.peek? path = some f := by
  intro answers cache
  have current := h.kept.current during
  have tracked := current.tracked path (Table.mem_iff_exists.mpr ⟨v, added⟩)
  have before : Holding path (· = v) (during.foldl edit (graph host.state)) :=
    current.cached.mono fun p f held own => held v (own ▸ added)
  have filled := h.kept.read_cases host.load read
  rw [edited] at filled
  refine ⟨fun silent => ?_, fun answered => ?_, fun f single member room => ?_⟩
  · have after : Holding path (· = v) (graph (host.perform (.request read.request)).state) := by
      rcases filled with filled | ⟨-, within⟩
      · have others : ∀ answer ∈ answers, answer.1 ≠ path := fun answer member same =>
          silent (List.mem_map.mpr ⟨answer, member, same⟩)
        exact filled ▸ before.foldl_fill others
      · exact within _ before
    simpa using after.peek?
  · rcases filled with filled | ⟨none, -⟩
    · have after := current.kept.holding_answers tracked answered
      rw [← filled] at after
      exact after.peek?
    · simp [answers, none] at answered
  · subst single
    rcases filled with filled | ⟨none, -⟩
    · rw [answers_eq_of_mem member, List.foldl_cons, List.foldl_nil] at filled
      have stored : cache = (during.foldl edit (graph host.state)).cache.put path f := by
        refine (congrArg Graph.cache filled).trans ?_
        unfold fillOne fill
        rw [if_pos (tracks_iff.mpr tracked)]
      rw [stored] at room ⊢
      rw [current.cached.capacity_put] at room
      exact current.cached.peek?_put room
    · simp [answers, none] at member

/-! ## A reload that runs into an edit -/

namespace Race

def before : FileFacts := { path := "a", moduleField := "m", localNames := ["before"] }

def after : FileFacts := { path := "a", moduleField := "m", localNames := ["after"] }

/-- The old facts are read, and the new ones added before the reader is back. -/
def provider : Provider Graph where
  load _ g := (some before, g.add after)
  orderly _ g := .one g (.edit (.add after))

def calls : List (Call Graph) :=
  [.request (.edit (.add before)), .request (.setCapacity 0), .request (.setCapacity 4),
    .setLoader (some provider)]

def host : Host Graph :=
  calls.foldl Host.perform { state := Graph.empty 4 }

theorem attained : host.Attained :=
  ⟨{ state := Graph.empty 4 }, 4, calls, rfl, rfl⟩

theorem added : (survivors [.add after])["a"]? = some after := by
  simp [survivors, Edit.track, after]

theorem lost : "a" ∈ (graph host.state).lostPaths := by
  decide +kernel

theorem edited : graph (host.load.loadAll ((graph host.state).sought (.file "a")) host.state).2 =
    [Edit.add after].foldl edit (graph host.state) := by
  rw [sought_of_lost lost]
  rfl

theorem answered : ("a", before) ∈ host.load.answers host.state (.file "a") := by
  simp only [Loader.answers]
  rw [if_pos lost]
  exact List.mem_singleton_self _

theorem room :
    (graph (host.perform (.request (.getFile "a"))).state).cache.capacity ≠ 0 := by
  decide +kernel

end Race

theorem reload_prefers_the_loader_race :
    Race.host.Attained ∧ (survivors [.add Race.after])["a"]? = some Race.after ∧
      Race.before ≠ Race.after ∧
      (graph (Race.host.perform (.request (.getFile "a"))).state).cache.peek? "a" =
        some Race.before := by
  obtain ⟨-, -, single⟩ :=
    reload_prefers_the_loader Race.attained (.file "a") Race.edited Race.added
  exact ⟨Race.attained, Race.added, by decide, single Race.before rfl Race.answered Race.room⟩

/-- **A reload can overwrite newer facts.** What was added while the loader was asked need not be
what the cache holds in the end, even if nothing came after. -/
theorem reload_can_overwrite_newer_facts :
    ¬ ∀ (host : Host Graph), host.Attained → ∀ (read : Read) (during : List Edit) (path : String)
      (v : FileFacts),
      graph (host.load.loadAll ((graph host.state).sought read) host.state).2 =
        during.foldl edit (graph host.state) →
      (survivors during)[path]? = some v →
      let cache := (graph (host.perform (.request read.request)).state).cache
      cache.peek? path = none ∨ cache.peek? path = some v := by
  intro newer
  have held : (graph (Race.host.perform (.request (.getFile "a"))).state).cache.peek? "a" =
      some Race.before := by
    decide +kernel
  rcases newer Race.host Race.attained (.file "a") [.add Race.after] "a" Race.after Race.edited
    Race.added with gone | new
  · exact absurd (held.symm.trans gone) (by decide)
  · exact absurd (held.symm.trans new) (by decide)

end Graph

end ModuleAtlas
