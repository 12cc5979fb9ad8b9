import ModuleAtlas.Proofs.Graph.Occupancy
import Mathlib.Data.List.Induction

/-!
# Facts of another path

A loader may answer with facts of another path than it was asked for. When all files are read such
an answer does not count. When one file is read it does: it is returned, and cached under the path
that was asked for, where later readings find it. Nothing else gets facts under another path than
their own, and an edit of the path puts it right.
-/

namespace ModuleAtlas

open Recency (Cache)
open Std (ExtTreeMap)

namespace Graph

variable {g : Graph} {strays strays' : String → Prop}

/-- The path an edit is about. -/
def Edit.path : Edit → String
  | .add facts => facts.path
  | .remove path => path

/-- What is cached under a path is of that path, unless the path is one of the strays. -/
structure Filed (strays : String → Prop) (g : Graph) : Prop where
  kept : Kept g
  cached : g.cache.Within fun path facts => facts.path = path ∨ strays path

namespace Filed

theorem mono (h : Filed strays g) (more : ∀ path, strays path → strays' path) : Filed strays' g :=
  ⟨h.kept, h.cached.mono fun path _ => .imp_right (more path)⟩

/-- After an edit its path is no stray. -/
theorem edit (h : Filed strays g) (e : Edit) :
    Filed (fun path => strays path ∧ path ≠ e.path) (g.edit e) := by
  refine ⟨h.kept.change (.edit e), ?_⟩
  have others : ∀ path (facts : FileFacts), path ≠ e.path → (facts.path = path ∨ strays path) →
      facts.path = path ∨ strays path ∧ path ≠ e.path :=
    fun path facts other => .imp_right fun stray => ⟨stray, other⟩
  cases e with
  | add facts =>
    rw [Graph.edit, add_cache]
    exact h.cached.put (.inl rfl) others
  | remove removed =>
    rw [Graph.edit, remove_cache]
    split
    · exact h.cached.evict others
    · next untracked =>
      refine h.cached.of_peek? fun path facts held => others path facts ?_ (h.cached.peek? held)
      rintro rfl
      exact untracked (tracks_iff.mpr (h.kept.cached.peek? held))

theorem fill (h : Filed strays g) {path : String} {facts : FileFacts}
    (own : facts.path = path ∨ strays path) : Filed strays (g.fill path facts) := by
  refine ⟨h.kept.fill path facts, ?_⟩
  unfold Graph.fill
  split
  · exact h.cached.put own fun _ _ _ => id
  · exact h.cached

end Filed

/-- Only to fill in facts can put them under another path than their own. -/
def Change.IsFiled : Change → Prop
  | .fill path facts => facts.path = path
  | _ => True

/-- **One change.** -/
theorem Filed.change (h : Filed strays g) {c : Change} (filed : c.IsFiled) :
    Filed strays (g.change c) := by
  cases c with
  | edit e => exact (h.edit e).mono fun _ => And.left
  | setCapacity capacity => exact ⟨h.kept.change _, h.cached.setCapacity capacity⟩
  | markDirty | takeDirty => exact ⟨h.kept.change _, h.cached⟩
  | touch path =>
    refine ⟨h.kept.touch path, ?_⟩
    rcases h.kept.lookup_cases path with
      ⟨-, found⟩ | ⟨facts, cache, found, -, -, within⟩ | ⟨-, found⟩
    · exact (congrArg (·.2.cache) found).symm ▸ h.cached
    · exact (congrArg (·.2.cache) found).symm ▸ within _ h.cached
    · exact (congrArg (·.2.cache) found).symm ▸ h.cached
  | fill path facts => exact h.fill (.inl filed)

/-- **Any number of changes.** -/
theorem Filed.foldl_change (h : Filed strays g) {changes : List Change}
    (filed : ∀ c ∈ changes, c.IsFiled) : Filed strays (changes.foldl Graph.change g) := by
  induction changes generalizing g with
  | nil => exact h
  | cons c changes ih =>
    rw [List.forall_mem_cons] at filed
    exact ih (h.change filed.1) filed.2

theorem Kept.peek?_of_lookup (h : Kept g) {path : String} {facts : FileFacts} {g' : Graph}
    (found : g.lookup path = (.cached facts, g')) :
    path ∈ g.files ∧ g.cache.peek? path = some facts := by
  obtain ⟨seen, -⟩ := h.cached.get? path
  unfold lookup at found
  split at found
  · next tracked =>
    split at found
    · next facts' cache got =>
      rw [got] at seen
      cases found
      exact ⟨tracks_iff.mp tracked, seen.symm⟩
    · cases found
  · cases found

end Graph

/-! ## Loaders -/

namespace Loader

open ModuleAtlas.Graph HasGraph

variable {σ : Type} [HasGraph σ] {load : Loader σ} {s : σ} {strays : String → Prop} {path : String}

/-- The loader does with the graph what anyone may do, if anything, but does not itself keep facts
under another path than their own. What it answers is open. -/
def Candid (load : Loader σ) : Prop :=
  ∀ path s, ∃ changes : List Change, (∀ c ∈ changes, c.IsFiled) ∧
    changes.foldl change (graph s) = graph (load path s).2

theorem Quiet.candid (quiet : load.Quiet) : load.Candid :=
  fun path s => ⟨[], by simp, (quiet path s).symm⟩

/-- To read the path is to ask the loader, which answers with facts of another path. -/
def Misleads (load : Loader σ) (path : String) (s : σ) : Prop :=
  path ∈ (graph s).lostPaths ∧ ∃ facts, (load path s).1 = some facts ∧ facts.path ≠ path

namespace Candid

theorem load_filed (candid : load.Candid) (h : Filed strays (graph s)) (path : String) :
    Filed strays (graph (load path s).2) := by
  obtain ⟨changes, filed, same⟩ := candid path s
  exact same ▸ h.foldl_change filed

theorem loadAll_filed (candid : load.Candid) (h : Filed strays (graph s)) (paths : List String) :
    Filed strays (graph (load.loadAll paths s).2) := by
  induction paths generalizing s with
  | nil => exact h
  | cons path paths ih => exact ih (candid.load_filed h path)

/-- **One file.** -/
theorem getFile_filed (candid : load.Candid) (h : Filed strays (graph s)) (path : String) :
    (∀ facts, (load.getFile path s).1 = some facts →
      path ∈ (graph s).files ∧ (facts.path = path ∨ strays path ∨ load.Misleads path s)) ∧
    Filed (fun p => strays p ∨ p = path ∧ load.Misleads path s)
      (graph (load.getFile path s).2) := by
  have before : Filed (fun p => strays p ∨ p = path ∧ load.Misleads path s) (graph s) :=
    h.mono fun _ => .inl
  unfold Loader.getFile
  rcases h.kept.lookup_cases path with
    ⟨untracked, found⟩ | ⟨facts, cache, found, -, -, within⟩ | ⟨lost, found⟩
  · rw [found]
    exact ⟨by simp, before⟩
  · obtain ⟨tracked, held⟩ := h.kept.peek?_of_lookup found
    rw [found]
    simp only [graph_withGraph]
    refine ⟨fun answer same => ?_, before.kept.withCache (within _ before.kept.cached),
      within _ before.cached⟩
    obtain rfl := Option.some.inj same
    exact ⟨tracked, (h.cached.peek? held).imp_right .inl⟩
  · have tracked : path ∈ (graph s).files := by
      simpa [paths] using List.mem_of_mem_filter lost
    have asked := candid.load_filed before path
    rw [found]
    cases answer : load path s with
    | mk loaded s' =>
      rw [answer] at asked
      cases loaded with
      | none => exact ⟨by simp, asked⟩
      | some facts =>
        have own : facts.path = path ∨ load.Misleads path s := by
          by_cases same : facts.path = path
          · exact .inl same
          · exact .inr ⟨lost, facts, by rw [answer], same⟩
        simp only [graph_withGraph]
        refine ⟨fun returned same => ?_,
          asked.fill (own.imp_right fun misled => .inr ⟨rfl, misled⟩)⟩
        obtain rfl := Option.some.inj same
        exact ⟨tracked, own.imp_right .inr⟩

end Candid

theorem getFile_of_lost (h : Kept (graph s)) (lost : path ∈ (graph s).lostPaths) :
    (load.getFile path s).1 = (load path s).1 := by
  unfold Loader.getFile
  rcases h.lookup_cases path with ⟨untracked, -⟩ | ⟨-, -, -, held, -⟩ | ⟨-, found⟩
  · exact absurd (by simpa [paths] using List.mem_of_mem_filter lost) untracked
  · exact absurd lost held
  · rw [found]
    cases answer : load path s with
    | mk loaded s' => cases loaded <;> rfl

omit [HasGraph σ] in
/-- Of what is loaded for several paths, each is of another one of them. -/
theorem loadAll_paths (load : Loader σ) (paths : List String) (s : σ) :
    ((load.loadAll paths s).1.map (·.path)).Sublist paths := by
  induction paths generalizing s with
  | nil => exact .slnil
  | cons path paths ih =>
    simp only [loadAll, List.map_append]
    cases answer : (load path s).1.filter fun facts => facts.path = path with
    | none => simpa using (ih _).cons path
    | some facts =>
      obtain ⟨-, own⟩ := Option.filter_eq_some_iff.mp answer
      obtain rfl : facts.path = path := by simpa using own
      simpa using (ih _).cons_cons facts.path

theorem Candid.fillMissing_filed (candid : load.Candid) (h : Filed strays (graph s))
    (lost : List String) : Filed strays (graph (load.fillMissing lost s).2) := by
  have fills (g : Graph) (loaded : List FileFacts) (filed : Filed strays g) :
      Filed strays (loaded.foldl (fun g facts => g.fill facts.path facts) g) := by
    induction loaded generalizing g with
    | nil => exact filed
    | cons facts loaded ih => exact ih _ (filed.fill (.inl rfl))
  simp only [Loader.fillMissing, graph_withGraph]
  exact fills _ _ (candid.loadAll_filed h lost)

theorem fillMissing_fst (load : Loader σ) (lost : List String) (s : σ) :
    (load.fillMissing lost s).1 =
      sortByPath ((graph s).cachedFiles ++ (load.loadAll lost s).1) :=
  rfl

section
variable {lost : List String} (any : lost.Perm (graph s).lostPaths)
include any

/-- **All files.** -/
theorem mem_fillMissing (h : Filed strays (graph s)) {facts : FileFacts}
    (listed : facts ∈ (load.fillMissing lost s).1) :
    facts.path ∈ (graph s).files ∨
      ∃ path, strays path ∧ (graph s).cache.peek? path = some facts := by
  rw [fillMissing_fst, sortByPath, List.mem_mergeSort, List.mem_append] at listed
  rcases listed with listed | listed
  · obtain ⟨path, tracked, held⟩ := List.mem_filterMap.mp listed
    rcases h.cached.peek? held with rfl | stray
    · exact .inl (by simpa [paths] using tracked)
    · exact .inr ⟨path, stray, held⟩
  · have member := (load.loadAll_paths lost s).subset (List.mem_map_of_mem listed)
    exact .inl (by simpa [paths] using List.mem_of_mem_filter (any.mem_iff.mp member))

theorem fillMissing_ascend (h : Filed (fun _ => False) (graph s)) :
    ((load.fillMissing lost s).1.map (·.path)).Pairwise (· < ·) := by
  have cached : ((graph s).cachedFiles.map (·.path)) =
      (graph s).paths.filter fun path => !((graph s).cache.peek? path).isNone := by
    rw [cachedFiles, List.map_filterMap, ← List.filterMap_eq_filter]
    refine List.filterMap_congr fun path _ => ?_
    cases held : (graph s).cache.peek? path with
    | none => simp [Option.guard, held]
    | some facts => simpa [Option.guard, held] using h.cached.peek? held
  have distinct : ((load.fillMissing lost s).1.map (·.path)).Nodup := by
    have sorted : (load.fillMissing lost s).1.Perm
        ((graph s).cachedFiles ++ (load.loadAll lost s).1) :=
      List.mergeSort_perm _ _
    rw [(sorted.map _).nodup_iff, List.map_append, cached]
    have all : ((graph s).paths.filter (fun path => !((graph s).cache.peek? path).isNone) ++
        lost).Nodup := by
      rw [(any.append_left _).nodup_iff, lostPaths,
        (List.perm_append_comm.trans (List.filter_append_perm _ _)).nodup_iff]
      exact (keys_ascend (graph s).files).imp ne_of_lt
    exact all.sublist ((List.Sublist.refl _).append (load.loadAll_paths lost s))
  have ascending : ((load.fillMissing lost s).1.map (·.path)).Pairwise (· ≤ ·) :=
    List.pairwise_map.mpr (pairwise_sortByPath _)
  exact (ascending.and distinct).imp fun both => lt_of_le_of_ne both.1 both.2

end

end Loader

namespace Graph

open HasGraph

variable {σ : Type} [HasGraph σ]

/-! ## Calls -/

/-- If a loader is set, it is a candid one. -/
def Call.Candid : Call σ → Prop
  | .setLoader (some provider) => provider.load.Candid
  | _ => True

/-- The path was read, the loader answered with facts of another path, and there was no edit of the
path since. -/
def Misled (start : Host σ) (calls : List (Call σ)) (path : String) : Prop :=
  ∃ before after, calls = before ++ .request (.getFile path) :: after ∧
    (before.foldl Host.perform start).load.Misleads path (before.foldl Host.perform start).state ∧
    ∀ e, .request (.edit e) ∈ after → e.path ≠ path

section
variable {start : Host σ} {calls : List (Call σ)} {path : String}

theorem Misled.append (h : Misled start calls path) {call : Call σ}
    (other : ∀ e, call = .request (.edit e) → e.path ≠ path) :
    Misled start (calls ++ [call]) path := by
  obtain ⟨before, after, rfl, misled, unedited⟩ := h
  refine ⟨before, after ++ [call], by simp, misled, fun e listed => ?_⟩
  rcases List.mem_append.mp listed with listed | listed
  · exact unedited e listed
  · exact other e (List.mem_singleton.mp listed).symm

theorem misled_now
    (misled : (calls.foldl Host.perform start).load.Misleads path
      (calls.foldl Host.perform start).state) :
    Misled start (calls ++ [.request (.getFile path)]) path :=
  ⟨calls, [], rfl, misled, by simp⟩

theorem not_misled_of_edit (before : List (Call σ)) (e : Edit) {after : List (Call σ)}
    (unread : .request (.getFile e.path) ∉ after) :
    ¬ Misled start (before ++ .request (.edit e) :: after) e.path := by
  rintro ⟨before', after', same, -, unedited⟩
  rcases List.append_eq_append_iff.mp same with ⟨between, -, rest⟩ | ⟨between, -, rest⟩
  · rcases List.cons_eq_append_iff.mp rest with ⟨rfl, first⟩ | ⟨between, rfl, rfl⟩
    · cases first
    · exact unread (by simp)
  · rcases List.cons_eq_append_iff.mp rest with ⟨rfl, first⟩ | ⟨between, rfl, rfl⟩
    · cases first
    · exact unedited e (by simp) rfl

/-- **One call.** -/
theorem perform_filed {host : Host σ} (same : calls.foldl Host.perform start = host)
    (candid : host.load.Candid) (h : Filed (Misled start calls) (graph host.state))
    (call : Call σ) :
    Filed (Misled start (calls ++ [call])) (graph (host.perform call).state) := by
  have later (quiet : ∀ e, call ≠ .request (.edit e)) (path : String) :
      Misled start calls path → Misled start (calls ++ [call]) path :=
    fun misled => misled.append fun e edit => absurd edit (quiet e)
  cases call with
  | request request =>
    cases request with
    | edit e =>
      have edited : graph (serve host.load host.state (.edit e)).2 = (graph host.state).edit e := by
        cases e <;> exact graph_withGraph _ _
      simp only [Host.perform, edited]
      refine (h.edit e).mono fun path stray => stray.1.append fun e' call => ?_
      cases call
      exact stray.2.symm
    | setCapacity capacity =>
      simp only [Host.perform, serve, graph_withGraph]
      exact (h.change (c := .setCapacity capacity) trivial).mono (later (by simp))
    | getFile path =>
      refine (candid.getFile_filed h path).2.mono fun p stray => ?_
      rcases stray with stray | ⟨rfl, misled⟩
      · exact later (by simp) p stray
      · exact misled_now (same ▸ misled)
    | getAllFiles | snapshot => exact (candid.fillMissing_filed h _).mono (later (by simp))
  | setLoader provider => exact h.mono (later (by simp))
  | markDirty paths =>
    simp only [Host.perform, graph_withGraph]
    exact (h.change (c := .markDirty paths) trivial).mono (later (by simp))
  | takeDirty =>
    simp only [Host.perform, graph_withGraph]
    exact (h.change (c := .takeDirty) trivial).mono (later (by simp))

theorem perform_candid {host : Host σ} {call : Call σ} (candid : host.load.Candid)
    (own : call.Candid) : (host.perform call).load.Candid := by
  cases call with
  | setLoader provider =>
    cases provider with
    | none => exact Loader.Quiet.candid fun _ _ => rfl
    | some provider => exact own
  | request | markDirty | takeDirty => exact candid

/-- **A run of calls.** -/
theorem run_filed {capacity : Nat} (fresh : graph start.state = .empty capacity)
    (own : start.load.Candid) (candid : ∀ call ∈ calls, call.Candid) :
    (calls.foldl Host.perform start).load.Candid ∧
      Filed (Misled start calls) (graph (calls.foldl Host.perform start).state) := by
  induction calls using List.reverseRecOn with
  | nil => exact ⟨own, fresh ▸ ⟨.start capacity, Cache.within_empty _ capacity⟩⟩
  | append_singleton calls call ih =>
    obtain ⟨before, filed⟩ := ih fun call listed => candid call (List.mem_append_left _ listed)
    rw [List.foldl_append, List.foldl_cons, List.foldl_nil]
    exact ⟨perform_candid before (candid call (by simp)), perform_filed rfl before filed call⟩

end

/-- **Facts stray only where the loader misled.** After any calls, with loaders that answer what
they like, the facts that a reading of one file returns are for a tracked path, and of the path asked
for, unless this or an earlier reading of the path got facts of another path from the loader, with no
edit of the path in between. What the loader answers is returned as it is. In a reading of all
files, and in a snapshot, facts are of a tracked path or in the cache under a path with such a
reading. If no path in the cache has had one, the paths of all files are tracked and ascend. -/
theorem facts_stray_only_where_misled {start : Host σ} {capacity : Nat}
    (fresh : graph start.state = .empty capacity) (own : start.load.Candid)
    {calls : List (Call σ)} (candid : ∀ call ∈ calls, call.Candid) :
    let host := calls.foldl Host.perform start
    let g := graph host.state
    let files := (host.load.getAllFiles host.state).1
    (∀ path facts, (host.load.getFile path host.state).1 = some facts → path ∈ g.files ∧
      (facts.path = path ∨ Misled start (calls ++ [.request (.getFile path)]) path)) ∧
    (∀ path ∈ g.lostPaths,
      (host.load.getFile path host.state).1 = (host.load path host.state).1) ∧
    (host.load.snapshot host.state).1.files = files ∧
    (∀ facts ∈ files, facts.path ∈ g.files ∨
      ∃ path, Misled start calls path ∧ g.cache.peek? path = some facts) ∧
    ((∀ path facts, g.cache.peek? path = some facts → ¬ Misled start calls path) →
      (files.map (·.path)).Pairwise (· < ·) ∧ ∀ facts ∈ files, facts.path ∈ g.files) := by
  intro host g files
  obtain ⟨loader, filed⟩ := run_filed fresh own candid
  have listed (facts : FileFacts) (member : facts ∈ files) :
      facts.path ∈ g.files ∨ ∃ path, Misled start calls path ∧ g.cache.peek? path = some facts :=
    Loader.mem_fillMissing (.refl _) filed member
  refine ⟨fun path facts returned => ?_, fun path lost => ?_, rfl, listed, fun clear => ?_⟩
  · obtain ⟨tracked, right | stray | misled⟩ := (loader.getFile_filed filed path).1 facts returned
    · exact ⟨tracked, .inl right⟩
    · exact ⟨tracked, .inr (stray.append (by simp))⟩
    · exact ⟨tracked, .inr (misled_now misled)⟩
  · exact Loader.getFile_of_lost filed.kept lost
  · refine ⟨Loader.fillMissing_ascend (.refl _)
        ⟨filed.kept, filed.cached.of_peek? fun path facts held => ?_⟩,
      fun facts member => (listed facts member).resolve_right ?_⟩
    · exact (filed.cached.peek? held).imp_right (clear path facts held)
    · rintro ⟨path, misled, held⟩
      exact clear path facts held misled

/-! ## A loader that gives the wrong file -/

namespace Mixup

def a : FileFacts := { path := "a", moduleField := "m" }

def b : FileFacts := { path := "b", moduleField := "m" }

/-- Whatever it is asked for, it answers with the facts of `"b"`. -/
def provider : Provider Graph where
  load _ g := (some b, g)
  orderly _ g := .refl g

def start : Host Graph := { state := .empty 4 }

/-- Both files are tracked, and both are lost. -/
def calls : List (Call Graph) :=
  [.request (.edit (.add a)), .request (.edit (.add b)), .request (.setCapacity 0),
    .request (.setCapacity 4), .setLoader (some provider)]

/-- The first file is read, and added once more. -/
def mended : List (Call Graph) :=
  calls ++ [.request (.getFile "a"), .request (.edit (.add a))]

theorem candid : ∀ call ∈ mended, call.Candid := by
  have quiet : provider.load.Candid := Loader.Quiet.candid fun _ _ => rfl
  simpa [mended, calls, Call.Candid] using quiet

theorem not_misled (path : String) : ¬ Misled start mended path := by
  by_cases own : path = "a"
  · subst own
    exact not_misled_of_edit (calls ++ [.request (.getFile "a")]) (.add a) List.not_mem_nil
  · rintro ⟨before, after, same, -⟩
    have read : .request (.getFile path) ∈ mended := same ▸ by simp
    simp [mended, calls, own] at read

end Mixup

theorem facts_stray_only_where_misled_mended :
    let host := Mixup.mended.foldl Host.perform Mixup.start
    let files := (host.load.getAllFiles host.state).1
    (files.map (·.path)).Pairwise (· < ·) ∧
    (∀ facts ∈ files, facts.path ∈ (graph host.state).files) ∧
    "b" ∈ (graph host.state).lostPaths ∧ (host.load.getFile "b" host.state).1 = some Mixup.b := by
  intro host files
  have fresh : graph Mixup.start.state = .empty 4 := rfl
  obtain ⟨-, returned, -, -, ascending⟩ :=
    facts_stray_only_where_misled fresh (Loader.Quiet.candid fun _ _ => rfl) Mixup.candid
  obtain ⟨paths, tracked⟩ := ascending fun path _ _ => Mixup.not_misled path
  have lost : "b" ∈ (graph host.state).lostPaths := by decide +kernel
  exact ⟨paths, tracked, lost, (returned "b" lost).trans rfl⟩

/-- **The facts of a file can be those of another.** The first file is asked for and the second one
is returned. It is then in the cache for both, and the list of all files has it twice. -/
theorem reading_can_return_another_file :
    let host := Mixup.calls.foldl Host.perform Mixup.start
    let later := host.perform (.request (.getFile "a"))
    (host.load.getFile "a" host.state).1 = some Mixup.b ∧ Mixup.b.path ≠ "a" ∧
    (later.load.getAllFiles later.state).1 = [Mixup.b, Mixup.b] := by
  intro host later
  have found : (graph later.state).cachedFiles ++
      (later.load.loadAll (graph later.state).lostPaths later.state).1 = [Mixup.b, Mixup.b] := by
    decide +kernel
  refine ⟨by decide +kernel, by decide, ?_⟩
  rw [Loader.getAllFiles, Loader.fillMissing_fst, found]
  simp [sortByPath, List.mergeSort]

end Graph

end ModuleAtlas
