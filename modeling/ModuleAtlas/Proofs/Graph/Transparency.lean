import ModuleAtlas.Proofs.Graph.Loading
import ModuleAtlas.Session

/-!
# The cache does not show

With a loader that knows the files that are tracked, requests are answered from these alone. Which
of them the cache holds at the time depends on its capacity and on all requests before, and makes
no difference.
-/

namespace ModuleAtlas.Graph

open HasGraph

/-- What is asked of a graph that can load its files again. -/
inductive Request where
  | edit (e : Edit)
  | setCapacity (capacity : Nat)
  | getFile (path : String)
  | getAllFiles
  | snapshot

/-- `removed` says whether there was such a file. -/
inductive Reply where
  | done
  | removed (tracked : Bool)
  | file (facts : Option FileFacts)
  | files (files : List FileFacts)
  | snapshot (snapshot : Snapshot)

namespace Request

/-- The history once the request has been served. -/
def after (history : List Edit) : Request → List Edit
  | .edit e => history ++ [e]
  | _ => history

/-- The request, whatever capacity it asks for. -/
def leveled : Request → Request
  | .setCapacity _ => .setCapacity 0
  | request => request

end Request

/-- The history that requests make. -/
def edits (requests : List Request) : List Edit :=
  requests.foldl Request.after []

section
variable {σ : Type} [HasGraph σ]

def serve (load : Loader σ) (s : σ) : Request → Reply × σ
  | .edit (.add facts) => (.done, withGraph s ((graph s).add facts))
  | .edit (.remove path) => (.removed ((graph s).tracks path), withGraph s ((graph s).remove path))
  | .setCapacity capacity => (.done, withGraph s ((graph s).setCacheCapacity capacity))
  | .getFile path =>
    let (facts, s) := load.getFile path s
    (.file facts, s)
  | .getAllFiles =>
    let (files, s) := load.getAllFiles s
    (.files files, s)
  | .snapshot =>
    let (snapshot, s) := load.snapshot s
    (.snapshot snapshot, s)

/-- Requests one after the other. After the requests in `done`, the loader is `load done`. -/
def serveAll (load : List Request → Loader σ) (done : List Request) (s : σ) :
    List Request → List Reply × σ
  | [] => ([], s)
  | request :: requests =>
    let (reply, s) := serve (load done) s request
    let (replies, s) := serveAll load (done ++ [request]) s requests
    (reply :: replies, s)

end

/-- What can be said from the history alone. -/
def reply (history : List Edit) : Request → Reply
  | .edit (.add _) => .done
  | .edit (.remove path) => .removed (path ∈ survivors history)
  | .setCapacity _ => .done
  | .getFile path => .file (survivors history)[path]?
  | .getAllFiles => .files (survivors history).values
  | .snapshot => .snapshot ⟨(replay 0 history).modules, (survivors history).values⟩

def replies (history : List Edit) : List Request → List Reply
  | [] => []
  | request :: requests =>
    reply history request :: replies (request.after history) requests

theorem replies_leveled (history : List Edit) (requests : List Request) :
    replies history (requests.map Request.leveled) = replies history requests := by
  induction requests generalizing history with
  | nil => rfl
  | cons request requests ih =>
    rw [List.map_cons, replies, replies, ih]
    cases request <;> rfl

section
variable {σ : Type} [HasGraph σ] {s : σ} {ready : σ → Prop} {history : List Edit}

open Loader (Serves)

/-- **One request.** -/
theorem serve_serves {load : Loader σ} (answers : load.Answers ready history)
    (h : Serves ready history s) (request : Request) :
    (serve load s request).1 = reply history request ∧
      Serves ready (request.after history) (serve load s request).2 := by
  cases request with
  | edit e =>
    have edited : (serve load s (.edit e)).2 = withGraph s ((graph s).edit e) := by
      cases e <;> rfl
    refine ⟨?_, edited ▸ answers.change h.1 (h.2.edit e)⟩
    cases e with
    | add facts => rfl
    | remove path =>
      have tracked : (graph s).tracks path = decide (path ∈ survivors history) := by
        rw [Bool.eq_iff_iff, h.2.tracks_iff, decide_eq_true_iff]
      exact congrArg Reply.removed tracked
  | setCapacity capacity => exact ⟨rfl, answers.change h.1 (h.2.setCacheCapacity capacity)⟩
  | getFile path =>
    obtain ⟨file, serves⟩ := answers.getFile h path
    exact ⟨congrArg Reply.file file, serves⟩
  | getAllFiles =>
    obtain ⟨files, serves⟩ := answers.getAllFiles h
    exact ⟨congrArg Reply.files files, serves⟩
  | snapshot =>
    obtain ⟨snapshot, serves⟩ := answers.snapshot h
    exact ⟨congrArg Reply.snapshot snapshot, serves⟩

/-- **A run.** -/
theorem serveAll_serves {load : List Request → Loader σ} {done requests : List Request}
    (h : Serves ready (edits done) s)
    (honest : ∀ more, more <+: requests →
      (load (done ++ more)).Answers ready (edits (done ++ more))) :
    (serveAll load done s requests).1 = replies (edits done) requests ∧
      Serves ready (edits (done ++ requests)) (serveAll load done s requests).2 := by
  induction requests generalizing done s with
  | nil =>
    rw [List.append_nil]
    exact ⟨rfl, h⟩
  | cons request requests ih =>
    have grown : request.after (edits done) = edits (done ++ [request]) := by simp [edits]
    have now := honest [] List.nil_prefix
    rw [List.append_nil] at now
    have later : ∀ more, more <+: requests →
        (load (done ++ [request] ++ more)).Answers ready (edits (done ++ [request] ++ more)) := by
      intro more begins
      rw [List.append_assoc, List.singleton_append]
      exact honest (request :: more) (List.cons_prefix_cons.mpr ⟨rfl, begins⟩)
    obtain ⟨first, serves⟩ := serve_serves now h request
    rw [grown] at serves
    obtain ⟨rest, last⟩ := ih serves later
    rw [List.append_assoc, List.singleton_append] at last
    refine ⟨?_, last⟩
    rw [replies, grown, ← first, ← rest]
    rfl

end

/-! ## Sessions with a store -/

theorem mem_edits {e : Edit} {requests : List Request} (listed : e ∈ edits requests) :
    .edit e ∈ requests := by
  have all : ∀ history, e ∈ requests.foldl Request.after history →
      e ∈ history ∨ .edit e ∈ requests := by
    clear listed
    induction requests with
    | nil => exact fun _ => .inl
    | cons request requests ih =>
      intro history listed
      rcases ih _ listed with old | new
      · cases request with
        | edit e' =>
          have here : e ∈ history ∨ e = e' := by simpa [Request.after] using old
          rcases here with older | rfl
          · exact .inl older
          · exact .inr List.mem_cons_self
        | _ => exact .inl old
      · exact .inr (.tail _ new)
  exact (all [] listed).resolve_left List.not_mem_nil

/-- The session asks its store, which has the facts of these files. -/
def Stocked (files : List FileFacts) (s : Session) : Prop :=
  s.source = .store ∧
    ∀ f ∈ files, (s.store.load KeyedHash.hashText f.path).toOption = some (some f)

/-- A session whose store has all that is ever added can load it again. -/
theorem Stocked.answers {files : List FileFacts} {history : List Edit}
    (saved : ∀ f, .add f ∈ history → f ∈ files) :
    Session.ask.Answers (Stocked files) history where
  known s stocked _ path f survives := by
    have own : f.path = path := survivors_filedByPath history path f survives
    have listed : f ∈ files := forall_survivors (p := fun _ f => f ∈ files) saved path f survives
    have found := stocked.2 f listed
    rw [own] at found
    unfold Session.ask
    rw [stocked.1]
    cases loaded : s.store.load KeyedHash.hashText path with
    | error e => simp [loaded, Except.toOption] at found
    | ok answer =>
      rw [loaded] at found
      exact ⟨Option.some.inj found, rfl⟩
  asked s stocked path := by
    unfold Session.ask
    rw [stocked.1]
    cases s.store.load KeyedHash.hashText path <;> exact stocked
  changed s stocked g := stocked

/-- **The cache does not show.** Whatever is asked, with whatever capacities, a file that is tracked
is answered with the facts it was last added with, one that is not with nothing, and all files with
one entry for each path that is tracked, in ascending order. Another run with other capacities, or
with another loader that knows the same, gives the same answers. The loaders need to know only what
is tracked when they are asked, in states that are ready for them. -/
theorem cache_does_not_show {σ : Type} [HasGraph σ] {load : List Request → Loader σ}
    {ready : σ → Prop} {requests : List Request}
    (honest : ∀ done, done <+: requests → (load done).Answers ready (edits done)) {s : σ}
    {capacity : Nat} (start : graph s = .empty capacity) (prepared : ready s) :
    (serveAll load [] s requests).1 = replies [] requests ∧
    (graph (serveAll load [] s requests).2).paths = (survivors (edits requests)).keys ∧
    (survivors (edits requests)).values.map (·.path) = (survivors (edits requests)).keys ∧
    (survivors (edits requests)).keys.Pairwise (· < ·) ∧
    ∀ (σ' : Type) [HasGraph σ'] (load' : List Request → Loader σ') (ready' : σ' → Prop)
      (requests' : List Request),
      (∀ done, done <+: requests' → (load' done).Answers ready' (edits done)) →
      ∀ (s' : σ') (capacity' : Nat), graph s' = .empty capacity' → ready' s' →
      requests'.map Request.leveled = requests.map Request.leveled →
        (serveAll load' [] s' requests').1 = (serveAll load [] s requests).1 := by
  have initial : Loader.Serves ready (edits []) s := ⟨prepared, start ▸ .start capacity⟩
  obtain ⟨answered, -, follows⟩ := serveAll_serves initial honest
  refine ⟨answered, follows.paths, values_paths (survivors_filedByPath _), keys_ascend _, ?_⟩
  intro σ' _ load' ready' requests' honest' s' capacity' start' prepared' alike
  have initial' : Loader.Serves ready' (edits []) s' := ⟨prepared', start' ▸ .start capacity'⟩
  obtain ⟨answered', -⟩ := serveAll_serves initial' honest'
  rw [answered', answered, ← replies_leveled, alike, replies_leveled]

/-- Two files take turns in a cache with room for one, then for none, and one of them changes. With
room for both, the answers are the same. Until the change, a session with both files in its store
answers so too. -/
theorem cache_does_not_show_turns :
    let a : FileFacts := { path := "a", moduleField := "m" }
    let b : FileFacts := { path := "b", moduleField := "m" }
    let changed : FileFacts := { path := "a", moduleField := "n" }
    let requests (capacity : Nat) : List Request :=
      [.edit (.add b), .edit (.add a), .getFile "b", .getAllFiles, .setCapacity capacity,
        .edit (.add changed), .getFile "a", .edit (.remove "b"), .getFile "b", .getAllFiles]
    let load (done : List Request) : Loader Session := fun path s =>
      ((survivors (edits done))[path]?, s)
    let store := [a, b].foldl (fun (store : Store) f =>
      (store.save KeyedHash.hashText f).toOption.getD store) {}
    (serveAll load [] { graph := .empty 1 } (requests 0)).1 =
      [.done, .done, .file (some b), .files [a, b], .done, .done, .file (some changed),
        .removed true, .file none, .files [changed]] ∧
    (serveAll load [] { graph := .empty 2 } (requests 3)).1 =
      (serveAll load [] { graph := .empty 1 } (requests 0)).1 ∧
    (serveAll (fun _ => Session.ask) [] { graph := .empty 1, source := .store, store }
      ((requests 0).take 5)).1 = [.done, .done, .file (some b), .files [a, b], .done] := by
  intro a b changed requests load store
  have honest (capacity : Nat) : ∀ done, done <+: requests capacity →
      (load done).Answers (fun _ => True) (edits done) :=
    fun done _ => ⟨fun _ _ _ _ _ known => ⟨known, rfl⟩, fun _ _ _ => trivial, fun _ _ _ => trivial⟩
  have stocked : Stocked [a, b] { graph := .empty 1, source := .store, store } :=
    ⟨rfl, by decide +kernel⟩
  have kept : ∀ done, done <+: (requests 0).take 5 →
      Session.ask.Answers (Stocked [a, b]) (edits done) := by
    intro done begins
    refine Stocked.answers fun f listed => ?_
    simpa [requests, or_comm] using begins.subset (mem_edits listed)
  obtain ⟨answered, -, -, -, alike⟩ := cache_does_not_show (honest 0)
    (show graph ({ graph := .empty 1 } : Session) = .empty 1 from rfl) trivial
  obtain ⟨read, -⟩ := cache_does_not_show kept rfl stocked
  have found : (survivors [.add b, .add a])["b"]? = some b := by decide +kernel
  have both : (survivors [.add b, .add a]).values = [a, b] := by decide +kernel
  have later : (survivors [.add b, .add a, .add changed])["a"]? = some changed := by decide +kernel
  have known : "b" ∈ survivors [.add b, .add a, .add changed] := by decide +kernel
  have gone : (survivors [.add b, .add a, .add changed, .remove "b"])["b"]? = none := by
    decide +kernel
  have left : (survivors [.add b, .add a, .add changed, .remove "b"]).values = [changed] := by
    decide +kernel
  refine ⟨answered.trans ?_, alike Session load _ _ (honest 3) _ 2 rfl trivial rfl,
    read.trans ?_⟩
  · simp only [requests, replies, reply, Request.after, List.nil_append, List.cons_append, found,
      both, later, known, decide_true, gone, left]
  · simp only [requests, List.take, replies, reply, Request.after, List.nil_append,
      List.cons_append, found, both]

end ModuleAtlas.Graph
