import ModuleAtlas.Proofs.Blob.Facts
import Mathlib.Data.List.Dedup
import Mathlib.Data.List.Find

/-!
# The store as a map from paths to facts

Paths share a file if they share a hash. What the file holds is then the facts last saved for any
of them, and it counts for the path they were saved for. So a look-up gives what was last saved for
its path, or nothing.
-/

namespace ModuleAtlas.Store

open Std (ExtTreeMap)

/-! ## File names -/

theorem toDigits_sixteen_inj {m n : Nat} (same : Nat.toDigits 16 m = Nat.toDigits 16 n) :
    m = n := by
  induction m using Nat.strongRecOn generalizing n with
  | ind m ih =>
    have digit : ∀ i < 16, ∀ j < 16, i.digitChar = j.digitChar → i = j := by decide
    rw [Nat.toDigits_eq_if (by decide), Nat.toDigits_eq_if (n := n) (by decide)] at same
    -- A number below sixteen has one digit, any other number one more than its sixteenth.
    split at same <;> split at same
    · next hm hn => exact digit m hm n hn (List.singleton_inj.mp same)
    · exact absurd same (by simp [List.singleton_eq_append_iff, Nat.toDigits_ne_nil])
    · exact absurd same (by simp [List.append_eq_singleton_iff, Nat.toDigits_ne_nil])
    · next hm hn =>
      obtain ⟨high, low⟩ := List.append_inj' same rfl
      have high := ih (m / 16) (by omega) high
      have low := digit _ (Nat.mod_lt m (by decide)) _ (Nat.mod_lt n (by decide))
        (List.singleton_inj.mp low)
      omega

/-- Two hashes never have one file name. -/
theorem fileName_injective : Function.Injective fileName := by
  intro key key' same
  have chars := congrArg String.toList same
  simp only [fileName, String.toList_append, String.toList_ofList, List.append_cancel_right_eq,
    List.append_cancel_left_eq] at chars
  exact UInt64.toNat_inj.mp (toDigits_sixteen_inj chars)

/-! ## Runs -/

inductive Request where
  | save (facts : FileFacts)
  | load (path : String)
  | remove (path : String)

inductive Reply where
  | saved
  | loaded (answer : Option FileFacts)
  | removed (existed : Bool)
  deriving DecidableEq

def Request.path : Request → String
  | .save facts => facts.path
  | .load path | .remove path => path

def Request.saved? : Request → Option FileFacts
  | .save facts => some facts
  | .load _ | .remove _ => none

/-- Whether a request leaves something else behind than it found. -/
def Request.writes : Request → Bool
  | .save _ | .remove _ => true
  | .load _ => false

/-- The facts last saved for a path that counts, unless such a path was removed after that. -/
def latest (counts : String → Bool) (history : List Request) : Option FileFacts :=
  (history.reverse.find? fun request => request.writes && counts request.path).bind Request.saved?

section

variable (hash : String → UInt64)

def serve (store : Store) : Request → Except StoreError (Reply × Store)
  | .save facts => (store.save hash facts).map fun store => (.saved, store)
  | .load path => (store.load hash path).map fun answer => (.loaded answer, store)
  | .remove path => (store.remove hash path).map fun (existed, store) => (.removed existed, store)

/-- Requests one after the other, up to the first that fails. -/
def serveAll (store : Store) : List Request → Except StoreError (List Reply × Store)
  | [] => .ok ([], store)
  | request :: requests => do
    let (reply, store) ← store.serve hash request
    let (replies, store) ← serveAll store requests
    return (reply :: replies, store)

/-- The facts last saved for a path since it was last removed. -/
def lastSaved (history : List Request) (path : String) : Option FileFacts :=
  latest (· = path) history

/-- The facts last saved under a hash since something was last removed under it. -/
def lastUnder (history : List Request) (key : UInt64) : Option FileFacts :=
  latest (hash · = key) history

/-- The hashes under which something is there. -/
def presentKeys (history : List Request) : List UInt64 :=
  ((history.map fun request => hash request.path).dedup).filter fun key =>
    (lastUnder hash history key).isSome

/-- What a request is answered after the requests `before`. -/
def Answers (before : List Request) : Request → Reply → Prop
  | .save _, reply => reply = .saved
  | .load path, reply => ∃ answer, reply = .loaded answer ∧
      (answer = none ∨ answer = lastSaved before path) ∧
      ((∀ request ∈ before, hash request.path = hash path → request.path = path) →
        answer = lastSaved before path)
  | .remove path, reply => reply = .removed (decide (hash path ∈ presentKeys hash before))

end

/-! ## The last facts -/

section

variable {counts counts' : String → Bool} {history : List Request} {facts : FileFacts}

theorem Request.saved?_eq_some_iff {request : Request} :
    request.saved? = some facts ↔ request = .save facts := by
  cases request <;> simp [saved?]

theorem latest_concat (request : Request) :
    latest counts (history ++ [request]) =
      if request.writes = true ∧ counts request.path = true then request.saved?
      else latest counts history := by
  rw [latest, List.reverse_append, List.reverse_singleton, List.singleton_append, List.find?_cons]
  cases request.writes <;> cases counts request.path <;> rfl

/-- The last facts were saved, and nothing was written after them. -/
theorem latest_eq_some_iff :
    latest counts history = some facts ↔
      counts facts.path = true ∧ ∃ before after, history = before ++ .save facts :: after ∧
        ∀ request ∈ after, request.writes = true → counts request.path = false := by
  simp only [latest, Option.bind_eq_some_iff, Request.saved?_eq_some_iff, exists_eq_right,
    List.find?_eq_some_iff_append]
  refine and_congr (by simp [Request.writes, Request.path]) ⟨?_, ?_⟩
  · rintro ⟨after, before, split, unwritten⟩
    refine ⟨before.reverse, after.reverse, by simpa using congrArg List.reverse split, ?_⟩
    intro request later writes
    simpa [writes] using unwritten request (by simpa using later)
  · rintro ⟨before, after, rfl, unwritten⟩
    refine ⟨after.reverse, before.reverse, by simp, fun request later => ?_⟩
    have passed := unwritten request (by simpa using later)
    cases writes : request.writes with
    | false => rfl
    | true => simp [passed writes]

theorem mem_of_latest (last : latest counts history = some facts) :
    .save facts ∈ history ∧ counts facts.path = true := by
  obtain ⟨own, before, after, rfl, -⟩ := latest_eq_some_iff.mp last
  exact ⟨by simp, own⟩

/-- Only the paths that are used matter. -/
theorem latest_congr (same : ∀ request ∈ history, counts request.path = counts' request.path) :
    latest counts history = latest counts' history := by
  rw [latest, latest, List.find?_congr fun request used => ?_]
  rw [same request (List.mem_reverse.mp used)]

/-- Facts that are the last for some paths are so for any of them that count their own. -/
theorem latest_of_fewer (fewer : ∀ path, counts' path = true → counts path = true)
    (own : counts' facts.path = true) (last : latest counts history = some facts) :
    latest counts' history = some facts := by
  obtain ⟨-, before, after, split, unwritten⟩ := latest_eq_some_iff.mp last
  refine latest_eq_some_iff.mpr ⟨own, before, after, split, fun request later writes => ?_⟩
  have passed := unwritten request later writes
  cases counted : counts' request.path with
  | false => rfl
  | true => exact absurd (fewer _ counted) (by simp [passed])

end

section

variable {hash : String → UInt64} {history : List Request} {path : String} {key : UInt64}

theorem lastUnder_concat (request : Request) :
    lastUnder hash (history ++ [request]) key =
      if request.writes = true ∧ hash request.path = key then request.saved?
      else lastUnder hash history key := by
  rw [lastUnder, lastUnder, latest_concat]
  simp only [decide_eq_true_eq]

theorem mem_presentKeys_iff :
    key ∈ presentKeys hash history ↔ (lastUnder hash history key).isSome := by
  rw [presentKeys, List.mem_filter, List.mem_dedup]
  refine and_iff_right_of_imp fun some => ?_
  obtain ⟨facts, last⟩ := Option.isSome_iff_exists.mp some
  obtain ⟨saved, same⟩ := mem_of_latest last
  exact List.mem_map.mpr ⟨.save facts, saved, of_decide_eq_true same⟩

/-- What is last under the hash of a path, if it is for this path, is the last for it. -/
theorem lastSaved_of_lastUnder {facts : FileFacts} (own : facts.path = path)
    (last : lastUnder hash history (hash path) = some facts) :
    lastSaved history path = some facts := by
  refine latest_of_fewer (fun other same => ?_) (by simpa using own) last
  simp only [decide_eq_true_eq] at same ⊢
  rw [same]

theorem lastUnder_of_alone
    (alone : ∀ request ∈ history, hash request.path = hash path → request.path = path) :
    lastUnder hash history (hash path) = lastSaved history path := by
  refine latest_congr fun request used => decide_eq_decide.mpr ⟨alone request used, ?_⟩
  intro same
  rw [same]

end

/-! ## The folder -/

/-- The folder is there, and holds under each name what was last saved under its hash. -/
structure Reflects (hash : String → UInt64) (history : List Request) (store : Store) : Prop where
  present : store.present = true
  held : ∀ key, store.holdings[fileName key]? =
    (lastUnder hash history key).map fun facts => .file (Blob.facts.encode facts)
  named : ∀ name ∈ store.holdings, ∃ key, fileName key = name

namespace Reflects

variable {hash : String → UInt64} {history : List Request} {store : Store}

theorem fresh (hash : String → UInt64) : Reflects hash [] {} where
  present := rfl
  held key := by simp [lastUnder, latest]
  named name here := absurd here ExtTreeMap.not_mem_empty

theorem holding? (reflects : Reflects hash history store) (key : UInt64) :
    store.holding? key =
      (lastUnder hash history key).map fun facts => .file (Blob.facts.encode facts) := by
  rw [Store.holding?, if_pos reflects.present, reflects.held]

theorem save (reflects : Reflects hash history store) (facts : FileFacts) :
    ∃ store', store.save hash facts = .ok store' ∧
      Reflects hash (history ++ [.save facts]) store' := by
  refine ⟨{ store with
    holdings := store.holdings.insert (fileName (hash facts.path))
      (.file (Blob.facts.encode facts)) }, ?_, ?_⟩
  · rw [Store.save, writeFile, if_pos reflects.present, reflects.held]
    cases lastUnder hash history (hash facts.path) <;> rfl
  · refine ⟨reflects.present, fun key => ?_, fun name here => ?_⟩
    · rw [lastUnder_concat, ExtTreeMap.getElem?_insert]
      simp only [Request.writes, Request.path, Request.saved?, true_and,
        Std.LawfulEqCmp.compare_eq_iff_eq, fileName_injective.eq_iff]
      split
      · rfl
      · exact reflects.held key
    · rw [ExtTreeMap.mem_insert, Std.LawfulEqCmp.compare_eq_iff_eq] at here
      rcases here with same | here
      · exact ⟨_, same⟩
      · exact reflects.named name here

/-- A path whose file holds facts of its own finds these, and any other finds nothing. -/
theorem load (reflects : Reflects hash history store)
    (sized : ∀ facts, .save facts ∈ history → facts.Sized) (path : String) :
    store.load hash path =
      .ok ((lastUnder hash history (hash path)).filter fun facts => facts.path = path) := by
  rw [Store.load, reflects.holding?]
  cases last : lastUnder hash history (hash path) with
  | none => rfl
  | some facts =>
    have whole := (Blob.facts_delimits facts (sized facts (mem_of_latest last).1)).whole []
    rw [List.append_nil] at whole
    simp only [Option.map_some, whole, Option.filter_some, decide_eq_true_eq]

theorem remove (reflects : Reflects hash history store) (path : String) :
    ∃ store', store.remove hash path =
        .ok (decide (hash path ∈ presentKeys hash history), store') ∧
      Reflects hash (history ++ [.remove path]) store' := by
  have here : hash path ∈ presentKeys hash history ↔
      (lastUnder hash history (hash path)).isSome := mem_presentKeys_iff
  rw [Store.remove, reflects.holding?]
  cases last : lastUnder hash history (hash path) with
  | none =>
    refine ⟨store, by simp [here, last], reflects.present, fun key => ?_, reflects.named⟩
    rw [reflects.held, lastUnder_concat]
    simp only [Request.writes, Request.path, Request.saved?, true_and]
    split
    · next same =>
      subst same
      rw [last]
    · rfl
  | some facts =>
    refine ⟨{ store with holdings := store.holdings.erase (fileName (hash path)) },
      by simp [here, last], reflects.present, fun key => ?_, fun name here => ?_⟩
    · rw [lastUnder_concat, ExtTreeMap.getElem?_erase]
      simp only [Request.writes, Request.path, Request.saved?, true_and,
        Std.LawfulEqCmp.compare_eq_iff_eq, fileName_injective.eq_iff]
      split
      · rfl
      · exact reflects.held key
    · exact reflects.named name (ExtTreeMap.mem_of_mem_erase here)

/-- **One request.** It is answered, and the folder goes on to reflect what was saved. -/
theorem serve (reflects : Reflects hash history store)
    (sized : ∀ facts, .save facts ∈ history → facts.Sized) (request : Request) :
    ∃ reply store', store.serve hash request = .ok (reply, store') ∧
      Answers hash history request reply ∧ Reflects hash (history ++ [request]) store' := by
  cases request with
  | save facts =>
    obtain ⟨store', saved, reflects'⟩ := reflects.save facts
    exact ⟨.saved, store', by rw [Store.serve, saved]; rfl, rfl, reflects'⟩
  | load path =>
    refine ⟨_, store, by rw [Store.serve, reflects.load sized path]; rfl, ⟨_, rfl, ?_, ?_⟩, ?_⟩
    · cases last : lastUnder hash history (hash path) with
      | none => exact .inl rfl
      | some facts =>
        by_cases own : facts.path = path
        · refine .inr ?_
          rw [lastSaved_of_lastUnder own last]
          simp [own]
        · exact .inl (by simp [own])
    · intro alone
      rw [lastUnder_of_alone alone]
      cases last : lastSaved history path with
      | none => rfl
      | some facts =>
        have own : facts.path = path := of_decide_eq_true (mem_of_latest last).2
        simp [own]
    · refine ⟨reflects.present, fun key => ?_, reflects.named⟩
      rw [reflects.held, lastUnder_concat]
      rfl
  | remove path =>
    obtain ⟨store', removed, reflects'⟩ := reflects.remove path
    exact ⟨_, store', by rw [Store.serve, removed]; rfl, rfl, reflects'⟩

/-- **A run.** -/
theorem serveAll (reflects : Reflects hash history store) (requests : List Request)
    (sized : ∀ facts, .save facts ∈ history ++ requests → facts.Sized) :
    ∃ replies store', store.serveAll hash requests = .ok (replies, store') ∧
      replies.length = requests.length ∧
      (∀ (i : Nat) request, requests[i]? = some request → ∃ reply, replies[i]? = some reply ∧
        Answers hash (history ++ requests.take i) request reply) ∧
      Reflects hash (history ++ requests) store' := by
  induction requests generalizing history store with
  | nil => exact ⟨[], store, rfl, rfl, by simp, by simpa using reflects⟩
  | cons request requests ih =>
    have earlier : ∀ facts, .save facts ∈ history → facts.Sized :=
      fun facts saved => sized facts (List.mem_append_left _ saved)
    obtain ⟨reply, store₁, served, answers, reflects₁⟩ := reflects.serve earlier request
    have onward : history ++ request :: requests = history ++ [request] ++ requests := by simp
    rw [onward] at sized ⊢
    obtain ⟨replies, store₂, servedAll, length, answersAll, reflects₂⟩ := ih reflects₁ sized
    refine ⟨reply :: replies, store₂, ?_, by simp [length], ?_, reflects₂⟩
    · rw [Store.serveAll, served]
      simp only [bind, Except.bind, servedAll]
      rfl
    · intro i later found
      cases i with
      | zero =>
        obtain rfl : request = later := by simpa using found
        exact ⟨reply, rfl, by simpa using answers⟩
      | succ i =>
        obtain ⟨reply', held, answers'⟩ := answersAll i later (by simpa using found)
        exact ⟨reply', by simpa using held, by simpa using answers'⟩

/-- There are as many files as hashes with something under them. -/
theorem size (reflects : Reflects hash history store) :
    store.size = (presentKeys hash history).length := by
  have distinct : ((presentKeys hash history).map fileName).Nodup :=
    ((List.nodup_dedup _).filter _).map fileName_injective
  have names : store.holdings.keys.Perm ((presentKeys hash history).map fileName) := by
    apply (List.perm_ext_iff_of_nodup store.holdings.nodup_keys distinct).mpr
    intro name
    rw [ExtTreeMap.mem_keys, List.mem_map]
    have present (key : UInt64) :
        fileName key ∈ store.holdings ↔ key ∈ presentKeys hash history := by
      rw [ExtTreeMap.mem_iff_isSome_getElem?, reflects.held, Option.isSome_map, mem_presentKeys_iff]
    constructor
    · intro here
      obtain ⟨key, rfl⟩ := reflects.named name here
      exact ⟨key, (present key).mp here, rfl⟩
    · rintro ⟨key, here, rfl⟩
      exact (present key).mpr here
  rw [Store.size, if_pos reflects.present, ← ExtTreeMap.length_keys, names.length_eq,
    List.length_map]

end Reflects

/-- **The store is a map.** From a fresh store on no request fails. A look-up gives the facts last
saved for its path since it was last removed, or nothing, and never nothing in their place if no
other path has its hash. A removal says whether something was there under the hash, and the size
counts the hashes with something under them. -/
theorem store_answers_as_map (hash : String → UInt64) (history : List Request)
    (sized : ∀ facts, .save facts ∈ history → facts.Sized) :
    ∃ fresh replies store, create false = .ok fresh ∧
      fresh.serveAll hash history = .ok (replies, store) ∧
      replies.length = history.length ∧
      (∀ (i : Nat) request, history[i]? = some request → ∃ reply, replies[i]? = some reply ∧
        Answers hash (history.take i) request reply) ∧
      store.size = (presentKeys hash history).length := by
  obtain ⟨replies, store, served, length, answers, reflects⟩ :=
    (Reflects.fresh hash).serveAll history (by simpa using sized)
  exact ⟨{}, replies, store, rfl, served, length, by simpa using answers, reflects.size⟩

/-- Two paths share a hash, so the one saved last takes the file of the other, and to remove either
removes it. The third path has a hash of its own. -/
theorem store_answers_as_map_shared :
    let hash : String → UInt64 := fun path => if path = "c" then 0x1f else 0
    let a : FileFacts := { path := "a", localNames := ["x"] }
    let b : FileFacts := { path := "b" }
    let c : FileFacts := { path := "c", language := "go" }
    let history : List Request := [.save c, .save a, .save b, .remove "a",
      .save { c with language := "c" }, .load "a", .remove "b", .load "c", .save a]
    ∃ replies store, ({} : Store).serveAll hash history = .ok (replies, store) ∧
      replies[3]? = some (.removed true) ∧ replies[5]? = some (.loaded none) ∧
      replies[6]? = some (.removed false) ∧
      replies[7]? = some (.loaded (some { c with language := "c" })) ∧ store.size = 2 := by
  intro hash a b c history
  have sized : ∀ facts, .save facts ∈ history → facts.Sized := by
    intro facts saved
    simp only [history, List.mem_cons, Request.save.injEq, reduceCtorEq, List.not_mem_nil, or_false,
      false_or] at saved
    rcases saved with rfl | rfl | rfl | rfl | rfl <;> decide
  obtain ⟨fresh, replies, store, made, served, -, answers, size⟩ :=
    store_answers_as_map hash history sized
  obtain rfl : {} = fresh := Except.ok.inj made
  obtain ⟨_, removed, rfl⟩ := answers 3 _ rfl
  obtain ⟨_, lost, _, rfl, nothing, -⟩ := answers 5 _ rfl
  obtain ⟨_, again, rfl⟩ := answers 6 _ rfl
  obtain ⟨_, loaded, _, rfl, -, alone⟩ := answers 7 _ rfl
  have gone : lastSaved (history.take 5) "a" = none := by decide
  have kept : lastSaved (history.take 7) "c" = some { c with language := "c" } := by decide
  rw [gone, or_self] at nothing
  rw [nothing] at lost
  rw [alone (by decide), kept] at loaded
  exact ⟨replies, store, served, removed.trans (by decide), lost, again.trans (by decide), loaded,
    size.trans (by decide)⟩

end ModuleAtlas.Store
