import ModuleAtlas.Proofs.Recency.Contents

/-!
# Caches of two sizes

Two caches of different capacities that are asked the same do not stay in step: the larger one still
finds what the smaller one has lost, and moves it to the front. Yet the entries of the smaller one
stay among those of the larger one, in the same order. For this it matters that the smaller cache is
full as soon as the two differ, so that it never keeps the entry that the larger one has to give up.
-/

namespace ModuleAtlas.Recency

variable {κ ν : Type}

/-- All operations but those that take out a single entry or change the capacity. -/
def Operation.isOrdinary : Operation κ ν → Bool
  | .evict _ | .setCapacity _ => false
  | _ => true

/-- Whether a key was found. -/
def Answer.isHit : Answer κ ν → Bool
  | .value (some _) | .truth true => true
  | _ => false

namespace Order

variable {order small large : Order κ ν} {key : κ} {value : ν}

/-- The entries of the smaller cache are among those of the larger one, in the same order, and as
long as the smaller one is not full it has them all. -/
structure Inside (small large : Order κ ν) : Prop where
  capacity_le : small.capacity ≤ large.capacity
  sublist : small.entries.Sublist large.entries
  full : small.entries = large.entries ∨ small.entries.length = small.capacity

/-- What is left when each cache makes room for one more entry. -/
theorem Inside.take (h : Inside small large) (sound : small.Sound) (sound' : large.Sound) :
    (small.entries.take (small.capacity - 1)).Sublist
      (large.entries.take (large.capacity - 1)) := by
  have room := sound'.room
  have less := h.capacity_le
  rcases Nat.lt_or_ge small.entries.length small.capacity with free | full
  · have same : small.entries = large.entries := h.full.resolve_right (Nat.ne_of_lt free)
    rw [← same]
    exact List.take_sublist_take_left (by omega)
  · have full : small.entries.length = small.capacity := Nat.le_antisymm sound.room full
    -- Both lose their last entry, which is the first one from behind.
    have shorter : small.entries.dropLast.Sublist large.entries.dropLast := by
      simpa using h.sublist.reverse.tail
    rw [← full, ← List.dropLast_eq_take]
    refine shorter.trans ?_
    rw [List.dropLast_eq_take]
    exact List.take_sublist_take_left (by omega)

variable [DecidableEq κ]

/-! ## One cache -/

theorem Sound.length_others (h : order.Sound) (held : (key, value) ∈ order.entries) :
    (order.others key).length + 1 = order.entries.length := by
  have once : order.entries.countP (fun entry => entry.1 = key) = 1 := by
    rw [← List.count_eq_one_of_mem h.distinct (List.mem_map_of_mem held), List.count_eq_countP,
      List.countP_map]
    rfl
  have parts := order.entries.length_eq_countP_add_countP fun entry => entry.1 = key
  rw [once] at parts
  rw [others, ← List.countP_eq_length_filter]
  simpa [Nat.add_comm] using parts.symm

section
variable (missing : order.contains key = false)
include missing

theorem put_of_shut (shut : order.capacity = 0) : order.put key value = order := by
  rw [put, missing, if_neg Bool.false_ne_true, if_pos shut]

theorem put_of_missing (room : order.capacity ≠ 0) :
    order.put key value =
      { order with entries := (key, value) :: order.entries.take (order.capacity - 1) } := by
  rw [put, missing, if_neg Bool.false_ne_true, if_neg room]

end

/-! ## Two caches -/

namespace Inside

theorem others (h : Inside small large) (key : κ) :
    (small.others key).Sublist (large.others key) :=
  h.sublist.filter _

theorem sublist_others (h : Inside small large) (missing : small.contains key = false) :
    small.entries.Sublist (large.others key) := by
  have others := h.others key
  rwa [others_of_absent fun entry held same => ?_] at others
  rw [← Bool.not_eq_true, contains_iff] at missing
  exact missing ⟨entry.2, same ▸ held⟩

/-- What is not in the smaller cache and is in the larger one was lost for want of room. -/
theorem length_eq (h : Inside small large) (missing : small.contains key = false)
    (held : large.contains key = true) : small.entries.length = small.capacity := by
  refine h.full.resolve_left fun same => ?_
  rw [contains, same] at missing
  exact Bool.false_ne_true (missing.symm.trans held)

theorem contains (h : Inside small large) (held : small.contains key = true) :
    large.contains key = true := by
  obtain ⟨value, held⟩ := contains_iff.mp held
  exact contains_iff.mpr ⟨value, h.sublist.subset held⟩

/-- An entry that both have, or both get, goes to the front. -/
theorem moveToFront (h : Inside small large) (sound : small.Sound)
    (held : small.contains key = true) (value : ν) :
    Inside { small with entries := (key, value) :: small.others key }
      { large with entries := (key, value) :: large.others key } where
  capacity_le := h.capacity_le
  sublist := (h.others key).cons_cons _
  full := by
    obtain ⟨old, held⟩ := contains_iff.mp held
    refine h.full.imp (fun same => ?_) fun full => ?_
    · simp only [Order.others, same]
    · rw [List.length_cons, sound.length_others held, full]

theorem put (h : Inside small large) (sound : small.Sound) (sound' : large.Sound) (key : κ)
    (value : ν) : Inside (small.put key value) (large.put key value) := by
  have less := h.capacity_le
  have room := sound.room
  cases held : small.contains key with
  | true =>
    rw [Order.put, if_pos held, Order.put, if_pos (h.contains held)]
    exact h.moveToFront sound held value
  | false =>
    by_cases shut : small.capacity = 0
    · have empty : small.entries = [] := List.eq_nil_of_length_eq_zero (by omega)
      rw [put_of_shut held shut]
      refine ⟨?_, empty ▸ List.nil_sublist _, .inr (by omega)⟩
      rwa [capacity_put]
    rw [put_of_missing held shut]
    cases held' : large.contains key with
    | true =>
      -- The smaller cache gives up its oldest entry, the larger one nothing.
      have full := h.length_eq held held'
      have kept := (List.take_sublist (small.capacity - 1) _).trans (h.sublist_others held)
      rw [Order.put, if_pos held']
      refine ⟨less, kept.cons_cons _, .inr ?_⟩
      simp only [List.length_cons, List.length_take]
      omega
    | false =>
      rw [put_of_missing held' (by omega)]
      refine ⟨less, (h.take sound sound').cons_cons _, ?_⟩
      rcases Nat.lt_or_ge small.entries.length small.capacity with free | full
      · left
        have same : small.entries = large.entries := h.full.resolve_right (Nat.ne_of_lt free)
        rw [List.take_of_length_le (by omega), List.take_of_length_le (by rw [← same]; omega), same]
      · right
        simp only [List.length_cons, List.length_take]
        omega

theorem peek? (h : Inside small large) (sound' : large.Sound)
    (found : small.peek? key = some value) : large.peek? key = some value :=
  sound'.peek?_eq_some_iff.mpr (h.sublist.subset (mem_of_peek? found))

theorem get? (h : Inside small large) (sound : small.Sound) (sound' : large.Sound) (key : κ) :
    Inside (small.get? key).2 (large.get? key).2 := by
  cases found : small.peek? key with
  | some value =>
    have held := contains_iff.mpr ⟨value, mem_of_peek? found⟩
    simp only [Order.get?, found, h.peek? sound' found]
    exact h.moveToFront sound held value
  | none =>
    have held : small.contains key = false := by
      rw [← Bool.not_eq_true, contains_iff]
      rintro ⟨value, held⟩
      rw [sound.peek?_eq_some_iff.mpr held] at found
      cases found
    simp only [Order.get?, found]
    cases found' : large.peek? key with
    | none => exact h
    | some value =>
      -- Found in the larger cache only, and moved there.
      have held' := contains_iff.mpr ⟨value, mem_of_peek? found'⟩
      exact ⟨h.capacity_le, (h.sublist_others held).cons _, .inr (h.length_eq held held')⟩

/-- **One operation.** What it finds in the smaller cache it finds in the larger one. -/
theorem perform (h : Inside small large) (sound : small.Sound) (sound' : large.Sound)
    {operation : Operation κ ν} (ordinary : operation.isOrdinary = true) :
    ((small.perform operation).1.isHit = true →
      (large.perform operation).1 = (small.perform operation).1) ∧
    Inside (small.perform operation).2 (large.perform operation).2 := by
  cases operation with
  | get key =>
    refine ⟨fun hit => ?_, h.get? sound sound' key⟩
    cases found : small.peek? key with
    | none => simp [Order.perform, Order.get?, found, Answer.isHit] at hit
    | some value => simp [Order.perform, Order.get?, found, h.peek? sound' found]
  | peek key =>
    refine ⟨fun hit => ?_, h⟩
    cases found : small.peek? key with
    | none => simp [Order.perform, found, Answer.isHit] at hit
    | some value => simp [Order.perform, found, h.peek? sound' found]
  | contains key =>
    refine ⟨fun hit => ?_, h⟩
    cases held : small.contains key with
    | false => simp [Order.perform, held, Answer.isHit] at hit
    | true => simp [Order.perform, held, h.contains held]
  | put key value => exact ⟨fun _ => rfl, h.put sound sound' key value⟩
  | clear => exact ⟨fun _ => rfl, h.capacity_le, .refl _, .inl rfl⟩
  | evict | setCapacity => cases ordinary
  | keys | size | capacity =>
    refine ⟨fun hit => ?_, h⟩
    cases hit

end Inside

end Order

namespace Cache

variable [Ord κ] [Std.TransOrd κ] {small large : Cache κ ν}

/-- The two caches are lists of which the one is inside the other. -/
def Nested (small large : Cache κ ν) : Prop :=
  ∃ order order', Refines small order ∧ Refines large order' ∧ order.Inside order'

theorem nested_empty {c c' : Nat} (le : c ≤ c') :
    Nested (empty c : Cache κ ν) (empty c' : Cache κ ν) :=
  ⟨{ capacity := c }, { capacity := c' }, refines_empty c, refines_empty c', le, .refl _, .inl rfl⟩

namespace Nested

theorem keys (h : Nested small large) : small.keys.Sublist large.keys := by
  obtain ⟨order, order', refines, refines', inside⟩ := h
  rw [Cache.keys, refines.tryKeys, Cache.keys, refines'.tryKeys]
  exact inside.sublist.map _

variable [DecidableEq κ]

theorem exists_peek? (h : Nested small large) {key : κ} (listed : key ∈ small.keys) :
    ∃ value, small.peek? key = some value ∧ large.peek? key = some value := by
  obtain ⟨order, order', refines, refines', inside⟩ := h
  rw [Cache.keys, refines.tryKeys] at listed
  obtain ⟨⟨_, value⟩, held, rfl⟩ := List.mem_map.mp listed
  have found := refines.sound.peek?_eq_some_iff.mpr held
  rw [Cache.peek?, refines.tryPeek, Cache.peek?, refines'.tryPeek]
  exact ⟨value, found, inside.peek? refines'.sound found⟩

variable [Std.LawfulEqOrd κ]

theorem perform (h : Nested small large) {operation : Operation κ ν}
    (ordinary : operation.isOrdinary = true) :
    ((small.perform operation).1.isHit = true →
      (large.perform operation).1 = (small.perform operation).1) ∧
    Nested (small.perform operation).2 (large.perform operation).2 := by
  obtain ⟨order, order', refines, refines', inside⟩ := h
  obtain ⟨small', performed, after⟩ := refines.tryPerform operation
  obtain ⟨large', performed', after'⟩ := refines'.tryPerform operation
  obtain ⟨hit, inside⟩ := inside.perform refines.sound refines'.sound ordinary
  rw [perform_eq performed, perform_eq performed']
  exact ⟨hit, _, _, after, after', inside⟩

/-- **A run.** -/
theorem run (h : Nested small large) {operations : List (Operation κ ν)}
    (ordinary : ∀ operation ∈ operations, operation.isOrdinary = true) :
    (∀ (i : Nat) answer, (Recency.run Cache.perform small operations).1[i]? = some answer →
      answer.isHit = true → (Recency.run Cache.perform large operations).1[i]? = some answer) ∧
    Nested (Recency.run Cache.perform small operations).2
      (Recency.run Cache.perform large operations).2 := by
  induction operations generalizing small large with
  | nil => exact ⟨by simp [Recency.run], h⟩
  | cons operation operations ih =>
    rw [List.forall_mem_cons] at ordinary
    obtain ⟨hit, next⟩ := h.perform ordinary.1
    obtain ⟨hits, final⟩ := ih next ordinary.2
    refine ⟨fun i answer given found => ?_, final⟩
    cases i with
    | zero =>
      obtain rfl : (small.perform operation).1 = answer := Option.some.inj given
      exact congrArg some (hit found)
    | succ i => exact hits i answer given found

end Nested

end Cache

/-- **A larger cache keeps more.** Let two caches, of which the second has the greater capacity, be
asked the same, in whatever order things are put, got, looked at and cleared. After each step the
keys of the first are a subsequence of those of the second, with the same values. So what the first
finds, now or at any step before, the second finds as well. -/
theorem larger_cache_keeps_more [Ord κ] [Std.TransOrd κ] [Std.LawfulEqOrd κ] [DecidableEq κ]
    {c c' : Nat} (le : c ≤ c') {operations : List (Operation κ ν)}
    (ordinary : ∀ operation ∈ operations, operation.isOrdinary = true) :
    let small := run Cache.perform (.empty c) operations
    let large := run Cache.perform (.empty c') operations
    small.2.keys.Sublist large.2.keys ∧
    (∀ key ∈ small.2.keys, ∃ value, small.2.peek? key = some value ∧
      large.2.peek? key = some value) ∧
    (∀ operation : Operation κ ν, operation.isOrdinary = true →
      (small.2.perform operation).1.isHit = true →
        (large.2.perform operation).1 = (small.2.perform operation).1) ∧
    ∀ (i : Nat) answer, small.1[i]? = some answer → answer.isHit = true →
      large.1[i]? = some answer := by
  intro small large
  obtain ⟨hits, nested⟩ := (Cache.nested_empty le).run ordinary
  exact ⟨nested.keys, fun key => nested.exists_peek?, fun operation ordinary =>
    (nested.perform ordinary).1, hits⟩

/-- The larger cache alone finds `"a"` and moves it to the front, so that it gives up `"b"` and not
`"a"` for `"d"`. -/
theorem larger_cache_keeps_more_parted :
    let operations : List (Operation String Nat) := [.put "a" 1, .put "b" 2, .put "c" 3, .get "a",
      .contains "b", .get "c", .get "a", .put "d" 4]
    let small := run Cache.perform (.empty 2) operations
    let large := run Cache.perform (.empty 3) operations
    small.1 = [.done, .done, .done, .value none, .truth true, .value (some 3), .value none, .done] ∧
    large.1 = [.done, .done, .done, .value (some 1), .truth true, .value (some 3), .value (some 1),
      .done] ∧
    small.2.keys = ["d", "c"] ∧ large.2.keys = ["d", "a", "c"] ∧
    small.2.keys.Sublist large.2.keys ∧
    (small.2.perform (.get "c")).1 = .value (some 3) ∧
    (large.2.perform (.get "c")).1 = (small.2.perform (.get "c")).1 := by
  intro operations small large
  have ordinary : ∀ operation ∈ operations, operation.isOrdinary = true := by decide
  obtain ⟨keys, -, next, -⟩ := larger_cache_keeps_more (show 2 ≤ 3 by decide) ordinary
  have found : (small.2.perform (.get "c")).1 = .value (some 3) := by decide +kernel
  exact ⟨by decide +kernel, by decide +kernel, by decide +kernel, by decide +kernel, keys, found,
    next (.get "c") rfl (by rw [found]; rfl)⟩

end ModuleAtlas.Recency
