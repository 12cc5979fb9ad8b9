import ModuleAtlas.Proofs.Recency.Refinement

/-!
# What a cache holds

Which entries a bounded cache has lost depends on its capacity and on all that was asked of it. That
what it still holds is true does not: `Cache.Within` says this, and every operation keeps it. With
room for all entries it loses none: `Cache.Carries`.
-/

namespace ModuleAtlas.Recency

variable {κ ν : Type}

namespace Order

/-- No key is there twice, and there is room for all entries. -/
structure Sound (order : Order κ ν) : Prop where
  distinct : (order.entries.map Prod.fst).Nodup
  room : order.entries.length ≤ order.capacity

variable [DecidableEq κ] {order : Order κ ν} {key : κ} {value : ν} {entry : κ × ν}

theorem mem_of_peek? (found : order.peek? key = some value) : (key, value) ∈ order.entries := by
  obtain ⟨entry, first, rfl⟩ := Option.map_eq_some_iff.mp found
  obtain rfl : entry.1 = key := by simpa using List.find?_some first
  exact List.mem_of_find?_eq_some first

theorem contains_iff : order.contains key = true ↔ ∃ value, (key, value) ∈ order.entries := by
  simp [contains]

theorem Sound.peek?_eq_some_iff (h : order.Sound) :
    order.peek? key = some value ↔ (key, value) ∈ order.entries := by
  refine ⟨mem_of_peek?, fun held => ?_⟩
  obtain ⟨entry, first⟩ : ∃ entry, order.entries.find? (fun entry => entry.1 = key) = some entry :=
    Option.isSome_iff_exists.mp (List.find?_isSome.mpr ⟨_, held, decide_eq_true rfl⟩)
  have same : entry = (key, value) :=
    List.inj_on_of_nodup_map h.distinct (List.mem_of_find?_eq_some first) held
      (by simpa using List.find?_some first)
  rw [peek?, first, same, Option.map_some]

theorem mem_others : entry ∈ order.others key ↔ entry ∈ order.entries ∧ entry.1 ≠ key := by
  simp [others]

theorem mem_of_mem_get? (h : entry ∈ (order.get? key).2.entries) : entry ∈ order.entries := by
  unfold get? at h
  split at h
  · exact h
  · next found =>
    rcases List.mem_cons.mp h with rfl | h
    · exact mem_of_peek? found
    · exact (mem_others.mp h).1

/-- A key that is put has no other value beside the new one, even where there is no room for it. -/
theorem eq_or_mem_of_mem_put (h : entry ∈ (order.put key value).entries) :
    entry = (key, value) ∨ entry ∈ order.entries ∧ entry.1 ≠ key := by
  unfold put at h
  split at h
  · exact (List.mem_cons.mp h).imp_right mem_others.mp
  · next missing =>
    have other : ∀ entry ∈ order.entries, entry.1 ≠ key := fun entry held same =>
      missing (List.any_eq_true.mpr ⟨entry, held, decide_eq_true same⟩)
    split at h
    · exact .inr ⟨h, other entry h⟩
    · refine (List.mem_cons.mp h).imp_right fun h => ?_
      have held := List.mem_of_mem_take h
      exact ⟨held, other entry held⟩

theorem capacity_put : (order.put key value).capacity = order.capacity := by
  unfold put
  split
  · rfl
  · split <;> rfl

/-- Where there is room, a new entry takes the place of none but its own. -/
theorem mem_put_of_room (room : order.contains key = true ∨ order.entries.length < order.capacity) :
    entry ∈ (order.put key value).entries ↔
      entry = (key, value) ∨ entry ∈ order.entries ∧ entry.1 ≠ key := by
  refine ⟨eq_or_mem_of_mem_put, fun h => ?_⟩
  unfold put
  split
  · exact List.mem_cons.mpr (h.imp_right mem_others.mpr)
  · next missing =>
    have short := room.resolve_left missing
    rw [if_neg (by omega), List.take_of_length_le (by omega)]
    exact List.mem_cons.mpr (h.imp_right And.left)

end Order

namespace Cache

variable [Ord κ] [Std.TransOrd κ] {known known' : κ → ν → Prop} {cache : Cache κ ν}

theorem Refines.capacity_eq {order : Order κ ν} (h : Refines cache order) :
    order.capacity = cache.capacity := by
  obtain ⟨cells, -, -, capacity, -⟩ := h
  exact capacity

theorem Refines.sound {order : Order κ ν} (h : Refines cache order) :
    order.Sound := by
  refine ⟨h.keys_nodup, ?_⟩
  obtain ⟨cells, -, entries, capacity, room⟩ := h
  rwa [entries, List.length_map, capacity]

/-- A cache in order, and all that it holds is known. -/
def Within (known : κ → ν → Prop) (cache : Cache κ ν) : Prop :=
  ∃ order, Refines cache order ∧ ∀ entry ∈ order.entries, known entry.1 entry.2

theorem within_empty (known : κ → ν → Prop) (capacity : Nat) :
    Within known (empty capacity : Cache κ ν) :=
  ⟨{ capacity }, refines_empty capacity, by simp⟩

namespace Within

theorem mono (h : Within known cache) (more : ∀ k v, known k v → known' k v) :
    Within known' cache := by
  obtain ⟨order, refines, holds⟩ := h
  exact ⟨order, refines, fun entry h => more _ _ (holds entry h)⟩

theorem setCapacity [Std.LawfulEqOrd κ] (h : Within known cache) (capacity : Nat) :
    Within known (cache.setCapacity capacity) := by
  obtain ⟨order, refines, holds⟩ := h
  obtain ⟨cache', resized, refines'⟩ := refines.trySetCapacity capacity
  rw [Cache.setCapacity, resized, Option.getD_some]
  exact ⟨_, refines', fun entry h => holds entry (List.mem_of_mem_take h)⟩

variable [DecidableEq κ]

theorem peek? (h : Within known cache) {key : κ} {value : ν}
    (found : cache.peek? key = some value) : known key value := by
  obtain ⟨order, refines, holds⟩ := h
  rw [Cache.peek?, refines.tryPeek, Option.getD_some] at found
  exact holds _ (Order.mem_of_peek? found)

theorem of_peek? (h : Within known cache)
    (seen : ∀ key value, cache.peek? key = some value → known' key value) :
    Within known' cache := by
  obtain ⟨order, refines, -⟩ := h
  refine ⟨order, refines, fun entry held => seen _ _ ?_⟩
  rw [Cache.peek?, refines.tryPeek, Option.getD_some]
  exact refines.sound.peek?_eq_some_iff.mpr held

/-- To get is to peek, and the rest is only about the order of the entries. -/
theorem get? (h : Within known cache) (key : κ) :
    (cache.get? key).1 = cache.peek? key ∧ Within known (cache.get? key).2 := by
  obtain ⟨order, refines, holds⟩ := h
  obtain ⟨cache', got, refines'⟩ := refines.tryGet key
  have seen : (order.get? key).1 = order.peek? key := by
    unfold Order.get?
    cases order.peek? key <;> rfl
  rw [Cache.get?, got, Option.getD_some, Cache.peek?, refines.tryPeek, Option.getD_some]
  exact ⟨seen, _, refines', fun entry h => holds entry (Order.mem_of_mem_get? h)⟩

variable [Std.LawfulEqOrd κ]

/-- What is known may change at the key that is put, and only there. -/
theorem put (h : Within known cache) {key : κ} {value : ν} (new : known' key value)
    (others : ∀ k v, k ≠ key → known k v → known' k v) : Within known' (cache.put key value) := by
  obtain ⟨order, refines, holds⟩ := h
  obtain ⟨cache', stored, refines'⟩ := refines.tryPut key value
  rw [Cache.put, stored, Option.getD_some]
  refine ⟨_, refines', fun entry h => ?_⟩
  rcases Order.eq_or_mem_of_mem_put h with rfl | ⟨h, other⟩
  · exact new
  · exact others _ _ other (holds entry h)

theorem evict (h : Within known cache) {key : κ}
    (others : ∀ k v, k ≠ key → known k v → known' k v) : Within known' (cache.evict key).2 := by
  obtain ⟨order, refines, holds⟩ := h
  obtain ⟨cache', evicted, refines'⟩ := refines.tryEvict key
  rw [Cache.evict, evicted, Option.getD_some]
  refine ⟨_, refines', fun entry h => ?_⟩
  obtain ⟨h, other⟩ := Order.mem_others.mp h
  exact others _ _ other (holds entry h)

end Within

/-- A cache in order that holds what is known, and all of it. -/
def Carries (known : κ → ν → Prop) (cache : Cache κ ν) : Prop :=
  ∃ order, Refines cache order ∧ ∀ entry, entry ∈ order.entries ↔ known entry.1 entry.2

theorem carries_empty (nothing : ∀ k v, ¬ known k v) (capacity : Nat) :
    Carries known (empty capacity : Cache κ ν) :=
  ⟨{ capacity }, refines_empty capacity, by simpa using nothing⟩

namespace Carries

theorem setCapacity [Std.LawfulEqOrd κ] (h : Carries known cache) {capacity : Nat}
    (room : cache.size ≤ capacity) : Carries known (cache.setCapacity capacity) := by
  obtain ⟨order, refines, holds⟩ := h
  obtain ⟨cache', resized, refines'⟩ := refines.trySetCapacity capacity
  have whole : (order.setCapacity capacity).entries = order.entries :=
    List.take_of_length_le (refines.size ▸ room)
  rw [Cache.setCapacity, resized, Option.getD_some]
  exact ⟨_, refines', whole ▸ holds⟩

variable [DecidableEq κ]

theorem isSome_peek? (h : Carries known cache) {key : κ} {value : ν} (held : known key value) :
    (cache.peek? key).isSome := by
  obtain ⟨order, refines, holds⟩ := h
  rw [Cache.peek?, refines.tryPeek, Option.getD_some, Order.peek?, Option.isSome_map,
    List.find?_isSome]
  exact ⟨(key, value), (holds _).mpr held, decide_eq_true rfl⟩

variable [Std.LawfulEqOrd κ]

theorem put (h : Carries known cache) {key : κ} {value : ν}
    (room : (∃ old, known key old) ∨ cache.size < cache.capacity)
    (new : ∀ v, known' key v ↔ v = value)
    (others : ∀ k v, k ≠ key → (known' k v ↔ known k v)) :
    Carries known' (cache.put key value) := by
  obtain ⟨order, refines, holds⟩ := h
  have free : order.contains key = true ∨ order.entries.length < order.capacity := by
    rcases room with ⟨old, held⟩ | room
    · exact .inl (List.any_eq_true.mpr ⟨(key, old), (holds _).mpr held, decide_eq_true rfl⟩)
    · exact .inr (by rwa [← refines.size, refines.capacity_eq])
  obtain ⟨cache', stored, refines'⟩ := refines.tryPut key value
  rw [Cache.put, stored, Option.getD_some]
  refine ⟨_, refines', fun entry => ?_⟩
  obtain ⟨k, v⟩ := entry
  rw [Order.mem_put_of_room free, holds]
  by_cases own : k = key
  · subst own
    simp [new]
  · simp [own, others k v own]

theorem evict (h : Carries known cache) {key : κ} (gone : ∀ v, ¬ known' key v)
    (others : ∀ k v, k ≠ key → (known' k v ↔ known k v)) :
    Carries known' (cache.evict key).2 := by
  obtain ⟨order, refines, holds⟩ := h
  obtain ⟨cache', evicted, refines'⟩ := refines.tryEvict key
  rw [Cache.evict, evicted, Option.getD_some]
  refine ⟨_, refines', fun entry => ?_⟩
  obtain ⟨k, v⟩ := entry
  change (k, v) ∈ order.others key ↔ _
  rw [Order.mem_others, holds]
  by_cases own : k = key
  · subst own
    simp [gone]
  · simp [own, others k v own]

end Carries

/-! ## How much is held -/

namespace Within

variable {key : κ} {value : ν}

theorem capacity_put [DecidableEq κ] [Std.LawfulEqOrd κ] (h : Within known cache) :
    (cache.put key value).capacity = cache.capacity := by
  obtain ⟨order, refines, -⟩ := h
  obtain ⟨cache', stored, refines'⟩ := refines.tryPut key value
  rw [Cache.put, stored, Option.getD_some, ← refines'.capacity_eq, ← refines.capacity_eq,
    Order.capacity_put]

theorem capacity_get? [DecidableEq κ] (h : Within known cache) :
    (cache.get? key).2.capacity = cache.capacity := by
  obtain ⟨order, refines, -⟩ := h
  obtain ⟨cache', got, refines'⟩ := refines.tryGet key
  rw [Cache.get?, got, Option.getD_some, ← refines'.capacity_eq, ← refines.capacity_eq, Order.get?]
  split <;> rfl

theorem exists_of_mem_keys (h : Within known cache) (listed : key ∈ cache.keys) :
    ∃ value, known key value := by
  obtain ⟨order, refines, holds⟩ := h
  rw [Cache.keys, refines.tryKeys, Option.getD_some] at listed
  obtain ⟨entry, held, rfl⟩ := List.mem_map.mp listed
  exact ⟨entry.2, holds entry held⟩

variable [Std.LawfulEqOrd κ]

theorem size_le_capacity (h : Within known cache) : cache.size ≤ cache.capacity := by
  obtain ⟨order, refines, -⟩ := h
  obtain ⟨cells, holds, -, -, room⟩ := refines
  rwa [Cache.size, holds.size_eq]

/-- No key is held twice. -/
theorem size_le_length (h : Within known cache) {keys : List κ}
    (inside : ∀ k v, known k v → k ∈ keys) : cache.size ≤ keys.length := by
  obtain ⟨order, refines, holds⟩ := h
  rw [refines.size, ← List.length_map (f := Prod.fst)]
  refine (refines.keys_nodup.subperm ?_).length_le
  intro key listed
  obtain ⟨entry, held, rfl⟩ := List.mem_map.mp listed
  exact inside _ _ (holds entry held)

/-- What was put is there, if anything can be. -/
theorem peek?_put [DecidableEq κ] (h : Within known cache) (room : cache.capacity ≠ 0) :
    (cache.put key value).peek? key = some value := by
  obtain ⟨order, refines, -⟩ := h
  obtain ⟨cache', stored, refines'⟩ := refines.tryPut key value
  rw [Cache.put, stored, Option.getD_some, Cache.peek?, refines'.tryPeek, Option.getD_some,
    Order.put]
  split
  · simp [Order.peek?]
  · rw [if_neg (refines.capacity_eq ▸ room)]
    simp [Order.peek?]

end Within

end Cache

end ModuleAtlas.Recency
