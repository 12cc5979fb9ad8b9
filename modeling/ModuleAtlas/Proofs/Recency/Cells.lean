import ModuleAtlas.Proofs.Recency.Links
import Mathlib.Data.List.Perm.Subperm

/-!
# What a cache holds

`Holds cache cells` says that a cache keeps the entries of `cells`, each in its slot and the newest
first. The links, the index, the slots and the list of vacant slots all follow from `cells`, and a
change of the cache is a change of that list.
-/

namespace ModuleAtlas.Recency

/-- With a slot taken from the middle, what is left has no other cell there. -/
theorem mem_middle {α : Type} {front back : List (Nat × α)} {i j : Nat} {x y : α}
    (distinct : ((front ++ (i, x) :: back).map Prod.fst).Nodup) :
    (j, y) ∈ front ++ (i, x) :: back ↔ if j = i then y = x else (j, y) ∈ front ++ back := by
  rw [List.map_append, List.map_cons, List.nodup_middle, List.nodup_cons] at distinct
  split
  · next same =>
    subst same
    have absent : (j, y) ∉ front ++ back := by
      intro hmem
      have hmem := List.mem_map_of_mem (f := Prod.fst) hmem
      rw [List.map_append] at hmem
      exact distinct.1 hmem
    simp only [List.mem_append, not_or] at absent
    simp [absent.1, absent.2]
  · next other => simp [other]

namespace Cache

variable {κ ν : Type} [Ord κ] [Std.TransOrd κ] {cache cache' : Cache κ ν}

/-- What a cache looks like that holds the entries `cells`, each with its slot. -/
structure Holds (cache : Cache κ ν) (cells : List (Nat × κ × ν)) : Prop where
  path : cache.Path none (cells.map Prod.fst) none
  distinct : (cells.map Prod.fst).Nodup
  held : ∀ i entry, cache.entryAt i = some entry ↔ (i, entry) ∈ cells
  indexed : ∀ key i, cache.index[key]? = some i ↔ ∃ value, (i, key, value) ∈ cells
  free_nodup : cache.free.Nodup
  vacant : ∀ i, i ∈ cache.free ↔ i < cache.slots.size ∧ cache.entryAt i = none

theorem holds_empty (capacity : Nat) : Holds (empty capacity : Cache κ ν) [] where
  path := ⟨rfl, rfl⟩
  distinct := .nil
  held i entry := by simp [empty, entryAt, slot?]
  indexed key i := by simp [empty]
  free_nodup := .nil
  vacant i := by simp [empty]

/-- One cache is another with a slot put where none was. -/
structure Occupies (cache : Cache κ ν) (i : Nat) (slot : Slot κ ν) (cache' : Cache κ ν) : Prop where
  vacant : cache.entryAt i = none
  slots : ∀ j, cache'.slot? j = if j = i then some slot else cache.slot? j
  capacity : cache'.capacity = cache.capacity
  index : cache'.index = cache.index
  newest : cache'.newest = cache.newest
  oldest : cache'.oldest = cache.oldest
  free_nodup : cache'.free.Nodup
  free : ∀ j, j ∈ cache'.free ↔ j < cache'.slots.size ∧ cache'.entryAt j = none

theorem allocate_spec (free_nodup : cache.free.Nodup)
    (vacant : ∀ i, i ∈ cache.free ↔ i < cache.slots.size ∧ cache.entryAt i = none)
    (slot : Slot κ ν) :
    ∃ i cache', cache.allocate slot = some (i, cache') ∧ Occupies cache i slot cache' := by
  cases free : cache.free with
  | nil =>
    have slots : ∀ j, slot? { cache with slots := cache.slots.push (some slot) } j =
        if j = cache.slots.size then some slot else cache.slot? j := by
      intro j
      unfold slot?
      rw [Array.getElem?_push]
      split <;> rfl
    refine ⟨cache.slots.size, { cache with slots := cache.slots.push (some slot) }, ?_, ?_⟩
    · rw [Cache.allocate, free]
    refine ⟨by simp [entryAt, slot?], slots, rfl, rfl, rfl, rfl, free_nodup, fun j => ?_⟩
    rw [vacant, entryAt, entryAt, slots, Array.size_push]
    split
    · next here => simp [here]
    · next other =>
      have : j < cache.slots.size + 1 ↔ j < cache.slots.size := by omega
      rw [this]
  | cons i rest =>
    obtain ⟨bound, absent⟩ := (vacant i).mp (free ▸ List.mem_cons_self)
    obtain ⟨fresh, nodup⟩ := List.nodup_cons.mp (free ▸ free_nodup)
    refine ⟨i,
      { cache with slots := cache.slots.setIfInBounds i (some slot), free := rest }, ?_, ?_⟩
    · rw [Cache.allocate, free]
      exact if_pos bound
    refine ⟨absent, slot?_set bound (some slot), rfl, rfl, rfl, rfl, nodup, fun j => ?_⟩
    have before := vacant j
    rw [free, List.mem_cons] at before
    have entry := entryAt_set bound (some slot) j
    simp only [entryAt, slot?] at entry before ⊢
    rw [entry, Array.size_setIfInBounds]
    split
    · next here => simp [here, fresh]
    · next other => simpa [other] using before

namespace Holds

variable {cells cells' front back : List (Nat × κ × ν)} {i : Nat} {key : κ} {value : ν}

theorem slot_of_mem (h : Holds cache cells) (hmem : (i, key, value) ∈ cells) :
    ∃ slot, cache.slot? i = some slot ∧ slot.key = key ∧ slot.value = value := by
  obtain ⟨slot, held, entry⟩ := entryAt_eq_some_iff.mp ((h.held i _).mpr hmem)
  exact ⟨slot, held, congrArg Prod.fst entry, congrArg Prod.snd entry⟩

theorem key_inj (h : Holds cache cells) {j : Nat} {other : ν} (first : (i, key, value) ∈ cells)
    (second : (j, key, other) ∈ cells) : i = j ∧ value = other := by
  have found := (h.indexed key i).mpr ⟨value, first⟩
  have found' := (h.indexed key j).mpr ⟨other, second⟩
  obtain rfl : i = j := Option.some.inj (found.symm.trans found')
  have entry := ((h.held i _).mpr first).symm.trans ((h.held i _).mpr second)
  exact ⟨rfl, congrArg Prod.snd (Option.some.inj entry)⟩

/-- Moving links about changes the order of the cells only. -/
theorem reorder (h : Holds cache cells) (same : SameContents cache cache')
    (perm : cells.Perm cells') (path : cache'.Path none (cells'.map Prod.fst) none) :
    Holds cache' cells' where
  path := path
  distinct := (perm.map Prod.fst).nodup_iff.mp h.distinct
  held i entry := by rw [same.entry, h.held, perm.mem_iff]
  indexed key i := by simp only [same.index, h.indexed, perm.mem_iff]
  free_nodup := same.free ▸ h.free_nodup
  vacant i := by rw [same.free, same.size, same.entry, h.vacant]

/-- **Promoting** an entry puts it in front. -/
theorem promote (h : Holds cache (front ++ (i, key, value) :: back)) :
    ∃ cache', cache.promote i = some cache' ∧ cache'.capacity = cache.capacity ∧
      Holds cache' ((i, key, value) :: (front ++ back)) := by
  have path := h.path
  have distinct := h.distinct
  rw [List.map_append, List.map_cons] at path distinct
  obtain ⟨cache', promoted, same, path'⟩ := promote_spec path distinct
  refine ⟨cache', promoted, same.capacity, h.reorder same List.perm_middle ?_⟩
  rwa [List.map_cons, List.map_append]

/-- **Replacing** the value of an entry leaves it where it is. -/
theorem replace (h : Holds cache (front ++ (i, key, value) :: back)) (value' : ν) :
    ∃ cache', (cache.updateSlot i fun slot => { slot with value := value' }) = some cache' ∧
      cache'.capacity = cache.capacity ∧ Holds cache' (front ++ (i, key, value') :: back) := by
  have hmem : (i, key, value) ∈ front ++ (i, key, value) :: back := by simp
  obtain ⟨slot, held, rfl, -⟩ := h.slot_of_mem hmem
  have bound := slot?_lt held
  have places : (front ++ (i, slot.key, value') :: back).map Prod.fst =
      (front ++ (i, slot.key, value) :: back).map Prod.fst := by simp
  have links : ∀ side p, link? { cache with
      slots := cache.slots.setIfInBounds i (some { slot with value := value' }) } side p =
        cache.link? side p := by
    intro side p
    rw [link?_set bound]
    split
    · next same =>
      subst same
      rw [link?, held]
      cases side <;> rfl
    · rfl
  refine ⟨_, updateSlot_eq held _, rfl, ?_⟩
  exact {
    path := places ▸ h.path.congr (fun p _ => links _ p) (fun p _ => links _ p)
    distinct := places ▸ h.distinct
    held := by
      intro j entry
      have before := h.held j entry
      rw [mem_middle h.distinct] at before
      rw [entryAt_set bound, mem_middle (places ▸ h.distinct)]
      split
      · simp [eq_comm]
      · next other => simpa [other] using before
    indexed := by
      intro other j
      rw [h.indexed]
      simp [exists_or]
    free_nodup := h.free_nodup
    vacant := by
      intro j
      rw [h.vacant, entryAt_set bound, Array.size_setIfInBounds]
      split
      · next same => simp [same, entryAt, held]
      · rfl }

theorem place_ne (h : Holds cache (front ++ (i, key, value) :: back)) :
    ∀ cell ∈ front ++ back, cell.1 ≠ i := by
  have distinct := h.distinct
  rw [List.map_append, List.map_cons, List.nodup_middle, ← List.map_append] at distinct
  intro cell hcell same
  exact (List.nodup_cons.mp distinct).1 (List.mem_map.mpr ⟨cell, hcell, same⟩)

/-- No other entry has the same key. -/
theorem key_ne (h : Holds cache (front ++ (i, key, value) :: back)) :
    ∀ cell ∈ front ++ back, cell.2.1 ≠ key := by
  rintro ⟨j, key', value'⟩ hcell rfl
  have here : (i, key', value) ∈ front ++ (i, key', value) :: back := by simp
  have there : (j, key', value') ∈ front ++ (i, key', value) :: back :=
    ((List.sublist_cons_self _ _).append_left front).subset hcell
  exact h.place_ne _ hcell (h.key_inj there here).1

theorem keys_nodup (h : Holds cache cells) : (cells.map fun cell => cell.2.1).Nodup := by
  refine List.Nodup.map_on ?_ (List.Nodup.of_map _ h.distinct)
  rintro ⟨i, key, value⟩ hcell ⟨j, _, value'⟩ hcell' rfl
  obtain ⟨rfl, rfl⟩ := h.key_inj hcell hcell'
  rfl

section
variable [Std.LawfulEqOrd κ]

/-- Vacating a slot that the links pass over. -/
theorem vacate (h : Holds cache (front ++ (i, key, value) :: back))
    (same : SameContents cache cache')
    (path : cache'.Path none ((front ++ back).map Prod.fst) none) :
    Holds (cache'.vacate i key) (front ++ back) := by
  have hmem : (i, key, value) ∈ front ++ (i, key, value) :: back := by simp
  obtain ⟨slot, held, -⟩ := entryAt_eq_some_iff.mp ((same.entry i).trans ((h.held i _).mpr hmem))
  have bound : i < cache'.slots.size := slot?_lt held
  have entries : ∀ j, (cache'.vacate i key).entryAt j = if j = i then none else cache.entryAt j :=
    fun j => (entryAt_set bound none j).trans (by rw [same.entry]; rfl)
  exact {
    path := by
      refine path.of_slots rfl rfl fun j hj => (slot?_set bound none j).trans (if_neg ?_)
      obtain ⟨cell, hcell, rfl⟩ := List.mem_map.mp hj
      exact h.place_ne cell hcell
    distinct := h.distinct.sublist (((List.sublist_cons_self _ _).append_left front).map _)
    held := by
      intro j entry
      have before := h.held j entry
      rw [mem_middle h.distinct] at before
      rw [entries]
      split
      · next here =>
        subst here
        simpa using fun hcell => h.place_ne _ hcell rfl
      · next other => simpa [other] using before
    indexed := by
      intro key' j
      simp only [Cache.vacate, same.index, Std.ExtTreeMap.getElem?_erase]
      split
      · next here =>
        obtain rfl := Std.compare_eq_iff_eq.mp here
        simpa using fun value' hcell => h.key_ne _ hcell rfl
      · next other =>
        have other : key' ≠ key := fun same => other (Std.compare_eq_iff_eq.mpr same.symm)
        rw [h.indexed]
        simp [other]
    free_nodup := by
      refine List.nodup_cons.mpr ⟨fun free => ?_, same.free ▸ h.free_nodup⟩
      rw [same.free, h.vacant, (h.held i _).mpr hmem] at free
      simp at free
    vacant := by
      intro j
      rw [entries]
      simp only [Cache.vacate, Array.size_setIfInBounds, List.mem_cons, same.free, h.vacant,
        same.size]
      split
      · next here => simp [here, same.size ▸ bound]
      · next other => simp [other] }

/-- **Removing** an entry. -/
theorem remove (h : Holds cache (front ++ (i, key, value) :: back)) :
    ∃ cache', cache.removeSlot i = some (value, cache') ∧ cache'.capacity = cache.capacity ∧
      Holds cache' (front ++ back) := by
  have path := h.path
  have distinct := h.distinct
  rw [List.map_append, List.map_cons] at path distinct
  obtain ⟨cache₁, unlinked, same, path₁⟩ := unlink_spec path distinct
  rw [← List.map_append] at path₁
  have hmem : (i, key, value) ∈ front ++ (i, key, value) :: back := by simp
  obtain ⟨slot, held, entry⟩ :=
    entryAt_eq_some_iff.mp ((same.entry i).trans ((h.held i _).mpr hmem))
  obtain ⟨rfl, rfl⟩ := Prod.mk.inj entry
  refine ⟨cache₁.vacate i slot.key, ?_, same.capacity, h.vacate same path₁⟩
  simp only [removeSlot, unlinked, held, Option.bind_eq_bind, Option.bind_some]

theorem size_eq (h : Holds cache cells) : cache.index.size = cells.length := by
  have perm : cache.index.keys.Perm (cells.map fun cell => cell.2.1) := by
    refine (List.perm_ext_iff_of_nodup Std.ExtTreeMap.nodup_keys h.keys_nodup).mpr fun key => ?_
    rw [Std.ExtTreeMap.mem_keys, Std.ExtTreeMap.mem_iff_isSome_getElem?, Option.isSome_iff_exists]
    simp [h.indexed]
  rw [← Std.ExtTreeMap.length_keys, perm.length_eq, List.length_map]

/-- Dropping the oldest entries keeps the newest ones. -/
theorem shrink (h : Holds cache cells) {n fuel : Nat} (enough : cells.length ≤ n + fuel) :
    ∃ cache', cache.shrink n fuel = some cache' ∧ cache'.capacity = cache.capacity ∧
      Holds cache' (cells.take n) := by
  induction fuel generalizing cache cells with
  | zero =>
    have all : cells.take n = cells := List.take_of_length_le enough
    exact ⟨cache, rfl, rfl, all.symm ▸ h⟩
  | succ fuel ih =>
    by_cases fits : cells.length ≤ n
    · refine ⟨cache, ?_, rfl, by rwa [List.take_of_length_le fits]⟩
      rw [Cache.shrink, if_pos (h.size_eq ▸ fits)]
    · obtain ⟨front, ⟨i, key, value⟩, rfl⟩ : ∃ front cell, cells = front ++ [cell] := by
        rcases List.eq_nil_or_concat cells with rfl | ⟨front, cell, rfl⟩
        · simp at fits
        · exact ⟨front, cell, List.concat_eq_append⟩
      have oldest : cache.oldest = some i := by
        rw [h.path.oldest_eq, List.map_append, List.map_singleton, List.getLast?_concat]
      rw [List.length_append, List.length_singleton] at enough fits
      -- one entry less to drop, and one removal less to do it in
      obtain ⟨cache₁, removed, capacity₁, h₁⟩ := h.remove
      rw [List.append_nil] at h₁
      obtain ⟨cache₂, shrunk, capacity₂, h₂⟩ := ih h₁ (by omega)
      refine ⟨cache₂, ?_, capacity₂.trans capacity₁, ?_⟩
      · rw [Cache.shrink, if_neg (by simpa [h.size_eq] using fits), oldest]
        simp only [removed, Option.bind_some, shrunk]
      · rwa [List.take_append_of_le_length (by omega)]

theorem shrinkTo (h : Holds cache cells) (n : Nat) :
    ∃ cache', cache.shrinkTo n = some cache' ∧ cache'.capacity = cache.capacity ∧
      Holds cache' (cells.take n) :=
  h.shrink (by rw [h.size_eq]; omega)

/-- **Inserting** an entry in front, in a slot that was vacant. -/
theorem insert (h : Holds cache cells) (fresh : cache.index[key]? = none) (value : ν) :
    ∃ i cache₁ cache', cache.allocate { key, value, newer := none, older := none } =
        some (i, cache₁) ∧
      pushFront { cache₁ with index := cache₁.index.insert key i } i = some cache' ∧
      cache'.capacity = cache.capacity ∧ Holds cache' ((i, key, value) :: cells) := by
  obtain ⟨i, cache₁, allocated, new⟩ :=
    allocate_spec h.free_nodup h.vacant { key, value, newer := none, older := none }
  have unused : i ∉ cells.map Prod.fst := by
    intro hi
    obtain ⟨⟨_, entry⟩, hcell, rfl⟩ := List.mem_map.mp hi
    have held := (h.held _ _).mpr hcell
    rw [new.vacant] at held
    cases held
  have path : Path { cache₁ with index := cache₁.index.insert key i } none
      (cells.map Prod.fst) none := by
    refine h.path.of_slots new.newest new.oldest fun j hj => (new.slots j).trans (if_neg ?_)
    rintro rfl
    exact unused hj
  obtain ⟨cache', pushed, same, path'⟩ :=
    pushFront_spec path unused h.distinct ((new.slots i).trans (if_pos rfl))
  have entries : ∀ j, cache'.entryAt j = if j = i then some (key, value) else cache.entryAt j := by
    intro j
    refine (same.entry j).trans ((congrArg (Option.map _) (new.slots j)).trans ?_)
    split <;> rfl
  refine ⟨i, cache₁, cache', allocated, pushed, same.capacity.trans new.capacity, ?_⟩
  exact {
    path := path'
    distinct := List.nodup_cons.mpr ⟨unused, h.distinct⟩
    held := by
      intro j entry
      rw [entries, List.mem_cons, ← h.held]
      split
      · next here => simp [here, new.vacant, eq_comm]
      · next other => simp [other]
    indexed := by
      intro key' j
      rw [same.index]
      simp only [new.index, Std.ExtTreeMap.getElem?_insert]
      split
      · next here =>
        obtain rfl := Std.compare_eq_iff_eq.mp here
        have absent : ∀ value', (j, key, value') ∉ cells := by
          intro value' hcell
          rw [(h.indexed key j).mpr ⟨value', hcell⟩] at fresh
          cases fresh
        simp [absent, eq_comm]
      · next other =>
        have other : key' ≠ key := fun same => other (Std.compare_eq_iff_eq.mpr same.symm)
        simp [h.indexed, other]
    free_nodup := same.free ▸ new.free_nodup
    vacant := by
      intro j
      rw [same.free, same.size, same.entry]
      exact new.free j }

end

theorem place_lt (h : Holds cache cells) : ∀ cell ∈ cells, cell.1 < cache.slots.size := by
  intro cell hcell
  obtain ⟨slot, held, -⟩ := h.slot_of_mem hcell
  exact slot?_lt held

theorem length_le (h : Holds cache cells) : cells.length ≤ cache.slots.size := by
  have within : cells.map Prod.fst ⊆ List.range cache.slots.size := by
    intro i hi
    obtain ⟨cell, hcell, rfl⟩ := List.mem_map.mp hi
    exact List.mem_range.mpr (h.place_lt cell hcell)
  have le := (h.distinct.subperm within).length_le
  rwa [List.length_map, List.length_range] at le

end Holds

def cellOf (slot : Nat × Slot κ ν) : Nat × κ × ν :=
  (slot.1, slot.2.key, slot.2.value)

/-- Following the links from the newest slot on gives the cells. -/
theorem follow_spec {start : Option Nat} {cells : List (Nat × κ × ν)} {fuel : Nat}
    (path : cache.Path start (cells.map Prod.fst) none)
    (held : ∀ cell ∈ cells, cache.entryAt cell.1 = some cell.2) (enough : cells.length ≤ fuel) :
    ∃ slots, cache.follow fuel (cells.map Prod.fst).head? = some slots ∧
      slots.map cellOf = cells := by
  induction cells generalizing start fuel with
  | nil => exact ⟨[], by cases fuel <;> rfl, rfl⟩
  | cons cell cells ih =>
    cases fuel with
    | zero => simp at enough
    | succ fuel =>
      rw [List.forall_mem_cons] at held
      obtain ⟨slot, there, entry⟩ := entryAt_eq_some_iff.mp held.1
      have next : slot.older = (cells.map Prod.fst).head? := by
        have after : cache.link? .older (some cell.1) = some slot.older := by rw [link?, there]; rfl
        have next := (path.2.next_joined after).1
        cases cells <;> exact next
      obtain ⟨slots, followed, same⟩ := ih path.2 held.2 (Nat.le_of_succ_le_succ enough)
      refine ⟨(cell.1, slot) :: slots, ?_, ?_⟩
      · rw [← next] at followed
        simp only [List.map_cons, List.head?_cons, follow, there, followed, Option.bind_eq_bind,
          Option.bind_some]
      · rw [List.map_cons, same, cellOf, entry]

theorem Holds.trail {cells : List (Nat × κ × ν)} (h : Holds cache cells) :
    ∃ slots, cache.trail = some slots ∧ slots.map cellOf = cells := by
  have held : ∀ cell ∈ cells, cache.entryAt cell.1 = some cell.2 :=
    fun cell hcell => (h.held cell.1 cell.2).mpr hcell
  obtain ⟨slots, followed, same⟩ := follow_spec h.path held h.length_le
  refine ⟨slots, ?_, same⟩
  rw [Cache.trail, h.path.newest_eq, followed]

end Cache

end ModuleAtlas.Recency
