import ModuleAtlas.Recency
import Mathlib.Data.List.Nodup

/-!
# Links between slots

The links of a cache form a ring: slots from the newest to the oldest, and the place `none` for both
ends of them. `Path` says that the links lead through a list of slots in both directions. Moving a
slot rewrites the links of its neighbours and keeps all else.
-/

namespace ModuleAtlas.Recency

def Slot.link {κ ν : Type} (slot : Slot κ ν) : Side → Option Nat
  | .newer => slot.newer
  | .older => slot.older

namespace Cache

variable {κ ν : Type} [Ord κ] [Std.TransOrd κ] {cache cache' : Cache κ ν}

/-- The slots are older than the one end and newer than the other. -/
def outermost (cache : Cache κ ν) : Side → Option Nat
  | .newer => cache.oldest
  | .older => cache.newest

/-- What is next to a place on one side. -/
def link? (cache : Cache κ ν) (side : Side) : Option Nat → Option (Option Nat)
  | none => some (cache.outermost side)
  | some i => (cache.slot? i).map (·.link side)

def entryAt (cache : Cache κ ν) (i : Nat) : Option (κ × ν) :=
  (cache.slot? i).map fun slot => (slot.key, slot.value)

/-- Nothing but links differs. -/
structure SameContents (cache cache' : Cache κ ν) : Prop where
  entry : ∀ i, cache'.entryAt i = cache.entryAt i
  index : cache'.index = cache.index
  free : cache'.free = cache.free
  capacity : cache'.capacity = cache.capacity
  size : cache'.slots.size = cache.slots.size

theorem SameContents.refl (cache : Cache κ ν) : SameContents cache cache :=
  ⟨fun _ => rfl, rfl, rfl, rfl, rfl⟩

theorem SameContents.trans {cache'' : Cache κ ν} (first : SameContents cache cache')
    (second : SameContents cache' cache'') : SameContents cache cache'' where
  entry i := (second.entry i).trans (first.entry i)
  index := second.index.trans first.index
  free := second.free.trans first.free
  capacity := second.capacity.trans first.capacity
  size := second.size.trans first.size

theorem slot?_lt {i : Nat} {slot : Slot κ ν} (held : cache.slot? i = some slot) :
    i < cache.slots.size := by
  rcases Nat.lt_or_ge i cache.slots.size with bound | bound
  · exact bound
  · simp [slot?, Array.getElem?_eq_none bound] at held

theorem slot?_set {i : Nat} (bound : i < cache.slots.size) (content : Option (Slot κ ν)) (j : Nat) :
    slot? { cache with slots := cache.slots.setIfInBounds i content } j =
      if j = i then content else cache.slot? j := by
  unfold slot?
  rw [Array.getElem?_setIfInBounds]
  by_cases same : j = i
  · subst same
    simp [bound]
  · simp [same, Ne.symm same]

theorem updateSlot_eq {i : Nat} {slot : Slot κ ν} (held : cache.slot? i = some slot)
    (f : Slot κ ν → Slot κ ν) :
    cache.updateSlot i f =
      some { cache with slots := cache.slots.setIfInBounds i (some (f slot)) } := by
  rw [updateSlot, held, Option.map_some]

theorem entryAt_eq_some_iff {i : Nat} {entry : κ × ν} :
    cache.entryAt i = some entry ↔
      ∃ slot, cache.slot? i = some slot ∧ (slot.key, slot.value) = entry :=
  Option.map_eq_some_iff

theorem entryAt_set {i : Nat} (bound : i < cache.slots.size) (content : Option (Slot κ ν))
    (j : Nat) :
    entryAt { cache with slots := cache.slots.setIfInBounds i content } j =
      if j = i then content.map (fun slot => (slot.key, slot.value)) else cache.entryAt j := by
  rw [entryAt, slot?_set bound]
  split <;> rfl

theorem sameContents_set {i : Nat} {slot slot' : Slot κ ν} (held : cache.slot? i = some slot)
    (key : slot'.key = slot.key) (value : slot'.value = slot.value) :
    SameContents cache { cache with slots := cache.slots.setIfInBounds i (some slot') } where
  entry j := by
    rw [entryAt_set (slot?_lt held)]
    split
    · next same => simp [same, entryAt, held, key, value]
    · rfl
  index := rfl
  free := rfl
  capacity := rfl
  size := Array.size_setIfInBounds

theorem link?_isSome {side : Side} {i : Nat} {target : Option Nat}
    (h : cache.link? side (some i) = some target) : ∃ slot, cache.slot? i = some slot :=
  (Option.map_eq_some_iff.mp h).imp fun _ held => held.1

theorem link?_set {i : Nat} (bound : i < cache.slots.size) (content : Option (Slot κ ν))
    (side : Side) (p : Option Nat) :
    link? { cache with slots := cache.slots.setIfInBounds i content } side p =
      if p = some i then content.map (·.link side) else cache.link? side p := by
  cases p with
  | none => rfl
  | some j =>
    rw [link?, slot?_set bound]
    by_cases same : j = i <;> simp [link?, same]

/-- Writing a link changes that link and no other. -/
theorem setLink_spec {side : Side} {place : Option Nat} (target : Option Nat)
    (there : ∃ next, cache.link? side place = some next) :
    ∃ cache', cache.setLink side place target = some cache' ∧ SameContents cache cache' ∧
      ∀ other p, cache'.link? other p =
        if other = side ∧ p = place then some target else cache.link? other p := by
  cases place with
  | none =>
    cases side
    · refine ⟨{ cache with oldest := target }, rfl, ⟨fun _ => rfl, rfl, rfl, rfl, rfl⟩, ?_⟩
      rintro (_ | _) (_ | j) <;> rfl
    · refine ⟨{ cache with newest := target }, rfl, ⟨fun _ => rfl, rfl, rfl, rfl, rfl⟩, ?_⟩
      rintro (_ | _) (_ | j) <;> rfl
  | some i =>
    obtain ⟨_, there⟩ := there
    obtain ⟨slot, held⟩ := link?_isSome there
    cases side
    all_goals
      refine ⟨_, updateSlot_eq held _, sameContents_set held rfl rfl, ?_⟩
      intro other p
      rw [link?_set (slot?_lt held)]
      by_cases same : p = some i
      · cases other <;> simp [same, link?, held, Slot.link]
      · simp [same]

/-- Two places next to each other, by the links of both. -/
def Joined (cache : Cache κ ν) (newer older : Option Nat) : Prop :=
  cache.link? .older newer = some older ∧ cache.link? .newer older = some newer

/-- The links lead from one place through some slots to another place, and back. -/
def Path (cache : Cache κ ν) (start : Option Nat) : List Nat → Option Nat → Prop
  | [], finish => cache.Joined start finish
  | i :: rest, finish => cache.Joined start (some i) ∧ cache.Path (some i) rest finish

theorem path_append {start finish : Option Nat} {front back : List Nat} {i : Nat} :
    cache.Path start (front ++ i :: back) finish ↔
      cache.Path start front (some i) ∧ cache.Path (some i) back finish := by
  induction front generalizing start with
  | nil => rfl
  | cons j front ih => simp only [List.cons_append, Path, ih, and_assoc]

section
variable {start finish : Option Nat} {places : List Nat}

theorem Path.congr (h : cache.Path start places finish)
    (older : ∀ p ∈ start :: places.map some, cache'.link? .older p = cache.link? .older p)
    (newer : ∀ p ∈ places.map some ++ [finish], cache'.link? .newer p = cache.link? .newer p) :
    cache'.Path start places finish := by
  induction places generalizing start with
  | nil =>
    exact ⟨(older _ List.mem_cons_self).trans h.1, (newer _ List.mem_cons_self).trans h.2⟩
  | cons i rest ih =>
    obtain ⟨⟨forth, back⟩, h⟩ := h
    refine ⟨⟨(older _ List.mem_cons_self).trans forth, (newer _ List.mem_cons_self).trans back⟩, ?_⟩
    exact ih h (fun p hp => older p (List.mem_cons_of_mem _ hp))
      (fun p hp => newer p (List.mem_cons_of_mem _ hp))

/-- The place before the end of a path is its start or one of its slots. -/
theorem Path.last_joined {last : Option Nat} (h : cache.Path start places finish)
    (before : cache.link? .newer finish = some last) :
    last ∈ start :: places.map some ∧ cache.link? .older last = some finish := by
  induction places generalizing start with
  | nil =>
    obtain rfl : start = last := Option.some.inj (h.2.symm.trans before)
    exact ⟨List.mem_cons_self, h.1⟩
  | cons i rest ih =>
    obtain ⟨hmem, joined⟩ := ih h.2
    exact ⟨List.mem_cons_of_mem _ hmem, joined⟩

/-- A path that is made to end somewhere else. -/
theorem Path.redirect {last finish' : Option Nat} (h : cache.Path start places finish)
    (before : cache.link? .newer finish = some last) (distinct : (start :: places.map some).Nodup)
    (joined : cache'.Joined last finish')
    (older : ∀ p, p ≠ last → cache'.link? .older p = cache.link? .older p)
    (newer : ∀ i ∈ places, cache'.link? .newer (some i) = cache.link? .newer (some i)) :
    cache'.Path start places finish' := by
  induction places generalizing start with
  | nil =>
    obtain rfl : start = last := Option.some.inj (h.2.symm.trans before)
    exact joined
  | cons i rest ih =>
    obtain ⟨⟨forth, back⟩, h⟩ := h
    rw [List.map_cons, List.nodup_cons] at distinct
    have ahead : start ≠ last := fun same => distinct.1 (same ▸ (h.last_joined before).1)
    refine ⟨⟨(older start ahead).trans forth, (newer i List.mem_cons_self).trans back⟩, ?_⟩
    exact ih h distinct.2 fun j hj => newer j (List.mem_cons_of_mem _ hj)

end

section
variable {places front back : List Nat} {i : Nat}

theorem Path.newest_eq (h : cache.Path none places none) : cache.newest = places.head? := by
  cases places with
  | nil => exact Option.some.inj h.1
  | cons i rest => exact Option.some.inj h.1.1

theorem Path.oldest_eq (h : cache.Path none places none) : cache.oldest = places.getLast? := by
  rcases List.eq_nil_or_concat places with rfl | ⟨front, i, rfl⟩
  · exact Option.some.inj h.2
  · rw [List.concat_eq_append] at h ⊢
    rw [List.getLast?_concat]
    exact Option.some.inj (path_append.mp h).2.2

/-- A path does not depend on slots that it does not lead through. -/
theorem Path.of_slots (h : cache.Path none places none) (newest : cache'.newest = cache.newest)
    (oldest : cache'.oldest = cache.oldest)
    (slots : ∀ i ∈ places, cache'.slot? i = cache.slot? i) : cache'.Path none places none := by
  have kept : ∀ side, ∀ p ∈ none :: places.map some, cache'.link? side p = cache.link? side p := by
    rintro side p hp
    rcases List.mem_cons.mp hp with rfl | hp
    · cases side <;> simp [link?, outermost, newest, oldest]
    · obtain ⟨i, hi, rfl⟩ := List.mem_map.mp hp
      simp [link?, slots i hi]
  refine h.congr (kept .older) fun p hp => kept .newer p ?_
  simpa [or_comm] using hp

theorem Path.held (h : cache.Path none places none) (hi : i ∈ places) :
    ∃ slot, cache.slot? i = some slot := by
  obtain ⟨front, back, rfl⟩ := List.append_of_mem hi
  cases back with
  | nil => exact link?_isSome (path_append.mp h).2.1
  | cons j back => exact link?_isSome (path_append.mp h).2.1.1

theorem Path.next_joined {next finish : Option Nat} (h : cache.Path (some i) back finish)
    (after : cache.link? .older (some i) = some next) :
    next = (back.head?.map some).getD finish ∧ cache.link? .newer next = some (some i) := by
  cases back with
  | nil =>
    obtain rfl : finish = next := Option.some.inj (h.1.symm.trans after)
    exact ⟨rfl, h.2⟩
  | cons j rest =>
    obtain rfl : some j = next := Option.some.inj (h.1.1.symm.trans after)
    exact ⟨rfl, h.1.2⟩

/-- No link of a slot on the path leads to a vacant slot. -/
theorem Path.neighbour_held {slot : Slot κ ν} {side : Side} {j : Nat}
    (h : cache.Path none places none) (hi : i ∈ places) (held : cache.slot? i = some slot)
    (link : slot.link side = some j) : ∃ other, cache.slot? j = some other := by
  obtain ⟨front, back, rfl⟩ := List.append_of_mem hi
  obtain ⟨left, right⟩ := path_append.mp h
  have linked : cache.link? side (some i) = some (some j) := by
    rw [link?, held, Option.map_some, link]
  cases side with
  | newer => exact link?_isSome (left.last_joined linked).2
  | older => exact link?_isSome (right.next_joined linked).2

/-- Links that pass over one slot, and are as before otherwise. -/
theorem Path.skip {last next : Option Nat} (path : cache.Path none (front ++ i :: back) none)
    (distinct : (front ++ i :: back).Nodup)
    (before : cache.link? .newer (some i) = some last)
    (after : cache.link? .older (some i) = some next)
    (older : ∀ p, cache'.link? .older p = if p = last then some next else cache.link? .older p)
    (newer : ∀ p, cache'.link? .newer p = if p = next then some last else cache.link? .newer p) :
    cache'.Path none (front ++ back) none := by
  obtain ⟨left, right⟩ := path_append.mp path
  obtain ⟨distinct_front, distinct_back, apart⟩ := List.nodup_append.mp distinct
  have last_mem : last ∈ none :: front.map some := (left.last_joined before).1
  have next_eq := (right.next_joined after).1
  have joined : cache'.Joined last next :=
    ⟨by rw [older, if_pos rfl], by rw [newer, if_pos rfl]⟩
  have next_ne : ∀ j ∈ front, some j ≠ next := by
    intro j hj same
    cases back with
    | nil => simp [next_eq] at same
    | cons k rest =>
      obtain rfl : j = k := by simpa [next_eq] using same
      exact apart j hj j (by simp) rfl
  -- the part in front now ends at what came after the slot
  have left' : cache'.Path none front next := by
    have distinct' : (none :: front.map some).Nodup := by
      simpa using distinct_front.map fun _ _ => Option.some.inj
    refine left.redirect before distinct' joined ?_ ?_
    · exact fun p hp => by rw [older, if_neg hp]
    · exact fun j hj => by rw [newer, if_neg (next_ne j hj)]
  cases back with
  | nil =>
    obtain rfl : next = none := next_eq
    rwa [List.append_nil]
  | cons j rest =>
    obtain rfl : next = some j := next_eq
    refine path_append.mpr ⟨left', right.2.congr ?_ ?_⟩
    · intro p hp
      rw [older, if_neg]
      rintro rfl
      obtain ⟨k, hk, rfl⟩ : ∃ k ∈ j :: rest, some k = p := List.mem_map.mp hp
      have hk' : k ∈ front := by simpa using last_mem
      exact apart k hk' k (List.mem_cons_of_mem i hk) rfl
    · intro p hp
      rw [newer, if_neg]
      rintro rfl
      have again : j ∈ rest := by simpa using hp
      exact (List.nodup_cons.mp (List.nodup_cons.mp distinct_back).2).1 again

/-- A slot in the middle of the links can be taken out of them. -/
theorem unlink_spec (path : cache.Path none (front ++ i :: back) none)
    (distinct : (front ++ i :: back).Nodup) :
    ∃ cache', cache.unlink i = some cache' ∧ SameContents cache cache' ∧
      cache'.Path none (front ++ back) none := by
  obtain ⟨slot, held⟩ := path.held (List.mem_append_right front List.mem_cons_self)
  have before : cache.link? .newer (some i) = some slot.newer := by rw [link?, held]; rfl
  have after : cache.link? .older (some i) = some slot.older := by rw [link?, held]; rfl
  obtain ⟨left, right⟩ := path_append.mp path
  obtain ⟨cache₁, wrote₁, same₁, links₁⟩ :=
    setLink_spec slot.older ⟨_, (left.last_joined before).2⟩
  have there : cache₁.link? .newer slot.older = some (some i) := by
    rw [links₁, if_neg (by simp)]
    exact (right.next_joined after).2
  obtain ⟨cache₂, wrote₂, same₂, links₂⟩ := setLink_spec slot.newer ⟨_, there⟩
  refine ⟨cache₂, ?_, same₁.trans same₂, path.skip distinct before after ?_ ?_⟩
  · simp only [unlink, held, Option.bind_eq_bind, Option.bind_some, wrote₁, wrote₂]
  · intro p
    rw [links₂, if_neg (by simp), links₁]
    simp
  · intro p
    rw [links₂, links₁]
    simp

/-- Setting both links of a slot. -/
theorem updateSlot_links {slot : Slot κ ν} (held : cache.slot? i = some slot)
    (newer older : Option Nat) :
    ∃ cache', (cache.updateSlot i fun slot => { slot with newer, older }) = some cache' ∧
      SameContents cache cache' ∧ cache'.link? .newer (some i) = some newer ∧
      cache'.link? .older (some i) = some older ∧
      ∀ side p, p ≠ some i → cache'.link? side p = cache.link? side p := by
  have links := link?_set (slot?_lt held) (some { slot with newer, older })
  refine ⟨_, updateSlot_eq held _, sameContents_set held rfl rfl, ?_, ?_, ?_⟩
  · rw [links, if_pos rfl]
    rfl
  · rw [links, if_pos rfl]
    rfl
  · intro side p other
    rw [links, if_neg other]

theorem pushFront_first {slot : Slot κ ν} (path : cache.Path none [] none)
    (held : cache.slot? i = some slot) :
    ∃ cache', cache.pushFront i = some cache' ∧ SameContents cache cache' ∧
      cache'.Path none [i] none := by
  have newest : cache.newest = none := path.newest_eq
  obtain ⟨cache₁, wrote, same, newer, older, links⟩ := updateSlot_links held none none
  have oldest : cache₁.oldest = none :=
    (Option.some.inj (links .newer none nofun)).trans path.oldest_eq
  refine ⟨{ cache₁ with newest := some i, oldest := cache₁.oldest.or (some i) }, ?_, ?_, ?_⟩
  · simp only [pushFront, newest, wrote, Option.bind_eq_bind, Option.bind_some]
  · exact same.trans ⟨fun _ => rfl, rfl, rfl, rfl, rfl⟩
  · exact ⟨⟨rfl, newer⟩, older, by rw [oldest]; rfl⟩

theorem pushFront_before {slot : Slot κ ν} {j : Nat} (path : cache.Path none (j :: places) none)
    (fresh : i ∉ j :: places) (distinct : (j :: places).Nodup)
    (held : cache.slot? i = some slot) :
    ∃ cache', cache.pushFront i = some cache' ∧ SameContents cache cache' ∧
      cache'.Path none (i :: j :: places) none := by
  have newest : cache.newest = some j := path.newest_eq
  have other : some j ≠ some i := by
    rintro ⟨⟩
    exact fresh List.mem_cons_self
  -- three writes: both links of the new slot, the link back to it, and the front
  obtain ⟨cache₁, wrote₁, same₁, newer₁, older₁, links₁⟩ := updateSlot_links held none (some j)
  obtain ⟨cache₂, wrote₂, same₂, links₂⟩ :=
    setLink_spec (some i) ⟨none, (links₁ .newer (some j) other).trans path.1.2⟩
  have there : cache₂.link? .older none = some cache₂.newest := rfl
  obtain ⟨cache₃, wrote₃, same₃, links₃⟩ := setLink_spec (some i) ⟨_, there⟩
  have oldest : cache₂.oldest.or (some i) = cache₂.oldest := by
    have kept : some cache₂.oldest = some cache.oldest :=
      (links₂ .newer none).trans (links₁ .newer none nofun)
    rw [Option.some.inj kept, path.oldest_eq, List.getLast?_cons, Option.or_some]
    rfl
  refine ⟨cache₃, ?_, (same₁.trans same₂).trans same₃, ?_, ?_, path.2.congr ?_ ?_⟩
  · simp only [setLink] at wrote₂ wrote₃
    simp only [pushFront, newest, wrote₁, wrote₂, oldest, wrote₃, Option.bind_eq_bind,
      Option.bind_some]
  · constructor
    · rw [links₃, if_pos ⟨rfl, rfl⟩]
    · rw [links₃, if_neg (by simp), links₂, if_neg (by simpa using Ne.symm other), newer₁]
  · constructor
    · rw [links₃, if_neg (by simp), links₂, if_neg (by simp), older₁]
    · rw [links₃, if_neg (by simp), links₂, if_pos ⟨rfl, rfl⟩]
  · intro p hp
    obtain ⟨k, hk, rfl⟩ : ∃ k ∈ j :: places, some k = p := List.mem_map.mp hp
    rw [links₃, if_neg (by simp), links₂, if_neg (by simp), links₁]
    rintro ⟨⟩
    exact fresh hk
  · intro p hp
    rw [links₃, if_neg (by simp), links₂, if_neg, links₁]
    · rintro rfl
      exact fresh (List.mem_cons_of_mem _ (by simpa using hp))
    · rintro ⟨-, rfl⟩
      exact (List.nodup_cons.mp distinct).1 (by simpa using hp)

theorem pushFront_spec {slot : Slot κ ν} (path : cache.Path none places none) (fresh : i ∉ places)
    (distinct : places.Nodup) (held : cache.slot? i = some slot) :
    ∃ cache', cache.pushFront i = some cache' ∧ SameContents cache cache' ∧
      cache'.Path none (i :: places) none := by
  cases places with
  | nil => exact pushFront_first path held
  | cons j rest => exact pushFront_before path fresh distinct held

theorem promote_spec (path : cache.Path none (front ++ i :: back) none)
    (distinct : (front ++ i :: back).Nodup) :
    ∃ cache', cache.promote i = some cache' ∧ SameContents cache cache' ∧
      cache'.Path none (i :: (front ++ back)) none := by
  by_cases first : cache.newest = some i
  · cases front with
    | nil => exact ⟨cache, if_pos first, .refl cache, path⟩
    | cons j front =>
      obtain rfl : j = i := Option.some.inj (path.newest_eq.symm.trans first)
      simp at distinct
  · obtain ⟨cache₁, unlinked, same₁, path₁⟩ := unlink_spec path distinct
    obtain ⟨fresh, distinct₁⟩ := List.nodup_cons.mp (List.nodup_middle.mp distinct)
    obtain ⟨slot, held⟩ := path.held (List.mem_append_right front List.mem_cons_self)
    obtain ⟨slot₁, held₁, -⟩ := entryAt_eq_some_iff.mp ((same₁.entry i).trans (by
      rw [entryAt, held, Option.map_some]))
    obtain ⟨cache₂, pushed, same₂, path₂⟩ := pushFront_spec path₁ fresh distinct₁ held₁
    refine ⟨cache₂, ?_, same₁.trans same₂, path₂⟩
    rw [promote, if_neg first, unlinked, Option.bind_some, pushed]

end

end Cache

end ModuleAtlas.Recency
