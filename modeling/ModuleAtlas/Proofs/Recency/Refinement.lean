import ModuleAtlas.Proofs.Recency.Cells
import ModuleAtlas.Recency.Operation

/-!
# A cache behaves as a list

Every operation on a cache that holds some cells finds each slot it asks for, and has the answer and
the effect that the operation on the plain list of entries has.
-/

namespace ModuleAtlas.Recency

variable {κ ν : Type}

namespace Order

variable [DecidableEq κ] {order : Order κ ν} {key : κ}

section
variable (absent : ∀ entry ∈ order.entries, entry.1 ≠ key)
include absent

theorem peek?_of_absent : order.peek? key = none := by
  simpa [peek?] using absent

theorem contains_of_absent : order.contains key = false := by
  simpa [contains] using absent

theorem others_of_absent : order.others key = order.entries := by
  simpa [others] using absent

end

section
variable {value : ν} {front back : List (κ × ν)}
  (entries : order.entries = front ++ (key, value) :: back)
  (other : ∀ entry ∈ front ++ back, entry.1 ≠ key)
include entries

theorem contains_of_split : order.contains key = true := by
  simp [contains, entries]

include other

theorem peek?_of_split : order.peek? key = some value := by
  have ahead : front.find? (fun entry => entry.1 = key) = none := by
    simpa using fun a b hab => other (a, b) (List.mem_append_left _ hab)
  rw [peek?, entries, List.find?_append, ahead]
  simp

theorem others_of_split : order.others key = front ++ back := by
  have kept : (front ++ back).filter (fun entry => entry.1 ≠ key) = front ++ back :=
    List.filter_eq_self.mpr fun entry hentry => by simpa using other entry hentry
  rw [others, entries, List.filter_append, List.filter_cons_of_neg (by simp), ← List.filter_append,
    kept]

end

end Order

namespace Cache

variable [Ord κ] [Std.TransOrd κ] {cache : Cache κ ν}

namespace Holds

variable {cells front back : List (Nat × κ × ν)} {key : κ} {i : Nat} {value : ν}

theorem absent (h : Holds cache cells) (fresh : cache.index[key]? = none) :
    ∀ entry ∈ cells.map Prod.snd, entry.1 ≠ key := by
  intro entry hentry same
  obtain ⟨⟨i, _, value⟩, hcell, rfl⟩ := List.mem_map.mp hentry
  obtain rfl := same
  rw [(h.indexed _ i).mpr ⟨value, hcell⟩] at fresh
  cases fresh

theorem split (h : Holds cache cells) (found : cache.index[key]? = some i) :
    ∃ front value back, cells = front ++ (i, key, value) :: back := by
  obtain ⟨value, hcell⟩ := (h.indexed key i).mp found
  obtain ⟨front, back, split⟩ := List.append_of_mem hcell
  exact ⟨front, value, back, split⟩

theorem other (h : Holds cache (front ++ (i, key, value) :: back)) :
    ∀ entry ∈ front.map Prod.snd ++ back.map Prod.snd, entry.1 ≠ key := by
  intro entry hentry
  rw [← List.map_append] at hentry
  obtain ⟨cell, hcell, rfl⟩ := List.mem_map.mp hentry
  exact h.key_ne cell hcell

end Holds

/-- A cache has the entries of a list, in that order, and room for them. -/
def Refines (cache : Cache κ ν) (order : Order κ ν) : Prop :=
  ∃ cells, Holds cache cells ∧ order.entries = cells.map Prod.snd ∧
    order.capacity = cache.capacity ∧ cells.length ≤ cache.capacity

theorem refines_empty (capacity : Nat) : Refines (empty capacity : Cache κ ν) { capacity } :=
  ⟨[], holds_empty capacity, rfl, rfl, Nat.zero_le _⟩

namespace Refines

variable {order : Order κ ν}

theorem keys_nodup (h : Refines cache order) : (order.entries.map Prod.fst).Nodup := by
  obtain ⟨cells, holds, entries, -⟩ := h
  rw [entries, List.map_map]
  exact holds.keys_nodup

theorem tryKeys (h : Refines cache order) :
    cache.tryKeys = some (order.entries.map Prod.fst) := by
  obtain ⟨cells, holds, entries, -⟩ := h
  obtain ⟨slots, trail, rfl⟩ := holds.trail
  rw [Cache.tryKeys, trail, entries]
  simp [cellOf]

theorem size [Std.LawfulEqOrd κ] (h : Refines cache order) : cache.size = order.entries.length := by
  obtain ⟨cells, holds, entries, -⟩ := h
  rw [Cache.size, holds.size_eq, entries, List.length_map]

theorem trySetCapacity [Std.LawfulEqOrd κ] (h : Refines cache order) (capacity : Nat) :
    ∃ cache', cache.trySetCapacity capacity = some cache' ∧
      Refines cache' (order.setCapacity capacity) := by
  obtain ⟨cells, holds, entries, -⟩ := h
  have resized : Holds { cache with capacity } cells :=
    { holds with path := holds.path.of_slots rfl rfl fun _ _ => rfl }
  obtain ⟨cache', shrunk, capacity', holds'⟩ := resized.shrinkTo capacity
  refine ⟨cache', shrunk, cells.take capacity, holds', ?_, capacity'.symm, ?_⟩
  · rw [Order.setCapacity, entries, List.map_take]
  · rw [capacity', List.length_take]
    exact Nat.min_le_left _ _

variable [DecidableEq κ]

theorem tryGet (h : Refines cache order) (key : κ) :
    ∃ cache', cache.tryGet key = some ((order.get? key).1, cache') ∧
      Refines cache' (order.get? key).2 := by
  obtain ⟨cells, holds, entries, capacity, room⟩ := h
  cases found : cache.index[key]? with
  | none =>
    have missing := Order.peek?_of_absent (entries ▸ holds.absent found)
    simp only [Cache.tryGet, found, Order.get?, missing]
    exact ⟨cache, rfl, cells, holds, entries, capacity, room⟩
  | some i =>
    obtain ⟨front, value, back, rfl⟩ := holds.split found
    rw [List.map_append, List.map_cons] at entries
    have seen := Order.peek?_of_split entries holds.other
    have others := Order.others_of_split entries holds.other
    obtain ⟨cache', promoted, capacity', holds'⟩ := holds.promote
    obtain ⟨slot, held, -, rfl⟩ := holds'.slot_of_mem List.mem_cons_self
    simp only [Cache.tryGet, found, promoted, held, Option.bind_eq_bind, Option.bind_some,
      Order.get?, seen, others]
    refine ⟨cache', rfl, _, holds', ?_, capacity.trans capacity'.symm, ?_⟩
    · rw [List.map_cons, List.map_append]
    · rw [capacity']
      simpa [Nat.add_assoc] using room

theorem tryPeek (h : Refines cache order) (key : κ) :
    cache.tryPeek key = some (order.peek? key) := by
  obtain ⟨cells, holds, entries, -⟩ := h
  cases found : cache.index[key]? with
  | none => simp only [Cache.tryPeek, found, Order.peek?_of_absent (entries ▸ holds.absent found)]
  | some i =>
    obtain ⟨front, value, back, rfl⟩ := holds.split found
    rw [List.map_append, List.map_cons] at entries
    obtain ⟨slot, held, -, rfl⟩ :=
      holds.slot_of_mem (List.mem_append_right front List.mem_cons_self)
    simp only [Cache.tryPeek, found, held, Option.map_some,
      Order.peek?_of_split entries holds.other]

theorem contains (h : Refines cache order) (key : κ) :
    cache.contains key = order.contains key := by
  obtain ⟨cells, holds, entries, -⟩ := h
  rw [Cache.contains, Std.ExtTreeMap.contains_eq_isSome_getElem?]
  cases found : cache.index[key]? with
  | none => rw [Order.contains_of_absent (entries ▸ holds.absent found), Option.isSome_none]
  | some i =>
    obtain ⟨front, value, back, rfl⟩ := holds.split found
    rw [List.map_append, List.map_cons] at entries
    rw [Order.contains_of_split entries, Option.isSome_some]

section
variable [Std.LawfulEqOrd κ]

theorem tryPut (h : Refines cache order) (key : κ) (value : ν) :
    ∃ cache', cache.tryPut key value = some cache' ∧ Refines cache' (order.put key value) := by
  obtain ⟨cells, holds, entries, capacity, room⟩ := h
  cases found : cache.index[key]? with
  | none =>
    have missing := Order.contains_of_absent (entries ▸ holds.absent found)
    by_cases shut : cache.capacity = 0
    · refine ⟨cache, ?_, ?_⟩
      · simp only [Cache.tryPut, found, shut, ↓reduceIte]
      · rw [Order.put, missing, capacity, shut]
        exact ⟨cells, holds, entries, capacity, room⟩
    · obtain ⟨cache₁, shrunk, capacity₁, holds₁⟩ := holds.shrinkTo (cache.capacity - 1)
      have fresh₁ : cache₁.index[key]? = none := by
        cases found₁ : cache₁.index[key]? with
        | none => rfl
        | some i =>
          obtain ⟨old, hcell⟩ := (holds₁.indexed key i).mp found₁
          have held := (holds.indexed key i).mpr ⟨old, List.mem_of_mem_take hcell⟩
          cases found.symm.trans held
      obtain ⟨i, cache₂, cache₃, allocated, pushed, capacity₃, holds₃⟩ := holds₁.insert fresh₁ value
      refine ⟨cache₃, ?_, _, holds₃, ?_, ?_, ?_⟩
      · simp only [Cache.tryPut, found, shut, ↓reduceIte, shrunk, allocated, pushed,
          Option.bind_eq_bind, Option.bind_some]
      · simp [Order.put, missing, capacity, shut, entries, List.map_take]
      · simp [Order.put, missing, capacity, shut, capacity₁, capacity₃]
      · rw [capacity₃, capacity₁, List.length_cons, List.length_take]
        omega
  | some i =>
    obtain ⟨front, old, back, rfl⟩ := holds.split found
    rw [List.map_append, List.map_cons] at entries
    obtain ⟨cache₁, replaced, capacity₁, holds₁⟩ := holds.replace value
    obtain ⟨cache₂, promoted, capacity₂, holds₂⟩ := holds₁.promote
    refine ⟨cache₂, ?_, _, holds₂, ?_, ?_, ?_⟩
    · simp only [Cache.tryPut, found, replaced, Option.bind_some, promoted]
    · simp [Order.put, Order.contains_of_split entries, Order.others_of_split entries holds.other]
    · simp [Order.put, Order.contains_of_split entries, capacity, capacity₁, capacity₂]
    · rw [capacity₂, capacity₁]
      simpa [Nat.add_assoc] using room

theorem tryEvict (h : Refines cache order) (key : κ) :
    ∃ cache', cache.tryEvict key = some ((order.evict key).1, cache') ∧
      Refines cache' (order.evict key).2 := by
  obtain ⟨cells, holds, entries, capacity, room⟩ := h
  cases found : cache.index[key]? with
  | none =>
    have absent := entries ▸ holds.absent found
    simp only [Cache.tryEvict, found, Order.evict, Order.peek?_of_absent absent,
      Order.others_of_absent absent]
    exact ⟨cache, rfl, cells, holds, entries, capacity, room⟩
  | some i =>
    obtain ⟨front, value, back, rfl⟩ := holds.split found
    rw [List.map_append, List.map_cons] at entries
    obtain ⟨cache', removed, capacity', holds'⟩ := holds.remove
    simp only [Cache.tryEvict, found, removed, Option.map_some, Order.evict,
      Order.peek?_of_split entries holds.other, Order.others_of_split entries holds.other]
    refine ⟨cache', rfl, _, holds', ?_, capacity.trans capacity'.symm, ?_⟩
    · rw [List.map_append]
    · rw [capacity']
      refine Nat.le_trans ?_ room
      simp

/-- **One operation.** Every slot it asks for is there, and it does what it does to the list. -/
theorem tryPerform (h : Refines cache order) (operation : Operation κ ν) :
    ∃ cache', cache.tryPerform operation = some ((order.perform operation).1, cache') ∧
      Refines cache' (order.perform operation).2 := by
  cases operation with
  | get key =>
    obtain ⟨cache', got, h'⟩ := h.tryGet key
    exact ⟨cache', by rw [Cache.tryPerform, got]; rfl, h'⟩
  | peek key => exact ⟨cache, by rw [Cache.tryPerform, h.tryPeek key]; rfl, h⟩
  | contains key => exact ⟨cache, by rw [Cache.tryPerform, h.contains key]; rfl, h⟩
  | put key value =>
    obtain ⟨cache', stored, h'⟩ := h.tryPut key value
    exact ⟨cache', by rw [Cache.tryPerform, stored]; rfl, h'⟩
  | evict key =>
    obtain ⟨cache', evicted, h'⟩ := h.tryEvict key
    exact ⟨cache', by rw [Cache.tryPerform, evicted]; rfl, h'⟩
  | clear =>
    obtain ⟨-, -, -, capacity, -⟩ := h
    exact ⟨cache.clear, rfl, [], holds_empty cache.capacity, rfl, capacity, Nat.zero_le _⟩
  | setCapacity capacity =>
    obtain ⟨cache', resized, h'⟩ := h.trySetCapacity capacity
    exact ⟨cache', by rw [Cache.tryPerform, resized]; rfl, h'⟩
  | keys => exact ⟨cache, by rw [Cache.tryPerform, h.tryKeys]; rfl, h⟩
  | size => exact ⟨cache, by rw [Cache.tryPerform, h.size]; rfl, h⟩
  | capacity =>
    obtain ⟨-, -, -, capacity, -⟩ := id h
    exact ⟨cache, by rw [Cache.tryPerform, ← capacity]; rfl, h⟩

end

end Refines

/-- Where no link leads to a vacant slot, the operations are as they are used. -/
theorem perform_eq {operation : Operation κ ν} {answer : Answer κ ν × Cache κ ν}
    (h : cache.tryPerform operation = some answer) : cache.perform operation = answer := by
  cases operation with
  | get key =>
    obtain ⟨_, got, rfl⟩ := Option.map_eq_some_iff.mp h
    simp only [perform, get?, got, Option.getD_some]
  | peek key =>
    obtain ⟨_, seen, rfl⟩ := Option.map_eq_some_iff.mp h
    simp only [perform, peek?, seen, Option.getD_some]
  | put key value =>
    obtain ⟨_, stored, rfl⟩ := Option.map_eq_some_iff.mp h
    simp only [perform, put, stored, Option.getD_some]
  | evict key =>
    obtain ⟨_, evicted, rfl⟩ := Option.map_eq_some_iff.mp h
    simp only [perform, evict, evicted, Option.getD_some]
  | setCapacity capacity =>
    obtain ⟨_, resized, rfl⟩ := Option.map_eq_some_iff.mp h
    simp only [perform, setCapacity, resized, Option.getD_some]
  | keys =>
    obtain ⟨_, listed, rfl⟩ := Option.map_eq_some_iff.mp h
    simp only [perform, keys, listed, Option.getD_some]
  | contains key => exact Option.some.inj h
  | clear => exact Option.some.inj h
  | size => exact Option.some.inj h
  | capacity => exact Option.some.inj h

/-- **A run.** A cache answers as the list does, and goes on to refine it. -/
theorem run_refines [Std.LawfulEqOrd κ] [DecidableEq κ] {order : Order κ ν}
    (h : Refines cache order) (operations : List (Operation κ ν)) :
    (run perform cache operations).1 = (run Order.perform order operations).1 ∧
      Refines (run perform cache operations).2 (run Order.perform order operations).2 := by
  induction operations generalizing cache order with
  | nil => exact ⟨rfl, h⟩
  | cons operation operations ih =>
    obtain ⟨cache', performed, h'⟩ := h.tryPerform operation
    obtain ⟨answers, final⟩ := ih h'
    simp only [run, perform_eq performed]
    exact ⟨congrArg _ answers, final⟩

/-- What holds of the links, the index and the vacant slots of a cache. -/
structure Intact (cache : Cache κ ν) : Prop where
  size_le : cache.size ≤ cache.capacity
  neighbours : ∀ i slot, cache.slot? i = some slot → ∀ side j, slot.link side = some j →
    ∃ other, cache.slot? j = some other
  trail : ∃ slots, cache.trail = some slots ∧ (slots.map Prod.fst).Nodup ∧
    (slots.map Prod.fst).getLast? = cache.oldest ∧
    ∀ (key : κ) i, cache.index[key]? = some i ↔ ∃ slot, (i, slot) ∈ slots ∧ slot.key = key
  free_nodup : cache.free.Nodup
  vacant : ∀ i : Nat, i ∈ cache.free ↔ cache.slots[i]? = some none

theorem vacant_iff {i : Nat} :
    i < cache.slots.size ∧ cache.entryAt i = none ↔ cache.slots[i]? = some none := by
  rw [entryAt, Option.map_eq_none_iff, slot?]
  rcases Nat.lt_or_ge i cache.slots.size with bound | bound
  · simp [bound]
  · simp [Nat.not_lt.mpr bound]

theorem Refines.intact [Std.LawfulEqOrd κ] {order : Order κ ν} (h : Refines cache order) :
    Intact cache := by
  obtain ⟨cells, holds, entries, capacity, room⟩ := h
  exact {
    size_le := by rwa [Cache.size, holds.size_eq]
    neighbours := by
      intro i slot held side j link
      have hcell := (holds.held i _).mp (by rw [entryAt, held, Option.map_some])
      exact holds.path.neighbour_held (List.mem_map_of_mem hcell) held link
    trail := by
      obtain ⟨slots, trail, rfl⟩ := holds.trail
      have places : (slots.map cellOf).map Prod.fst = slots.map Prod.fst := by simp [cellOf]
      refine ⟨slots, trail, places ▸ holds.distinct, ?_, fun key i => ?_⟩
      · rw [holds.path.oldest_eq, places]
      · rw [holds.indexed]
        simp [cellOf]
    free_nodup := holds.free_nodup
    vacant := fun i => (holds.vacant i).trans vacant_iff }

end Cache

/-- **A cache is a list of entries.** From an empty cache on, whatever is asked, the answers are
those of the plain list, whose keys are distinct. The links, the index and the vacant slots fit
together all the time, and no operation comes to a vacant slot. -/
theorem cache_answers_as_list [Ord κ] [Std.TransOrd κ] [Std.LawfulEqOrd κ] [DecidableEq κ]
    (capacity : Nat) (operations : List (Operation κ ν)) :
    let kept := run Cache.perform (.empty capacity) operations
    let plain := run Order.perform { capacity } operations
    kept.1 = plain.1 ∧ (plain.2.entries.map Prod.fst).Nodup ∧ kept.2.Intact ∧
      ∀ operation, kept.2.tryPerform operation = some (kept.2.perform operation) := by
  intro kept plain
  obtain ⟨answers, refines⟩ := Cache.run_refines (Cache.refines_empty capacity) operations
  refine ⟨answers, refines.keys_nodup, refines.intact, fun operation => ?_⟩
  obtain ⟨cache', performed, -⟩ := refines.tryPerform operation
  rw [performed, Cache.perform_eq performed]

/-- Entries lost to newer ones, slots used again, and a capacity that goes down to nothing and up
again. -/
theorem cache_answers_as_list_reuse :
    let operations : List (Operation String Nat) := [.put "a" 1, .put "b" 2, .get "a", .put "c" 3,
      .contains "b", .evict "a", .put "d" 4, .put "c" 5, .setCapacity 1, .keys, .setCapacity 0,
      .put "e" 6, .size, .setCapacity 2, .put "f" 7, .keys]
    let kept := run Cache.perform (.empty 2) operations
    let plain := run Order.perform { capacity := 2 } operations
    kept.1 = [.done, .done, .value (some 1), .done, .truth false, .value (some 1), .done, .done,
      .done, .keys ["c"], .done, .done, .count 0, .done, .done, .keys ["f"]] ∧
    kept.1 = plain.1 ∧ (plain.2.entries.map Prod.fst).Nodup ∧ kept.2.Intact ∧
      ∀ operation, kept.2.tryPerform operation = some (kept.2.perform operation) :=
  ⟨by decide +kernel, cache_answers_as_list 2 _⟩

end ModuleAtlas.Recency
