import Std.Data.ExtTreeMap

/-! A bounded cache that gives up the entry used least recently. Entries sit in slots that are
linked by recency, so that every use moves a few links only. `Recency.Order` says the same with a
plain list. What moves links has no result where a link leads to a vacant slot. -/

namespace ModuleAtlas.Recency

structure Slot (κ ν : Type) where
  key : κ
  value : ν
  newer : Option Nat
  older : Option Nat

inductive Side where
  | newer
  | older
  deriving DecidableEq

/-- `index` finds the slot of a key, and `free` lists the vacant slots. -/
structure Cache (κ ν : Type) [Ord κ] [Std.TransOrd κ] where
  capacity : Nat
  index : Std.ExtTreeMap κ Nat := ∅
  slots : Array (Option (Slot κ ν)) := #[]
  free : List Nat := []
  newest : Option Nat := none
  oldest : Option Nat := none

namespace Cache

variable {κ ν : Type} [Ord κ] [Std.TransOrd κ]

def slot? (cache : Cache κ ν) (i : Nat) : Option (Slot κ ν) :=
  cache.slots[i]?.join

def updateSlot (cache : Cache κ ν) (i : Nat) (f : Slot κ ν → Slot κ ν) : Option (Cache κ ν) :=
  (cache.slot? i).map fun slot =>
    { cache with slots := cache.slots.setIfInBounds i (some (f slot)) }

/-- Say what is next to a slot on one side. No slot stands for both ends, so that the newest slot
is older than it and the oldest one newer. -/
def setLink (cache : Cache κ ν) (side : Side) (place target : Option Nat) : Option (Cache κ ν) :=
  match place, side with
  | none, .newer => some { cache with oldest := target }
  | none, .older => some { cache with newest := target }
  | some i, .newer => cache.updateSlot i fun slot => { slot with newer := target }
  | some i, .older => cache.updateSlot i fun slot => { slot with older := target }

/-- Join the neighbours of a slot. -/
def unlink (cache : Cache κ ν) (i : Nat) : Option (Cache κ ν) := do
  let slot ← cache.slot? i
  let cache ← cache.setLink .older slot.newer slot.older
  cache.setLink .newer slot.older slot.newer

/-- Make an unlinked slot the newest. -/
def pushFront (cache : Cache κ ν) (i : Nat) : Option (Cache κ ν) := do
  let front := cache.newest
  let cache ← cache.updateSlot i fun slot => { slot with newer := none, older := front }
  let cache ← match front with
    | none => some cache
    | some j => cache.updateSlot j fun slot => { slot with newer := some i }
  some { cache with newest := some i, oldest := cache.oldest.or (some i) }

def promote (cache : Cache κ ν) (i : Nat) : Option (Cache κ ν) :=
  if cache.newest = some i then some cache else (cache.unlink i).bind (·.pushFront i)

def vacate (cache : Cache κ ν) (i : Nat) (key : κ) : Cache κ ν :=
  { cache with
    slots := cache.slots.setIfInBounds i none
    free := i :: cache.free
    index := cache.index.erase key }

def removeSlot (cache : Cache κ ν) (i : Nat) : Option (ν × Cache κ ν) := do
  let cache ← cache.unlink i
  let slot ← cache.slot? i
  some (slot.value, cache.vacate i slot.key)

/-- Drop the oldest entries down to `n`. -/
def shrink (n : Nat) : Nat → Cache κ ν → Option (Cache κ ν)
  | 0, cache => some cache
  | fuel + 1, cache =>
    if cache.index.size ≤ n then some cache
    else
      match cache.oldest with
      | none => some cache
      | some i => (cache.removeSlot i).bind fun (_, cache) => shrink n fuel cache

def shrinkTo (cache : Cache κ ν) (n : Nat) : Option (Cache κ ν) :=
  cache.shrink n cache.index.size

/-- Put a slot where one is vacant, or at the end. -/
def allocate (cache : Cache κ ν) (slot : Slot κ ν) : Option (Nat × Cache κ ν) :=
  match cache.free with
  | [] => some (cache.slots.size, { cache with slots := cache.slots.push (some slot) })
  | i :: free =>
    if i < cache.slots.size then
      some (i, { cache with slots := cache.slots.setIfInBounds i (some slot), free })
    else none

def empty (capacity : Nat) : Cache κ ν := { capacity }

/-- Look up a key, which counts as a use of it. -/
def tryGet (cache : Cache κ ν) (key : κ) : Option (Option ν × Cache κ ν) :=
  match cache.index[key]? with
  | none => some (none, cache)
  | some i => do
    let cache ← cache.promote i
    let slot ← cache.slot? i
    some (some slot.value, cache)

def tryPeek (cache : Cache κ ν) (key : κ) : Option (Option ν) :=
  match cache.index[key]? with
  | none => some none
  | some i => (cache.slot? i).map fun slot => some slot.value

def contains (cache : Cache κ ν) (key : κ) : Bool :=
  cache.index.contains key

/-- Insert or replace, which counts as a use. With no capacity nothing new gets in. -/
def tryPut (cache : Cache κ ν) (key : κ) (value : ν) : Option (Cache κ ν) :=
  match cache.index[key]? with
  | some i => (cache.updateSlot i fun slot => { slot with value }).bind (·.promote i)
  | none =>
    if cache.capacity = 0 then some cache
    else do
      let cache ← cache.shrinkTo (cache.capacity - 1)
      let (i, cache) ← cache.allocate { key, value, newer := none, older := none }
      { cache with index := cache.index.insert key i }.pushFront i

def tryEvict (cache : Cache κ ν) (key : κ) : Option (Option ν × Cache κ ν) :=
  match cache.index[key]? with
  | none => some (none, cache)
  | some i => (cache.removeSlot i).map fun (value, cache) => (some value, cache)

def clear (cache : Cache κ ν) : Cache κ ν :=
  empty cache.capacity

def size (cache : Cache κ ν) : Nat :=
  cache.index.size

def trySetCapacity (cache : Cache κ ν) (capacity : Nat) : Option (Cache κ ν) :=
  { cache with capacity }.shrinkTo capacity

/-- The slots from a place on to the oldest, unless the links go on for longer than the number
given. -/
def follow (cache : Cache κ ν) : Nat → Option Nat → Option (List (Nat × Slot κ ν))
  | _, none => some []
  | 0, some _ => none
  | fuel + 1, some i => do
    let slot ← cache.slot? i
    let rest ← cache.follow fuel slot.older
    some ((i, slot) :: rest)

/-- The slots in use, newest first. -/
def trail (cache : Cache κ ν) : Option (List (Nat × Slot κ ν)) :=
  cache.follow cache.slots.size cache.newest

/-- The keys in use, newest first. -/
def tryKeys (cache : Cache κ ν) : Option (List κ) :=
  cache.trail.map fun slots => slots.map fun slot => slot.2.key

/-! The operations as they are used. Links never lead to a vacant slot in what they make, so it
does not matter that they would then start afresh. -/

def get? (cache : Cache κ ν) (key : κ) : Option ν × Cache κ ν :=
  (cache.tryGet key).getD (none, empty cache.capacity)

def peek? (cache : Cache κ ν) (key : κ) : Option ν :=
  (cache.tryPeek key).getD none

def put (cache : Cache κ ν) (key : κ) (value : ν) : Cache κ ν :=
  (cache.tryPut key value).getD (empty cache.capacity)

def evict (cache : Cache κ ν) (key : κ) : Option ν × Cache κ ν :=
  (cache.tryEvict key).getD (none, empty cache.capacity)

def setCapacity (cache : Cache κ ν) (capacity : Nat) : Cache κ ν :=
  (cache.trySetCapacity capacity).getD (empty capacity)

def keys (cache : Cache κ ν) : List κ :=
  cache.tryKeys.getD []

end Cache

end ModuleAtlas.Recency
