import ModuleAtlas.Recency
import ModuleAtlas.Recency.Order

/-! What can be asked of a bounded cache, and runs of questions. -/

namespace ModuleAtlas.Recency

inductive Operation (κ ν : Type) where
  | get (key : κ)
  | peek (key : κ)
  | contains (key : κ)
  | put (key : κ) (value : ν)
  | evict (key : κ)
  | clear
  | setCapacity (capacity : Nat)
  | keys
  | size
  | capacity

inductive Answer (κ ν : Type) where
  | done
  | value (value : Option ν)
  | truth (truth : Bool)
  | keys (keys : List κ)
  | count (count : Nat)
  deriving DecidableEq

variable {κ ν : Type}

/-- Operations one after the other, with all answers. -/
def run {σ : Type} (perform : σ → Operation κ ν → Answer κ ν × σ) :
    σ → List (Operation κ ν) → List (Answer κ ν) × σ
  | state, [] => ([], state)
  | state, operation :: operations =>
    let (answer, state) := perform state operation
    let (answers, state) := run perform state operations
    (answer :: answers, state)

namespace Cache

variable [Ord κ] [Std.TransOrd κ]

/-- An operation, with no result where a link leads to a vacant slot. -/
def tryPerform (cache : Cache κ ν) : Operation κ ν → Option (Answer κ ν × Cache κ ν)
  | .get key => (cache.tryGet key).map fun (value, cache) => (.value value, cache)
  | .peek key => (cache.tryPeek key).map fun value => (.value value, cache)
  | .contains key => some (.truth (cache.contains key), cache)
  | .put key value => (cache.tryPut key value).map fun cache => (.done, cache)
  | .evict key => (cache.tryEvict key).map fun (value, cache) => (.value value, cache)
  | .clear => some (.done, cache.clear)
  | .setCapacity capacity => (cache.trySetCapacity capacity).map fun cache => (.done, cache)
  | .keys => cache.tryKeys.map fun keys => (.keys keys, cache)
  | .size => some (.count cache.size, cache)
  | .capacity => some (.count cache.capacity, cache)

def perform (cache : Cache κ ν) : Operation κ ν → Answer κ ν × Cache κ ν
  | .get key => let (value, cache) := cache.get? key; (.value value, cache)
  | .peek key => (.value (cache.peek? key), cache)
  | .contains key => (.truth (cache.contains key), cache)
  | .put key value => (.done, cache.put key value)
  | .evict key => let (value, cache) := cache.evict key; (.value value, cache)
  | .clear => (.done, cache.clear)
  | .setCapacity capacity => (.done, cache.setCapacity capacity)
  | .keys => (.keys cache.keys, cache)
  | .size => (.count cache.size, cache)
  | .capacity => (.count cache.capacity, cache)

end Cache

def Order.perform [DecidableEq κ] (order : Order κ ν) : Operation κ ν → Answer κ ν × Order κ ν
  | .get key => let (value, order) := order.get? key; (.value value, order)
  | .peek key => (.value (order.peek? key), order)
  | .contains key => (.truth (order.contains key), order)
  | .put key value => (.done, order.put key value)
  | .evict key => let (value, order) := order.evict key; (.value value, order)
  | .clear => (.done, order.clear)
  | .setCapacity capacity => (.done, order.setCapacity capacity)
  | .keys => (.keys (order.entries.map Prod.fst), order)
  | .size => (.count order.entries.length, order)
  | .capacity => (.count order.capacity, order)

end ModuleAtlas.Recency
