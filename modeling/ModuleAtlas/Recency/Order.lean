/-! The plain form of a bounded cache: a list of entries, newest first. -/

namespace ModuleAtlas.Recency

structure Order (κ ν : Type) where
  capacity : Nat
  entries : List (κ × ν) := []

namespace Order

variable {κ ν : Type} [DecidableEq κ]

def peek? (order : Order κ ν) (key : κ) : Option ν :=
  (order.entries.find? fun entry => entry.1 = key).map (·.2)

def contains (order : Order κ ν) (key : κ) : Bool :=
  order.entries.any fun entry => entry.1 = key

def others (order : Order κ ν) (key : κ) : List (κ × ν) :=
  order.entries.filter fun entry => entry.1 ≠ key

def get? (order : Order κ ν) (key : κ) : Option ν × Order κ ν :=
  match order.peek? key with
  | none => (none, order)
  | some value => (some value, { order with entries := (key, value) :: order.others key })

def put (order : Order κ ν) (key : κ) (value : ν) : Order κ ν :=
  if order.contains key then { order with entries := (key, value) :: order.others key }
  else if order.capacity = 0 then order
  else { order with entries := (key, value) :: order.entries.take (order.capacity - 1) }

def evict (order : Order κ ν) (key : κ) : Option ν × Order κ ν :=
  (order.peek? key, { order with entries := order.others key })

def clear (order : Order κ ν) : Order κ ν :=
  { order with entries := [] }

def setCapacity (order : Order κ ν) (capacity : Nat) : Order κ ν :=
  { capacity, entries := order.entries.take capacity }

end Order

end ModuleAtlas.Recency
