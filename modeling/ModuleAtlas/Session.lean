import ModuleAtlas.Graph.Loading
import ModuleAtlas.Store

/-! A graph in use, with a source of facts behind it: the store, or a table of prepared
answers. -/

namespace ModuleAtlas

/-- Changes to the graph that happen while a source is asked for the first time. -/
structure Disturbance where
  added : List FileFacts
  removed : List String

/-- A path that the table does not name is unknown to it; a path without facts fails. -/
inductive FactSource where
  | none
  | store
  | table (answers : Table (Option FileFacts)) (disturbance : Option Disturbance)

/-- `asked` lists the paths a table was asked for, last first. -/
structure Session where
  graph : Graph
  source : FactSource := .none
  store : Store := {}
  asked : List String := []

instance : HasGraph Session where
  graph := Session.graph
  withGraph s graph := { s with graph }

namespace Session

def disturb (s : Session) (d : Disturbance) : Session :=
  { s with graph := d.removed.foldl Graph.remove (s.graph.addAll d.added) }

/-- Ask the source behind the graph. A failure counts as no answer. -/
def ask : Loader Session := fun path s =>
  match s.source with
  | .none => (.none, s)
  | .store =>
    match s.store.load KeyedHash.hashText path with
    | .ok found => (found, s)
    | .error _ => (.none, s)
  | .table answers disturbance =>
    let s := { s with asked := path :: s.asked, source := .table answers .none }
    let s := match disturbance with
      | some d => s.disturb d
      | .none => s
    (answers[path]?.join, s)

/-- Put facts into the store behind the graph. -/
def save (s : Session) (facts : FileFacts) : Except StoreError Session := do
  let store ← s.store.save KeyedHash.hashText facts
  return { s with store }

/-- The paths asked for since the last time, in order. -/
def takeAsked (s : Session) : List String × Session :=
  (s.asked.mergeSort, { s with asked := [] })

end Session

end ModuleAtlas
