import ModuleAtlas.Json.Scan
import ModuleAtlas.Shape

/-! Reading typed values out of JSON. A value of the wrong type is noticed at its first character
if it is a list or a record, and at its end otherwise. -/

namespace ModuleAtlas

namespace Draft

def readKey (key : Except Flaw String) : Except Fault String :=
  key.mapError (·.read)

/-- A name stands alone, or as the only key of a record, with the value null. Where a name is
wanted, a number or a word is no value at all. -/
def readNamed (lookup : String → Option α) : Draft → Except Fault α
  | .text name =>
    match lookup name with
    | some a => .ok a
    | none => .error .mistyped
  | .record [] stop => .error (stop.getD .malformed)
  | .record ((key, value) :: rest) stop => do
    let name ← readKey key
    match lookup name, value with
    | none, _ => .error .mistyped
    | some a, .null =>
      if rest.isEmpty then
        throwIf stop
        return a
      else .error .malformed
    | some _, other => .error other.mistyped
  | .flawed flaw => .error flaw.named
  | _ => .error .malformed

end Draft

instance : Source Draft (Except Fault) where
  text
    | .text value => .ok value
    | other => .error other.mistyped
  bool
    | .bool value => .ok value
    | other => .error other.mistyped
  integer low high
    | .integer value => if low ≤ value ∧ value ≤ high then .ok value else .error .mistyped
    | other => .error other.mistyped
  named lookup draft := draft.readNamed lookup
  items
    | .list items stop => .ok (items, stop)
    | other => .error other.mistyped
  layout
    | .record fields stop =>
      .ok (.fields (fields.map fun field => (Draft.readKey field.1, field.2)) stop)
    | .list items stop => .ok (.positions items stop)
    | other => .error other.mistyped
  isNull
    | .null => true
    | _ => false
  skip := Draft.skipFault

/-- Read a whole text. What follows the value is looked at last. -/
def Shape.readText {σ : Type} (shape : Shape (Except Fault) Draft σ) (text : String) :
    Except Fault σ := do
  let (draft, more) := Draft.scan text
  let record ← shape.read draft
  if more then .error .malformed else return record

def Shape.readJson {σ : Type} (shape : Shape (Except Fault) Draft σ) (json : Json) :
    Except Fault σ :=
  shape.read (.ofJson json)

end ModuleAtlas
