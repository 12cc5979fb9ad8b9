import ModuleAtlas.Fault

/-! Reading typed records out of documents. A `Shape` lists the fields of a record; a `Source` is
a document format that values can be read from, in a monad `m` that knows faults. Everything is
read from left to right, so the first fault wins. -/

namespace ModuleAtlas

/-- A record is given by field names or by position. `stop` is the fault it breaks off with. -/
inductive Layout (m : Type → Type) (δ : Type) where
  | fields (entries : List (m String × δ)) (stop : Option Fault)
  | positions (items : List δ) (stop : Option Fault)

class Source (δ : Type) (m : outParam (Type → Type)) where
  text : δ → m String
  bool : δ → m Bool
  /-- An integer from `low` to `high`. -/
  integer (low high : Int) : δ → m Int
  /-- One of a set of names. -/
  named {α : Type} (lookup : String → Option α) : δ → m α
  items : δ → m (List δ × Option Fault)
  layout : δ → m (Layout m δ)
  isNull : δ → Bool
  /-- The fault met on passing over a value. -/
  skip : δ → Option Fault

/-- A field of the record type `σ`: `set` reads its value into the record. -/
structure Field (m : Type → Type) (δ σ : Type) where
  name : String
  required : Bool
  set : σ → δ → m σ

/-- The fields of a record in their order, and the record before any is read: it holds the values
of the fields that are left out. -/
structure Shape (m : Type → Type) (δ σ : Type) where
  start : σ
  fields : List (Field m δ σ)

section

variable {m : Type → Type} {δ σ α : Type} [Monad m] [MonadExceptOf Fault m]

def Field.need (name : String) (read : δ → m α) (put : σ → α → σ) : Field m δ σ where
  name := name
  required := true
  set record value := put record <$> read value

def Field.may (name : String) (read : δ → m α) (put : σ → α → σ) : Field m δ σ where
  name := name
  required := false
  set record value := put record <$> read value

def throwIf : Option Fault → m Unit
  | none => pure ()
  | some fault => throw fault

variable [Source δ m]

/-- Fields by name, in any order. Unknown ones are passed over, and none may come twice. -/
def Shape.readFields (shape : Shape m δ σ) :
    List (m String × δ) → List String → σ → m (List String × σ)
  | [], seen, record => pure (seen, record)
  | (key, value) :: rest, seen, record => do
    let name ← key
    match shape.fields.find? fun field => field.name = name with
    | none =>
      throwIf (Source.skip value)
      shape.readFields rest seen record
    | some field =>
      if name ∈ seen then throw .mistyped
      else
        let record ← field.set record value
        shape.readFields rest (name :: seen) record

/-- Fields by position. Those left out at the end keep their default. -/
def readPositions : List (Field m δ σ) → List δ → Option Fault → σ → m σ
  | [], [], stop, record => do
    throwIf stop
    return record
  | [], _ :: _, _, _ => throw .malformed
  | field :: fields, [], stop, record => do
    throwIf stop
    if field.required then throw .mistyped else readPositions fields [] none record
  | field :: fields, item :: items, stop, record => do
    let record ← field.set record item
    readPositions fields items stop record

def Shape.read (shape : Shape m δ σ) (document : δ) : m σ := do
  match ← Source.layout document with
  | .fields entries stop =>
    let (seen, record) ← shape.readFields entries [] shape.start
    throwIf stop
    if shape.fields.all fun field => !field.required || field.name ∈ seen then return record
    else throw .mistyped
  | .positions items stop => readPositions shape.fields items stop shape.start

def readItems (read : δ → m α) : List δ → m (List α)
  | [] => pure []
  | item :: rest => do
    let item ← read item
    let rest ← readItems read rest
    return item :: rest

def readList (read : δ → m α) (document : δ) : m (List α) := do
  let (items, stop) ← Source.items document
  let items ← readItems read items
  throwIf stop
  return items

def readOption (read : δ → m α) (document : δ) : m (Option α) :=
  if Source.isNull document then pure none else some <$> read document

def readUInt32 (document : δ) : m UInt32 :=
  (fun n => UInt32.ofNat n.toNat) <$> Source.integer 0 0xFFFFFFFF document

def readUInt64 (document : δ) : m UInt64 :=
  (fun n => UInt64.ofNat n.toNat) <$> Source.integer 0 0xFFFFFFFFFFFFFFFF document

def readInt32 (document : δ) : m Int32 :=
  Int32.ofInt <$> Source.integer (-0x80000000) 0x7FFFFFFF document

end

end ModuleAtlas
