/-! Binary forms that carry their own length. A codec writes a value and reads one off the front
of some bytes. -/

namespace ModuleAtlas.Blob

abbrev Bytes := List UInt8

/-- The first problem met on reading: the bytes `ended`, or they hold no text, truth value,
presence mark or variant where one has to be. -/
inductive Fault where
  | ended
  | text
  | bool
  | presence
  | variant
  deriving DecidableEq, Repr

structure Codec (α : Type) where
  encode : α → Bytes
  decode : Bytes → Except Fault (α × Bytes)

namespace Codec

variable {α β : Type}

/-- The `width` lowest bytes of a number, lowest first. -/
def lowBytes : Nat → Nat → Bytes
  | 0, _ => []
  | width + 1, n => UInt8.ofNat n :: lowBytes width (n / 256)

def takeNumber : Nat → Bytes → Except Fault (Nat × Bytes)
  | 0, bytes => .ok (0, bytes)
  | _ + 1, [] => .error .ended
  | width + 1, b :: bytes => do
    let (high, rest) ← takeNumber width bytes
    return (b.toNat + 256 * high, rest)

def uint32 : Codec UInt32 where
  encode n := lowBytes 4 n.toNat
  decode bytes := (takeNumber 4 bytes).map fun (n, rest) => (UInt32.ofNat n, rest)

def size : Codec Nat where
  encode n := lowBytes 8 n
  decode := takeNumber 8

def bool : Codec Bool where
  encode b := [if b then 1 else 0]
  decode
    | [] => .error .ended
    | b :: rest =>
      if b = 0 then .ok (false, rest) else if b = 1 then .ok (true, rest) else .error .bool

def takeText (length : Nat) (bytes : Bytes) : Except Fault (String × Bytes) :=
  if bytes.length < length then .error .ended
  else
    match String.fromUTF8? ⟨(bytes.take length).toArray⟩ with
    | some s => .ok (s, bytes.drop length)
    | none => .error .text

/-- Text is its length in bytes and the bytes. -/
def text : Codec String where
  encode s := size.encode s.toUTF8.size ++ s.toUTF8.data.toList
  decode bytes := do
    let (length, rest) ← size.decode bytes
    takeText length rest

def option (codec : Codec α) : Codec (Option α) where
  encode
    | none => [0]
    | some a => 1 :: codec.encode a
  decode
    | [] => .error .ended
    | b :: rest =>
      if b = 0 then .ok (none, rest)
      else if b = 1 then (codec.decode rest).map fun (a, rest) => (some a, rest)
      else .error .presence

def takeMany (codec : Codec α) : Nat → Bytes → Except Fault (List α × Bytes)
  | 0, bytes => .ok ([], bytes)
  | n + 1, bytes => do
    let (a, bytes) ← codec.decode bytes
    let (more, bytes) ← takeMany codec n bytes
    return (a :: more, bytes)

def list (codec : Codec α) : Codec (List α) where
  encode items := size.encode items.length ++ items.flatMap codec.encode
  decode bytes := do
    let (n, bytes) ← size.decode bytes
    takeMany codec n bytes

def pair (first : Codec α) (second : Codec β) : Codec (α × β) where
  encode | (a, b) => first.encode a ++ second.encode b
  decode bytes := do
    let (a, bytes) ← first.decode bytes
    let (b, bytes) ← second.decode bytes
    return ((a, b), bytes)

/-- The same bytes for another type. -/
def via (codec : Codec α) (ofSource : α → β) (toSource : β → α) : Codec β where
  encode b := codec.encode (toSource b)
  decode bytes := (codec.decode bytes).map fun (a, rest) => (ofSource a, rest)

def valueAt (values : List α) (place : Nat) (bytes : Bytes) : Except Fault (α × Bytes) :=
  match values[place]? with
  | some a => .ok (a, bytes)
  | none => .error .variant

/-- One of a list of values, as its place in the list. -/
def oneOf [DecidableEq α] (values : List α) : Codec α where
  encode a := lowBytes 4 (values.idxOf a)
  decode bytes := do
    let (place, rest) ← takeNumber 4 bytes
    valueAt values place rest

end Codec

end ModuleAtlas.Blob
