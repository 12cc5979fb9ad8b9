import ModuleAtlas.Shape
import ModuleAtlas.Yaml.Tag

/-! YAML documents. -/

namespace ModuleAtlas

/-- A node names its parts by their places in the document, and a reference an anchor by its
number. -/
inductive Yaml.Node where
  | scalar (style : Yaml.Style) (tag : Option Yaml.Tag) (value : String)
  | list (items : List Nat)
  | map (entries : List (Nat × Nat))
  | reference (anchor : Nat)
  deriving Inhabited

/-- The nodes stand in a table, since an anchor lets one of them be a part of several others, and
even of itself. `anchored` tells where the anchors are. -/
structure Yaml.Document where
  nodes : Array Yaml.Node
  anchored : List (Nat × Nat)
  /-- How many references may be followed in reading the document. -/
  hopLimit : Nat

/-- A document and a place in it. -/
structure Yaml where
  document : Yaml.Document
  place : Nat

namespace Yaml

/-- Counts the references that were followed. -/
abbrev Reading := StateT Nat (Except Fault)

/-- A value left out. -/
def Node.blank : Node := .scalar .plain none ""

def node (y : Yaml) : Node :=
  y.document.nodes[y.place]?.getD .blank

def goTo (y : Yaml) (place : Nat) : Yaml :=
  { y with place }

/-- The node at hand, or the one that it refers to. -/
def follow (y : Yaml) : Reading Node := do
  match y.node with
  | .reference anchor =>
    modify (· + 1)
    if y.document.hopLimit < (← get) then throw .malformed
    match y.document.anchored.lookup anchor with
    | some place => return (y.goTo place).node
    | none => throw .malformed
  | node => return node

def digitValue? (radix : Nat) (c : Char) : Option Nat :=
  let value :=
    if '0' ≤ c ∧ c ≤ '9' then c.toNat - 48
    else if 'a' ≤ c ∧ c ≤ 'z' then c.toNat - 87
    else if 'A' ≤ c ∧ c ≤ 'Z' then c.toNat - 55
    else radix
  if value < radix then some value else none

def readDigits? (radix : Nat) (digits : List Char) : Option Nat :=
  if digits.isEmpty then none
  else digits.foldlM (fun n c => (digitValue? radix c).map (n * radix + ·)) 0

/-- Digits that begin with a needless zero are text. -/
def isPaddedDigits (digits : List Char) : Bool :=
  digits.length > 1 && digits.head? = some '0' && (readDigits? 10 digits).isSome

/-- A number without sign, decimal or in one of the bases named by its first two characters. -/
def readUnsigned? : List Char → Option Nat
  | '0' :: 'x' :: digits => readDigits? 16 digits
  | '0' :: 'o' :: digits => readDigits? 8 digits
  | '0' :: 'b' :: digits => readDigits? 2 digits
  | digits => if isPaddedDigits digits then none else readDigits? 10 digits

def readNatural? : List Char → Option Nat
  | '+' :: digits => readUnsigned? digits
  | digits => readUnsigned? digits

def readInteger? : List Char → Option Int
  | '-' :: digits => (readUnsigned? digits).map fun n => -(n : Int)
  | digits => (readNatural? digits).map fun n => (n : Int)

/-- The text of a scalar that may stand for a value of another type: it is plain, or a literal
block that is tagged so. -/
def Node.untyped? (type : String) : Node → Option String
  | .scalar .plain _ value => some value
  | .scalar .literal tag value => if tag = some (Tag.standard type) then some value else none
  | _ => none

/-- A sign is read only where negative numbers are wanted. -/
def readBetween (low high : Int) (y : Yaml) : Reading Int := do
  let number := ((← y.follow).untyped? "int").bind fun value =>
    if low < 0 then readInteger? value.toList
    else (readNatural? value.toList).map fun n => (n : Int)
  match number with
  | some n => if low ≤ n ∧ n ≤ high then return n else throw .mistyped
  | none => throw .mistyped

def readScalar (y : Yaml) : Reading String := do
  match ← y.follow with
  | .scalar _ _ value => return value
  | _ => throw .mistyped

def readBool (y : Yaml) : Reading Bool := do
  match (← y.follow).untyped? "bool" with
  | some value =>
    if value ∈ ["true", "True", "TRUE"] then return true
    else if value ∈ ["false", "False", "FALSE"] then return false
    else throw .mistyped
  | none => throw .mistyped

end Yaml

/-- A value left out is an empty list or an empty record. -/
instance : Source Yaml Yaml.Reading where
  text := Yaml.readScalar
  bool := Yaml.readBool
  integer := Yaml.readBetween
  named lookup y := do
    match lookup (← y.readScalar) with
    | some a => return a
    | none => throw .mistyped
  items y := do
    match ← y.follow with
    | .list items => return (items.map y.goTo, none)
    | .scalar .plain _ "" => return ([], none)
    | _ => throw .mistyped
  layout y := do
    match ← y.follow with
    | .map entries =>
      return .fields (entries.map fun entry => ((y.goTo entry.1).readScalar, y.goTo entry.2)) none
    | .scalar .plain _ "" => return .fields [] none
    | _ => throw .mistyped
  isNull y :=
    match y.node with
    | .scalar .plain _ value => value ∈ ["", "~", "null", "Null", "NULL"]
    | _ => false
  skip _ := none

/-- Read a whole document. -/
def Shape.readYaml {σ : Type} (shape : Shape Yaml.Reading Yaml σ) (y : Yaml) : Except Fault σ :=
  (shape.read y).run' 0

end ModuleAtlas
