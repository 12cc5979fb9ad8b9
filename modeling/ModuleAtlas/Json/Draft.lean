import ModuleAtlas.Fault
import ModuleAtlas.Json

/-! JSON text, read as far as it goes. A text with a defect still has a draft: the defect stands
in it where it was met, so whoever walks the draft from left to right meets what the text says
before it. -/

namespace ModuleAtlas

/-- A value that cannot be read. Which fault it is depends on what is wanted there: a value
(`read`), one of a set of names (`named`), or nothing at all (`skipped`), in which case it may
even pass. -/
structure Flaw where
  read : Fault
  named : Fault
  skipped : Option Fault

/-- As `Json`, and a list or record that breaks off says how. A key may be flawed too. -/
inductive Draft where
  | null
  | bool (value : Bool)
  | integer (value : Int)
  | decimal (negative : Bool) (digits : Nat) (exponent : Int)
  | text (value : String)
  | list (items : List Draft) (stop : Option Fault)
  | record (fields : List (Except Flaw String × Draft)) (stop : Option Fault)
  | flawed (flaw : Flaw)

namespace Flaw

def all (fault : Fault) : Flaw := ⟨fault, fault, some fault⟩

/-- The text ended inside a number. -/
def cutNumber : Flaw := ⟨.ended, .malformed, some .malformed⟩

/-- The text ended inside `null`, `true` or `false`. -/
def cutWord : Flaw := ⟨.ended, .malformed, some .ended⟩

/-- Well formed, and no value: a number beyond all range, or text with half a surrogate pair. -/
def noValue : Flaw := ⟨.malformed, .malformed, none⟩

end Flaw

namespace Draft

/-- The fault met where a value of another type is wanted. -/
def mistyped : Draft → Fault
  | .flawed flaw => flaw.read
  | _ => .mistyped

mutual

def ofJson : Json → Draft
  | .null => .null
  | .bool value => .bool value
  | .integer value => .integer value
  | .decimal negative digits exponent => .decimal negative digits exponent
  | .text value => .text value
  | .list items => .list (ofItems items) none
  | .record fields => .record (ofFields fields) none

def ofItems : List Json → List Draft
  | [] => []
  | item :: rest => ofJson item :: ofItems rest

def ofFields : List (String × Json) → List (Except Flaw String × Draft)
  | [] => []
  | (name, value) :: rest => (.ok name, ofJson value) :: ofFields rest

end

mutual

/-- The fault met in a value that nobody wants. -/
def skipFault : Draft → Option Fault
  | .flawed flaw => flaw.skipped
  | .list items stop => (skipItems items).or stop
  | .record fields stop => (skipFields fields).or stop
  | _ => none

def skipItems : List Draft → Option Fault
  | [] => none
  | item :: rest => (skipFault item).or (skipItems rest)

def skipFields : List (Except Flaw String × Draft) → Option Fault
  | [] => none
  | (.ok _, value) :: rest => (skipFault value).or (skipFields rest)
  | (.error flaw, value) :: rest => (flaw.skipped.or (skipFault value)).or (skipFields rest)

end

mutual

/-- The value of a draft without any flaw and at most `depth` containers deep. Of fields with one
name the last counts. -/
def settle? (depth : Nat) : Draft → Option Json
  | .null => some .null
  | .bool value => some (.bool value)
  | .integer value => some (.integer value)
  | .decimal negative digits exponent => some (.decimal negative digits exponent)
  | .text value => some (.text value)
  | .list items none =>
    if depth = 0 then none else (settleItems? (depth - 1) items).map .list
  | .record fields none =>
    if depth = 0 then none else (settleFields? (depth - 1) fields).map .record
  | _ => none

def settleItems? (depth : Nat) : List Draft → Option (List Json)
  | [] => some []
  | item :: rest => do
    let item ← settle? depth item
    let rest ← settleItems? depth rest
    return item :: rest

def settleFields? (depth : Nat) : List (Except Flaw String × Draft) → Option (List (String × Json))
  | [] => some []
  | (.ok name, value) :: rest => do
    let value ← settle? depth value
    let rest ← settleFields? depth rest
    return if rest.any fun field => field.1 = name then rest else (name, value) :: rest
  | (.error _, _) :: _ => none

end

end Draft

end ModuleAtlas
