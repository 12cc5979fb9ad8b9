import ModuleAtlas.Yaml.Scalar

/-! Tags of nodes. They are bytes, since a percent sign and two digits spell any byte, also where
the bytes make no text. -/

namespace ModuleAtlas.Yaml

abbrev Tag := List UInt8

namespace Tag

def ofText (text : String) : Tag :=
  text.toUTF8.data.toList

/-- A tag ends before a zero byte. -/
def cut (tag : Tag) : Tag :=
  tag.takeWhile (· ≠ 0)

/-- The mark alone. -/
def mark : Tag := ofText "!"

/-- The tag of one of the types that every document knows. -/
def standard (type : String) : Tag :=
  ofText ("tag:yaml.org,2002:" ++ type)

/-- A byte written as a percent sign and two digits. -/
def octet? : List Char → Option UInt8
  | '%' :: digits => (hexDigits? 2 digits).map UInt8.ofNat
  | _ => none

/-- How many more bytes belong to the same character as a first one. -/
def following? (octet : UInt8) : Option Nat :=
  if octet < 0x80 then some 0
  else if octet < 0xC0 then none
  else if octet < 0xE0 then some 1
  else if octet < 0xF0 then some 2
  else if octet < 0xF8 then some 3
  else none

def trailing? : Nat → List Char → Option Tag
  | 0, _ => some []
  | more + 1, cs => do
    let octet ← octet? cs
    if octet / 64 = 2 then return octet :: (← trailing? more (cs.drop 3)) else none

/-- The bytes of one character. Which character they spell, and whether any, is left open. -/
def octets? (cs : List Char) : Option Tag := do
  let octet ← octet? cs
  let rest ← trailing? (← following? octet) (cs.drop 3)
  return octet :: rest

end Tag

end ModuleAtlas.Yaml
