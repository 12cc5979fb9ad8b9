import ModuleAtlas.Yaml.Token

/-! Anchors and tags, which stand before a node, and directives, which stand before a document. -/

namespace ModuleAtlas.Yaml

def isNameChar (c : Char) : Bool :=
  c.isAlphanum || c = '_' || c = '-'

/-- The name of an anchor, from its mark on. -/
def anchorName (cursor : Cursor) : Option (String × Cursor) :=
  let cursor := cursor.skip 1
  let name := cursor.rest.takeWhile isNameChar
  let cursor := cursor.skip name.length
  let ends := endsWord cursor.rest ||
    cursor.rest.head?.any (· ∈ ['?', ':', ',', ']', '\x7d', '%', '@', '\x60'])
  if name.isEmpty || !ends then none else some (String.ofList name, cursor)

/-- Brackets and commas belong to a tag only where it is written out in full. -/
def isTagChar (full : Bool) (c : Char) : Bool :=
  isNameChar c || c ∈ ";/?:@&=+$.!~*'()".toList || (full && c ∈ [',', '[', ']'])

/-- The tag behind what was read of it, last byte first. -/
def tagBytes (full : Bool) : Nat → Tag → Cursor → Option (Tag × Cursor)
  | 0, _, _ => none
  | fuel + 1, read, cursor =>
    match cursor.rest with
    | [] => some (read.reverse, cursor)
    | '%' :: _ => do
      let octets ← Tag.octets? cursor.rest
      tagBytes full fuel (octets.reverse ++ read) (cursor.skip (3 * octets.length))
    | c :: _ =>
      if isTagChar full c then tagBytes full fuel (UInt8.ofNat c.toNat :: read) (cursor.skip 1)
      else some (read.reverse, cursor)

/-- A tag, of which something has to be written. -/
def someTag (full : Bool) (cursor : Cursor) : Option (Tag × Cursor) := do
  let (bytes, cursor) ← tagBytes full (cursor.size + 1) [] cursor
  if bytes.isEmpty then none else return (Tag.cut bytes, cursor)

/-- From an exclamation mark on: the name behind it, and whether another mark closes the name. -/
def tagHandle (cursor : Cursor) : List Char × Bool × Cursor :=
  let cursor := cursor.skip 1
  let name := cursor.rest.takeWhile isNameChar
  let cursor := cursor.skip name.length
  if cursor.rest.head? = some '!' then (name, true, cursor.skip 1) else (name, false, cursor)

def handleText (name : List Char) : String :=
  String.ofList ('!' :: name ++ ['!'])

/-- The handle and the rest of a tag. One written out in full has no handle, and neither has the
mark alone. -/
def tagParts (cursor : Cursor) : Option (String × Tag × Cursor) :=
  if (cursor.rest.drop 1).head? = some '<' then do
    let (tag, cursor) ← someTag true (cursor.skip 2)
    if cursor.rest.head? = some '>' then return ("", tag, cursor.skip 1) else none
  else
    match tagHandle cursor with
    | (name, true, cursor) => do
      let (tag, cursor) ← someTag false cursor
      return (handleText name, tag, cursor)
    | (name, false, cursor) => do
      let start := Tag.ofText (String.ofList name)
      let (bytes, cursor) ← tagBytes false (cursor.size + 1) start.reverse cursor
      let tag := Tag.cut bytes
      if tag.isEmpty then return ("", Tag.mark, cursor) else return ("!", tag, cursor)

def tag (flow : Bool) (cursor : Cursor) : Option (Token × Cursor) := do
  let (handle, rest, cursor) ← tagParts cursor
  if endsWord cursor.rest || (flow && cursor.rest.head? = some ',') then
    return (.tag handle rest, cursor)
  else none

/-- A part of a version number, of at most nine digits. -/
def versionPart (cursor : Cursor) : Option (Nat × Cursor) :=
  let digits := cursor.rest.takeWhile Char.isDigit
  if digits.isEmpty || 9 < digits.length then none
  else some (digits.foldl (fun n c => n * 10 + (c.toNat - 48)) 0, cursor.skip digits.length)

def versionValue (cursor : Cursor) : Option (Token × Cursor) := do
  let (major, cursor) ← versionPart (cursor.skipWhile isBlank)
  if cursor.rest.head? ≠ some '.' then none
  let (minor, cursor) ← versionPart (cursor.skip 1)
  return (.version major minor, cursor)

def handleValue (cursor : Cursor) : Option (Token × Cursor) := do
  let cursor := cursor.skipWhile isBlank
  if cursor.rest.head? ≠ some '!' then none
  let (name, closed, cursor) := tagHandle cursor
  if !closed && !name.isEmpty then none
  if !(cursor.rest.head?.any isBlank) then none
  let (lead, cursor) ← someTag true (cursor.skipWhile isBlank)
  if !endsWord cursor.rest then none
  return (.handle (if closed then handleText name else "!") lead, cursor)

/-- A whole line, from its percent sign on. -/
def directive (cursor : Cursor) : Option (Token × Cursor) := do
  let cursor := cursor.skip 1
  let name := cursor.rest.takeWhile isNameChar
  let cursor := cursor.skip name.length
  if !endsWord cursor.rest then none
  let (token, cursor) ←
    if name = "YAML".toList then versionValue cursor
    else if name = "TAG".toList then handleValue cursor
    else none
  return (token, ← cursor.endLine)

end ModuleAtlas.Yaml
