import ModuleAtlas.Yaml
import ModuleAtlas.Yaml.Lexer

/-! From tokens to YAML documents. -/

namespace ModuleAtlas.Yaml

/-- The tokens to come, the nodes so far, the anchors by name and by number, and what the handles of
tags stand for. -/
structure Progress where
  tokens : List Token
  nodes : Array Node := #[]
  anchors : List (String × Nat) := []
  anchored : List (Nat × Nat) := []
  handles : List (String × Tag) := []

abbrev Builder := StateT Progress Option

namespace Builder

def peek : Builder (Option Token) :=
  return (← get).tokens.head?

def pass : Builder Unit :=
  modify fun p => { p with tokens := p.tokens.tail }

/-- Whether the next token is one of these. -/
def meets (tokens : List Token) : Builder Bool :=
  return (← peek).any (· ∈ tokens)

def add (node : Node) : Builder Nat := do
  let p ← get
  set { p with nodes := p.nodes.push node }
  return p.nodes.size

def fill (place : Nat) (node : Node) : Builder Unit :=
  modify fun p => { p with nodes := p.nodes.setIfInBounds place node }

def standardHandles : List (String × Tag) :=
  [("!", Tag.mark), ("!!", Tag.standard "")]

def resolveTag (handle : String) (rest : Tag) : Builder Tag := do
  if handle = "" then return rest
  match ((← get).handles ++ standardHandles).lookup handle with
  | some lead => return lead ++ rest
  | none => failure

def anchor? : Builder (Option String) := do
  match ← peek with
  | some (.anchor name) => do pass; return some name
  | _ => return none

def tag? : Builder (Option Tag) := do
  match ← peek with
  | some (.tag handle rest) => do pass; return some (← resolveTag handle rest)
  | _ => return none

/-- An anchor and a tag, in either order. -/
def properties : Builder (Option String × Option Tag) := do
  match ← anchor? with
  | some name => return (some name, ← tag?)
  | none =>
    match ← tag? with
    | some tag => return (← anchor?, some tag)
    | none => return (none, none)

/-- Name the node at a place. A name gets the number of names before it. One that comes again gets
a new number, which it shares with the next new name: of all nodes with one number, the last is
meant. -/
def bindAnchor (name : String) (place : Nat) : Builder Unit :=
  modify fun p =>
    let number := p.anchors.length
    { p with
      anchors := (name, number) :: p.anchors.filter (·.1 ≠ name)
      anchored := (number, place) :: p.anchored }

mutual

/-- A node. Lists and maps without brackets stand only in a block, and a list at the indentation
of its key only behind one. -/
def node (inBlock atKey : Bool) : Nat → Builder Nat
  | 0 => failure
  | fuel + 1 => do
    match ← peek with
    | some (.reference name) =>
      pass
      match (← get).anchors.lookup name with
      | some number => add (.reference number)
      | none => failure
    | _ =>
      let (anchor, tag) ← properties
      let place ← add (.scalar .plain tag "")
      if let some name := anchor then bindAnchor name place
      match ← peek, inBlock, atKey with
      | some (.scalar style text), _, _ =>
        pass
        fill place (.scalar style (if tag = some Tag.mark then none else tag) text)
      | some .openList, _, _ =>
        pass
        fill place (.list (← flowItems true fuel))
      | some .openMap, _, _ =>
        pass
        fill place (.map (← flowEntries true fuel))
      | some .blockList, true, _ =>
        pass
        fill place (.list (← blockItems fuel))
      | some .blockMap, true, _ =>
        pass
        fill place (.map (← blockEntries fuel))
      | some .dash, _, true => fill place (.list (← itemsAtKey fuel))
      | _, _, _ => if anchor.isNone && tag.isNone then failure
      return place

/-- A node, or a value left out if the next token is one of these. -/
def nodeUnless (tokens : List Token) (inBlock atKey : Bool) : Nat → Builder Nat
  | 0 => failure
  | fuel + 1 => do if ← meets tokens then add .blank else node inBlock atKey fuel

def blockItems : Nat → Builder (List Nat)
  | 0 => failure
  | fuel + 1 => do
    match ← peek with
    | some .dash =>
      pass
      let item ← nodeUnless [.dash, .blockEnd] true false fuel
      return item :: (← blockItems fuel)
    | some .blockEnd => do pass; return []
    | _ => failure

def itemsAtKey : Nat → Builder (List Nat)
  | 0 => failure
  | fuel + 1 => do
    match ← peek with
    | some .dash =>
      pass
      let item ← nodeUnless [.dash, .key, .colon, .blockEnd] true false fuel
      return item :: (← itemsAtKey fuel)
    | _ => return []

def blockEntries : Nat → Builder (List (Nat × Nat))
  | 0 => failure
  | fuel + 1 => do
    match ← peek with
    | some .key =>
      pass
      let name ← nodeUnless [.key, .colon, .blockEnd] true true fuel
      let value ← valueUnless [.key, .colon, .blockEnd] true fuel
      return (name, value) :: (← blockEntries fuel)
    | some .blockEnd => do pass; return []
    | _ => failure

/-- The value behind a colon, if there is one. -/
def valueUnless (tokens : List Token) (inBlock : Bool) : Nat → Builder Nat
  | 0 => failure
  | fuel + 1 => do
    if ← meets [.colon] then
      pass
      nodeUnless tokens inBlock inBlock fuel
    else add .blank

/-- The rest of a list in brackets. An item may be a map of one entry without brackets; a question
mark without a key takes the next token with it. -/
def flowItems (first : Bool) : Nat → Builder (List Nat)
  | 0 => failure
  | fuel + 1 => do
    if ← meets [.closeList] then
      pass
      return []
    if !first then
      if ← meets [.comma] then pass else failure
    match ← peek with
    | some .closeList => do pass; return []
    | some .key =>
      pass
      let item ← add .blank
      let name ←
        if ← meets [.colon, .comma, .closeList] then do pass; add .blank
        else node false false fuel
      let value ← valueUnless [.comma, .closeList] false fuel
      fill item (.map [(name, value)])
      return item :: (← flowItems false fuel)
    | _ =>
      let item ← node false false fuel
      return item :: (← flowItems false fuel)

/-- The rest of a map in brackets. A key may stand alone. -/
def flowEntries (first : Bool) : Nat → Builder (List (Nat × Nat))
  | 0 => failure
  | fuel + 1 => do
    if ← meets [.closeMap] then
      pass
      return []
    if !first then
      if ← meets [.comma] then pass else failure
    match ← peek with
    | some .closeMap => do pass; return []
    | some .key =>
      pass
      let name ← nodeUnless [.colon, .comma, .closeMap] false false fuel
      let value ← valueUnless [.comma, .closeMap] false fuel
      return (name, value) :: (← flowEntries false fuel)
    | _ =>
      let name ← node false false fuel
      let value ← add .blank
      return (name, value) :: (← flowEntries false fuel)

end

/-- The directives before a document. There is at most one version and one meaning of a handle. -/
def directives (versioned : Bool) : Nat → Builder Unit
  | 0 => failure
  | fuel + 1 => do
    match ← peek with
    | some (.version major minor) =>
      if versioned || major ≠ 1 || (minor ≠ 1 && minor ≠ 2) then failure
      pass
      directives true fuel
    | some (.handle name lead) =>
      if ((← get).handles.lookup name).isSome then failure
      modify fun p => { p with handles := (name, lead) :: p.handles }
      pass
      directives versioned fuel
    | _ => pure ()

def passEnds : Nat → Builder Unit
  | 0 => failure
  | fuel + 1 => do
    if ← meets [.documentEnd] then
      pass
      passEnds fuel

/-- The one document of a text, with or without marks around it. A text without any is an empty
document. -/
def document (fuel : Nat) : Builder Nat := do
  let root ← match ← peek with
    | none => add .blank
    | some (.version ..) | some (.handle ..) | some .documentStart => do
      directives false fuel
      if ← meets [.documentStart] then pass else failure
      match ← peek with
      | none | some .documentEnd => add .blank
      | _ => node true false fuel
    | _ => node true false fuel
  passEnds fuel
  if (← peek).isSome then failure
  return root

end Builder

/-- How much a node counts for the size of a document. -/
def Node.weight : Node → Nat
  | .scalar .. | .reference _ => 1
  | .list _ | .map _ => 2

/-- A hundred references may be followed for each mark of the document. -/
def hopLimit (nodes : Array Node) : Nat :=
  100 * nodes.foldl (fun weight node => weight + node.weight) 0

def parse? (text : String) : Option Yaml := do
  let tokens ← tokens? text
  let (place, progress) ← (Builder.document (4 * tokens.length + 4)).run { tokens }
  let document : Document :=
    { nodes := progress.nodes, anchored := progress.anchored, hopLimit := hopLimit progress.nodes }
  return { document, place }

end ModuleAtlas.Yaml
