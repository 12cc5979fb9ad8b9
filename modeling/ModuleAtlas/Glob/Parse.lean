import ModuleAtlas.Glob

/-! Glob patterns as text. -/

namespace ModuleAtlas.Glob

/-- What is wrong with a pattern. -/
inductive PatternError where
  | unclosedClass
  | invalidRange (low high : Char)
  | unopenedChoice
  | unclosedChoice
  | danglingEscape
  deriving DecidableEq, Repr

def PatternError.message : PatternError → String
  | unclosedClass => "unclosed character class; missing ']'"
  | invalidRange low high =>
    "invalid range; '" ++ String.singleton low ++ "' > '" ++ String.singleton high ++ "'"
  | unopenedChoice =>
    "unopened alternate group; missing '\x7b' (maybe escape '\x7d' with '[\x7d]'?)"
  | unclosedChoice =>
    "unclosed alternate group; missing '\x7d' (maybe escape '\x7b' with '[\x7b]'?)"
  | danglingEscape => "dangling '\\'"

/-- The rest of a class. `ranges` holds what was read so far, last first; `waiting` tells that a
dash waits for the end of its range. A bracket or a dash that comes first is meant literally. -/
def parseRanges (first waiting : Bool) (ranges : List (Char × Char)) :
    List Char → Except PatternError (List (Char × Char) × List Char)
  | [] => .error .unclosedClass
  | c :: rest =>
    if c = ']' ∧ !first then
      .ok ((if waiting then ('-', '-') :: ranges else ranges).reverse, rest)
    else if c = '-' ∧ !first ∧ !waiting then parseRanges false true ranges rest
    else
      match waiting, ranges with
      | true, (low, _) :: before =>
        if c < low then .error (.invalidRange low c)
        else parseRanges false false ((low, c) :: before) rest
      | _, _ => parseRanges false false ((c, c) :: ranges) rest

def parseClass (cs : List Char) : Except PatternError (Token × List Char) :=
  let (negated, cs) := match cs with
    | '!' :: rest => (true, rest)
    | '^' :: rest => (true, rest)
    | _ => (false, cs)
  (parseRanges true false [] cs).map fun (ranges, rest) => (.oneOf negated ranges, rest)

/-- What the parser has read: the branches of the innermost choice that are complete, the tokens
of the branch it is in, and the same of every choice around it. Tokens stand last first. -/
structure Progress where
  done : List (List Token) := []
  current : List Token := []
  outer : List (List (List Token) × List Token) := []
  previous : Option Char := none

namespace Progress

def push (p : Progress) (token : Token) : Progress :=
  { p with current := token :: p.current }

def inChoice (p : Progress) : Bool :=
  !p.outer.isEmpty

def openChoice (p : Progress) : Progress :=
  { p with done := [], current := [], outer := (p.done, p.current) :: p.outer }

def nextBranch (p : Progress) : Progress :=
  { p with done := p.done ++ [p.current.reverse], current := [] }

def closeChoice (p : Progress) : Except PatternError Progress :=
  match p.outer with
  | [] => .error .unopenedChoice
  | (done, current) :: outer =>
    let choice := Token.choice (p.done ++ [p.current.reverse])
    .ok { p with done, current := choice :: current, outer }

/-- Put folders in the place of the token before, which was a slash; folders that already reach
that far stay. -/
def foldersInstead (p : Progress) (folders : Token) : Progress :=
  match p.current with
  | .leadingFolders :: _ => p
  | .trailingFolders :: _ => p
  | _ :: before => { p with current := folders :: before }
  | [] => p

/-- Two stars, of which `rest` follows. They stand for folders at the start of a branch, and
behind a slash or, in a choice, behind a comma or a brace; and only if a slash or the end of the
branch follows. Otherwise they are just two stars. A slash that belongs to them is taken in. -/
def pushFolders (p : Progress) (rest : List Char) : Progress × List Char :=
  let read (p : Progress) (c : Char) : Progress := { p with previous := some c }
  let twoStars := (read ((p.push .star).push .star) '*', rest)
  if p.current.isEmpty then
    match rest with
    | [] => (read (p.push .leadingFolders) '*', [])
    | '/' :: after => (read (p.push .leadingFolders) '/', after)
    | _ => twoStars
  else if p.previous = some '/' ||
      (p.inChoice && (p.previous = some ',' || p.previous = some '\x7b')) then
    match rest with
    | [] => (read (p.foldersInstead .trailingFolders) '*', [])
    | '/' :: after => (read (p.foldersInstead .innerFolders) '/', after)
    | c :: _ =>
      if p.inChoice && (c = ',' || c = '\x7d') then
        (read (p.foldersInstead .trailingFolders) '*', rest)
      else twoStars
  else twoStars

end Progress

def parseFrom : Nat → Progress → List Char → Except PatternError Progress
  | 0, p, _ => .ok p
  | _ + 1, p, [] => .ok p
  | fuel + 1, p, c :: rest =>
    let read (p : Progress) : Progress := { p with previous := some c }
    match c with
    | '?' => parseFrom fuel (read (p.push .anyByte)) rest
    | '*' =>
      match rest with
      | '*' :: after =>
        let (p, after) := p.pushFolders after
        parseFrom fuel p after
      | _ => parseFrom fuel (read (p.push .star)) rest
    | '[' => do
      let (token, after) ← parseClass rest
      parseFrom fuel { p.push token with previous := some ']' } after
    | '\x7b' => parseFrom fuel (read p.openChoice) rest
    | '\x7d' => do
      let p ← p.closeChoice
      parseFrom fuel (read p) rest
    | ',' => parseFrom fuel (read (if p.inChoice then p.nextBranch else p.push (.literal ','))) rest
    | '\\' =>
      match rest with
      | [] => .error .danglingEscape
      | escaped :: after =>
        parseFrom fuel { p.push (.literal escaped) with previous := some escaped } after
    | c => parseFrom fuel (read (p.push (.literal c))) rest

def parse (ignoreCase : Bool) (pattern : String) : Except PatternError Glob := do
  let cs := pattern.toList
  let p ← parseFrom (cs.length + 1) {} cs
  if p.inChoice then .error .unclosedChoice
  else return { tokens := p.current.reverse, ignoreCase }

end ModuleAtlas.Glob
