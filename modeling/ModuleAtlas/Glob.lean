import ModuleAtlas.Text.Case

/-! Glob patterns over the bytes of a text. A star and a question mark match a slash too. -/

namespace ModuleAtlas

namespace Glob

inductive Token where
  | literal (c : Char)
  | anyByte
  | star
  /-- Nothing, or any text up to and including a slash. -/
  | leadingFolders
  /-- A slash and any text. -/
  | trailingFolders
  /-- A slash, or two with any text between. -/
  | innerFolders
  | oneOf (negated : Bool) (ranges : List (Char × Char))
  | choice (branches : List (List Token))

abbrev Bytes := List UInt8

def bytesOf (s : String) : Bytes :=
  s.toList.flatMap String.utf8EncodeChar

def isUpper (b : UInt8) : Bool :=
  65 ≤ b && b ≤ 90

def isLower (b : UInt8) : Bool :=
  97 ≤ b && b ≤ 122

/-- The same letter in the other case. -/
def otherCase (b : UInt8) : UInt8 :=
  if isUpper b then b + 32 else if isLower b then b - 32 else b

def sameByte (ignoreCase : Bool) (a b : UInt8) : Bool :=
  a = b || (ignoreCase && otherCase a = b)

/-- A character in a class stands for each of its bytes; around the dash of a range the last byte
of the one and the first of the other make the range. -/
def rangeBytes (low high : Char) : List (UInt8 × UInt8) :=
  let lows := String.utf8EncodeChar low
  let highs := String.utf8EncodeChar high
  if low = high then lows.map fun b => (b, b)
  else
    (lows.dropLast.map fun b => (b, b)) ++
      (lows.getLast?.toList.zip highs.head?.toList) ++ (highs.drop 1).map fun b => (b, b)

def inClass (ignoreCase negated : Bool) (ranges : List (Char × Char)) (b : UInt8) : Bool :=
  let bytes := ranges.flatMap fun (low, high) => rangeBytes low high
  let holds (b : UInt8) := bytes.any fun (low, high) => low ≤ b && b ≤ high
  (holds b || (ignoreCase && holds (otherCase b))) != negated

def slash : UInt8 := 47

/-- All of two ascending lists, ascending. -/
def union : List Nat → List Nat → List Nat
  | [], ys => ys
  | xs, [] => xs
  | x :: xs, y :: ys =>
    if x < y then x :: union xs (y :: ys)
    else if y < x then y :: union (x :: xs) ys
    else x :: union xs ys
termination_by xs ys => xs.length + ys.length

/-- Whether the bytes stand in the text from a place on. -/
def standsAt (ignoreCase : Bool) (text : Array UInt8) : Nat → Bytes → Bool
  | _, [] => true
  | place, b :: bytes =>
    (text[place]?.any fun found => sameByte ignoreCase b found) &&
      standsAt ignoreCase text (place + 1) bytes

/-- The places from one on, to the end of the text. -/
def placesFrom (text : Array UInt8) (place : Nat) : List Nat :=
  List.range' place (text.size + 1 - place)

/-- The places behind the slashes from one place on. -/
def behindSlashes (text : Array UInt8) (place : Nat) : List Nat :=
  ((placesFrom text place).filter fun i => text[i]? = some slash).map (· + 1)

mutual

/-- A branch without any effect: no token in it but choices without any. -/
def isVoid : List Token → Bool
  | [] => true
  | .choice branches :: rest => allVoid branches && isVoid rest
  | _ :: _ => false

def allVoid : List (List Token) → Bool
  | [] => true
  | branch :: rest => isVoid branch && allVoid rest

end

mutual

/-- Where a token can end that begins at one of some places. Places are ascending. -/
def Token.ends (ignoreCase : Bool) (text : Array UInt8) (places : List Nat) : Token → List Nat
  | .literal c =>
    let bytes := String.utf8EncodeChar c
    (places.filter fun place => standsAt ignoreCase text place bytes).map (· + bytes.length)
  | .anyByte => (places.filter (· < text.size)).map (· + 1)
  | .star =>
    match places with
    | [] => []
    | place :: _ => placesFrom text place
  | .leadingFolders =>
    match places with
    | [] => []
    | place :: _ => union places (behindSlashes text place)
  | .trailingFolders =>
    match places.find? fun place => text[place]? = some slash with
    | none => []
    | some place => placesFrom text (place + 1)
  | .innerFolders =>
    match places.find? fun place => text[place]? = some slash with
    | none => []
    | some place => behindSlashes text place
  | .oneOf negated ranges =>
    (places.filter fun place => text[place]?.any (inClass ignoreCase negated ranges)).map (· + 1)
  | .choice branches =>
    if allVoid branches then places else branchEnds ignoreCase text places branches

def sequenceEnds (ignoreCase : Bool) (text : Array UInt8) (places : List Nat) :
    List Token → List Nat
  | [] => places
  | token :: rest =>
    sequenceEnds ignoreCase text (token.ends ignoreCase text places) rest

/-- Where one of the branches can end. Branches without effect do not count. -/
def branchEnds (ignoreCase : Bool) (text : Array UInt8) (places : List Nat) :
    List (List Token) → List Nat
  | [] => []
  | branch :: rest =>
    union (if isVoid branch then [] else sequenceEnds ignoreCase text places branch)
      (branchEnds ignoreCase text places rest)

end

end Glob

structure Glob where
  tokens : List Glob.Token
  ignoreCase : Bool

/-- A pattern matches a text as a whole. One that is only leading folders matches every text. -/
def Glob.accepts (glob : Glob) (text : String) : Bool :=
  match glob.tokens with
  | [.leadingFolders] => true
  | tokens =>
    let text := (Glob.bytesOf text).toArray
    text.size ∈ Glob.sequenceEnds glob.ignoreCase text [0] tokens

end ModuleAtlas
