/-! Measuring texts, cutting them into pieces, and finding one in another. -/

namespace ModuleAtlas.Text

/-- How many bytes the characters take. -/
def byteLength (cs : List Char) : Nat :=
  cs.foldr (fun c bytes => c.utf8Size + bytes) 0

/-- The pieces between the characters that satisfy `p`, empty ones included. -/
def pieces (p : Char → Bool) : List Char → List (List Char)
  | [] => [[]]
  | c :: cs =>
    if p c then [] :: pieces p cs
    else
      match pieces p cs with
      | [] => [[c]]
      | piece :: rest => (c :: piece) :: rest

/-- The last piece that `keep` accepts. -/
def lastPiece? (keep : List Char → Bool) (p : Char → Bool) (cs : List Char) : Option (List Char) :=
  (pieces p cs).reverse.find? keep

/-- What follows `head`, if the text starts with it. -/
def after? : List Char → List Char → Option (List Char)
  | [], cs => some cs
  | _ :: _, [] => none
  | h :: head, c :: cs => if c = h then after? head cs else none

/-- The texts before and behind the first place where `mark` stands. -/
def splitOnce? (mark : List Char) : List Char → Option (List Char × List Char)
  | [] => (after? mark []).map fun rest => ([], rest)
  | c :: cs =>
    match after? mark (c :: cs) with
    | some rest => some ([], rest)
    | none => (splitOnce? mark cs).map fun (before, rest) => (c :: before, rest)

def includesChars (part : List Char) : List Char → Bool
  | [] => part.isEmpty
  | c :: cs => part.isPrefixOf (c :: cs) || includesChars part cs

def includes (whole part : String) : Bool :=
  includesChars part.toList whole.toList

end ModuleAtlas.Text
