import ModuleAtlas.Bridge
import ModuleAtlas.Glob.Expression

/-! Patterns of names that count as local. Those with a fixed start or a fixed end are compared as
texts, and those of a file name with the last part of a path. Of the rest, each that ends in an
extension gets an expression of its own, and all others share one. -/

namespace ModuleAtlas.Exclusion

open Glob (Token)

def isLiteral : Token → Bool
  | .literal _ => true
  | _ => false

def isSlash : Token → Bool
  | .literal c => c = '/'
  | _ => false

/-- Of characters that can follow the dot of an extension. -/
def isPlain : Token → Bool
  | .literal c => c ≠ '.' && c ≠ '/'
  | _ => false

def isFixed (tokens : List Token) : Bool :=
  !tokens.isEmpty && tokens.all isLiteral

/-- A text, alone or before any text or folders. -/
def hasFixedStart (tokens : List Token) : Bool :=
  match tokens.getLast? with
  | some .trailingFolders => tokens.dropLast.all isLiteral
  | some .star => isFixed tokens.dropLast
  | _ => isFixed tokens

/-- A text behind folders or any text. A slash alone is too little behind a star. -/
def hasFixedEnd : List Token → Bool
  | .leadingFolders :: .star :: rest | .star :: rest =>
    isFixed rest && !(rest.length = 1 && rest.all isSlash)
  | .leadingFolders :: rest => isFixed rest
  | _ => false

/-- Whether the tokens end in a dot and what can follow it. -/
def hasExtension (glob : Glob) : Bool :=
  match glob.tokens.reverse.dropWhile isPlain with
  | .literal c :: _ => c = '.'
  | _ => false

/-- A character, or a class, that matches no slash. -/
def staysInFolder : Token → Bool
  | .literal c => c ≠ '/'
  | .oneOf negated ranges => !Glob.inClass false negated ranges Glob.slash
  | _ => false

/-- A file behind folders, or an extension behind any text. -/
def isFileName : List Token → Bool
  | .leadingFolders :: .star :: .literal '.' :: rest | .star :: .literal '.' :: rest =>
    rest.all isPlain
  | .leadingFolders :: rest => !rest.isEmpty && rest.all staysInFolder
  | _ => false

def isGeneral (glob : Glob) : Bool :=
  !hasFixedStart glob.tokens && !hasFixedEnd glob.tokens && !isFileName glob.tokens &&
    !hasExtension glob

/-- Whether a pattern is compared with the file at the end of a path. -/
def concernsFile (glob : Glob) : Bool :=
  isFileName glob.tokens ||
    (hasExtension glob && !hasFixedStart glob.tokens && !hasFixedEnd glob.tokens)

/-- A path to a parent folder has no file at its end. -/
def endsInParent (name : String) : Bool :=
  (Text.pieces (· = '/') name.toList).getLast? = some ['.', '.']

def accepts (glob : Glob) (name : String) : Bool :=
  glob.accepts name && !(endsInParent name && concernsFile glob)

/-- A pattern can be sound by itself and yet nest too deep for an expression. -/
def compile (patterns : List String) : Except SettingsFlaw (List Glob) := do
  let globs ← patterns.mapM fun pattern =>
    (Glob.parse false pattern).mapError (.invalidExclusion pattern)
  if let some glob := globs.find? fun glob => hasExtension glob && glob.isTooDeep then
    throw (.deepExpression glob.expression)
  if let some place := (globs.filter isGeneral).findIdx? Glob.isTooDeep then
    throw (.deepExclusion place)
  return globs

end ModuleAtlas.Exclusion
