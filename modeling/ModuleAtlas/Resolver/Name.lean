import ModuleAtlas.Text.Alphanumeric
import ModuleAtlas.Text.Blank
import ModuleAtlas.Text.Cut

/-! The parts of a reference's name. -/

namespace ModuleAtlas.RefName

/-- Marks of pointers, references and decorators. -/
def isSigil (c : Char) : Bool :=
  ['*', '&', '@', '!', '~'].contains c

/-- Marks between the parts of a qualified name. -/
def isSeparator (c : Char) : Bool :=
  ['.', ':', '/', '-', '>'].contains c

def isIdentifierChar (c : Char) : Bool :=
  Text.isAlphanumeric c || c = '_' || c = '$'

/-- A name without the sigils at its start. -/
def stripSigils (name : String) : String :=
  String.ofList (((Text.trimChars name.toList).dropWhile isSigil).dropWhile Text.isBlank)

/-- The identifier a name starts with: `a` of `a.b()`, `a::b` and `a[0]`. -/
def leadingIdentifier (name : String) : String :=
  String.ofList (name.toList.takeWhile isIdentifierChar)

/-- What follows a qualifier and the separators behind it. A call of the qualifier or an index
into it leaves nothing. -/
def stripQualifier? (name qualifier : String) : Option String :=
  if qualifier = "" then none
  else
    match Text.after? qualifier.toList name.toList with
    | none => none
    | some [] => some ""
    | some (c :: rest) =>
      if c = '(' || c = '[' then some ""
      else if isSeparator c then some (String.ofList (rest.dropWhile isSeparator))
      else none

def hasSeparator (name : String) : Bool :=
  name.toList.any isSeparator

end ModuleAtlas.RefName
