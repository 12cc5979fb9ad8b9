import ModuleAtlas.Text.Cut

/-! A place in a YAML text. -/

namespace ModuleAtlas.Yaml

/-- `size` is the length of the whole text. `offset` counts the bytes passed, `column` the
characters of the line. -/
structure Cursor where
  size : Nat
  rest : List Char
  offset : Nat := 0
  line : Nat := 0
  column : Nat := 0

/-- The characters a text may hold. -/
def isAllowed (c : Char) : Bool :=
  let n := c.toNat
  n = 0x9 || n = 0xA || n = 0xD || (0x20 ≤ n && n ≤ 0x7E) || n = 0x85 || (0xA0 ≤ n && n ≤ 0xFFFD) ||
    0x10000 ≤ n

def isBreak (c : Char) : Bool :=
  c = '\n' || c = '\r' || c = '\x85' || c = '\u2028' || c = '\u2029'

def isBlank (c : Char) : Bool :=
  c = ' ' || c = '\t'

/-- Whether a word ends here. -/
def endsWord : List Char → Bool
  | [] => true
  | c :: _ => isBlank c || isBreak c

namespace Cursor

def start (text : List Char) : Cursor :=
  { size := text.length, rest := text }

/-- Pass `n` characters of the line. -/
def skip (cursor : Cursor) (n : Nat) : Cursor :=
  { cursor with
    rest := cursor.rest.drop n
    offset := cursor.offset + Text.byteLength (cursor.rest.take n)
    column := cursor.column + n }

def skipWhile (p : Char → Bool) (cursor : Cursor) : Cursor :=
  cursor.skip (cursor.rest.takeWhile p).length

/-- How many characters the line break here has; a carriage return and a line feed are one. -/
def breakLength (cursor : Cursor) : Nat :=
  match cursor.rest with
  | '\r' :: '\n' :: _ => 2
  | c :: _ => if isBreak c then 1 else 0
  | [] => 0

/-- Pass the line break here. -/
def nextLine (cursor : Cursor) : Cursor :=
  { cursor.skip cursor.breakLength with line := cursor.line + 1, column := 0 }

/-- The character that a line break counts for. -/
def breakChar (cursor : Cursor) : Char :=
  match cursor.rest with
  | '\u2028' :: _ => '\u2028'
  | '\u2029' :: _ => '\u2029'
  | _ => '\n'

/-- Whether the line is a mark between documents made of three times `c`. -/
def atMark (c : Char) (cursor : Cursor) : Bool :=
  cursor.column = 0 && [c, c, c].isPrefixOf cursor.rest && endsWord (cursor.rest.drop 3)

def atDocumentMark (cursor : Cursor) : Bool :=
  cursor.atMark '-' || cursor.atMark '.'

/-- Pass the blanks and the comment that may end a line. Nothing else may stand there. -/
def endLine (cursor : Cursor) : Option Cursor :=
  let cursor := cursor.skipWhile isBlank
  let cursor :=
    if cursor.rest.head? = some '#' then cursor.skipWhile fun c => !isBreak c else cursor
  match cursor.rest with
  | [] => some cursor
  | c :: _ => if isBreak c then some cursor.nextLine else none

end Cursor

end ModuleAtlas.Yaml
