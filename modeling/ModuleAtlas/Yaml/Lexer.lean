import ModuleAtlas.Yaml.Property

/-! From YAML text to tokens. A key shows only by the colon behind it, so the lexer remembers where
one may have begun and puts the tokens in front of it later. -/

namespace ModuleAtlas.Yaml

/-- Where a key may have begun: how many tokens stand before it, and its place in the text. It is
`required` where nothing but a key can stand. -/
structure KeyStart where
  required : Bool
  before : Nat
  offset : Nat
  line : Nat
  column : Nat

/-- `tokens` holds the last token first. `indent` is the column of the block at hand, and `outer`
the columns around it. Each open bracket has a key of its own; `outerKeys` has one for each. -/
structure Lexer where
  cursor : Cursor
  tokens : List Token := []
  count : Nat := 0
  indent : Int := -1
  outer : List Int := []
  keyAllowed : Bool := true
  key : Option KeyStart := none
  outerKeys : List (Option KeyStart) := []

/-- A key has one line and at most this many bytes. -/
def keyLimit : Nat := 1024

def KeyStart.isStale (key : KeyStart) (cursor : Cursor) : Bool :=
  key.line < cursor.line || key.offset + keyLimit < cursor.offset

namespace Lexer

def inFlow (l : Lexer) : Bool :=
  !l.outerKeys.isEmpty

def skip (l : Lexer) (n : Nat) : Lexer :=
  { l with cursor := l.cursor.skip n }

/-- Put a token in front of all but the first `before`. -/
def insert (l : Lexer) (before : Nat) (token : Token) : Lexer :=
  let behind := l.count - before
  { l with
    tokens := l.tokens.take behind ++ token :: l.tokens.drop behind
    count := l.count + 1 }

def push (l : Lexer) (token : Token) : Lexer :=
  { l with tokens := token :: l.tokens, count := l.count + 1 }

/-- Open a block if `column` lies further in than the one at hand. -/
def openBlock (l : Lexer) (column before : Nat) (token : Token) : Lexer :=
  if l.inFlow || column ≤ l.indent then l
  else { l.insert before token with indent := column, outer := l.indent :: l.outer }

def closeFrom (column : Int) : List Int → Lexer → Lexer
  | [], l => l
  | up :: outer, l =>
    if column < l.indent then closeFrom column outer { l.push .blockEnd with indent := up, outer }
    else l

/-- Close the blocks further in than `column`. -/
def closeBlocks (l : Lexer) (column : Int) : Lexer :=
  if l.inFlow then l else closeFrom column l.outer l

/-- Pass blanks, comments and line breaks. A tab is no indentation. A byte order mark may begin a
line. -/
def passSpace : Nat → Lexer → Lexer
  | 0, l => l
  | fuel + 1, l =>
    match l.cursor.rest with
    | [] => l
    | c :: _ =>
      if (c = '\ufeff' && l.cursor.column = 0) || c = ' ' ||
          (c = '\t' && (l.inFlow || !l.keyAllowed)) then
        passSpace fuel (l.skip 1)
      else if c = '#' then
        passSpace fuel { l with cursor := l.cursor.skipWhile fun c => !isBreak c }
      else if isBreak c then
        passSpace fuel
          { l with cursor := l.cursor.nextLine, keyAllowed := l.keyAllowed || !l.inFlow }
      else l

/-- Forget a key that is too far back. -/
def refreshKey (cursor : Cursor) : Option KeyStart → Option (Option KeyStart)
  | none => some none
  | some key =>
    if !key.isStale cursor then some (some key) else if key.required then none else some none

def refreshKeys (l : Lexer) : Option Lexer := do
  let key ← refreshKey l.cursor l.key
  let outerKeys ← l.outerKeys.mapM (refreshKey l.cursor)
  return { l with key, outerKeys }

def dropKey (l : Lexer) : Option Lexer :=
  if l.key.any (·.required) then none else some { l with key := none }

/-- A key may begin here. -/
def markKey (l : Lexer) : Option Lexer :=
  if !l.keyAllowed then some l
  else do
    let l ← l.dropKey
    return { l with key := some {
      required := !l.inFlow && l.indent = l.cursor.column
      before := l.count
      offset := l.cursor.offset
      line := l.cursor.line
      column := l.cursor.column } }

/-- Go to the next token. -/
def approach (l : Lexer) : Option Lexer := do
  let l ← (passSpace (l.cursor.size + 1) l).refreshKeys
  return l.closeBlocks l.cursor.column

def leaveBlocks (l : Lexer) : Option Lexer := do
  let l ← (l.closeBlocks (-1)).dropKey
  return { l with keyAllowed := false }

def documentMark (l : Lexer) (token : Token) : Option Lexer := do
  let l ← l.leaveBlocks
  return (l.push token).skip 3

def directiveLine (l : Lexer) : Option Lexer := do
  let l ← l.leaveBlocks
  let (token, cursor) ← directive l.cursor
  return { l.push token with cursor }

def openFlow (l : Lexer) (token : Token) : Option Lexer := do
  let l ← l.markKey
  return { (l.push token).skip 1 with
    keyAllowed := true, key := none, outerKeys := l.key :: l.outerKeys }

def closeFlow (l : Lexer) (token : Token) : Option Lexer := do
  let l ← l.dropKey
  return { (l.push token).skip 1 with
    keyAllowed := false, key := l.outerKeys.head?.join, outerKeys := l.outerKeys.tail }

def comma (l : Lexer) : Option Lexer := do
  let l ← l.dropKey
  return { (l.push .comma).skip 1 with keyAllowed := true }

/-- Open a block at a dash, a question mark or a lone colon. -/
def openAtMark (l : Lexer) (token : Token) : Option Lexer :=
  if l.inFlow then some l
  else if l.keyAllowed then some (l.openBlock l.cursor.column l.count token)
  else none

def dash (l : Lexer) : Option Lexer := do
  let l ← l.openAtMark .blockList
  let l ← l.dropKey
  return { (l.push .dash).skip 1 with keyAllowed := true }

def questionMark (l : Lexer) : Option Lexer := do
  let l ← l.openAtMark .blockMap
  let l ← l.dropKey
  return { (l.push .key).skip 1 with keyAllowed := !l.inFlow }

def colon (l : Lexer) : Option Lexer := do
  let l ← match l.key with
    | some key =>
      let l := (l.insert key.before .key).openBlock key.column key.before .blockMap
      pure { l with key := none, keyAllowed := false }
    | none =>
      let l ← l.openAtMark .blockMap
      pure { l with keyAllowed := !l.inFlow }
  return (l.push .colon).skip 1

/-- A token that may begin a key. -/
def keyToken (l : Lexer) (read : Cursor → Option (Token × Cursor)) : Option Lexer := do
  let l ← l.markKey
  let (token, cursor) ← read l.cursor
  return { l.push token with cursor, keyAllowed := false }

def named (token : String → Token) (cursor : Cursor) : Option (Token × Cursor) :=
  (anchorName cursor).map fun (name, cursor) => (token name, cursor)

def quotedScalar (mark : Char) (cursor : Cursor) : Option (Token × Cursor) :=
  (quoted mark cursor).map fun (text, cursor) => (.scalar .quoted text, cursor)

def plainScalar (l : Lexer) : Option Lexer := do
  let l ← l.markKey
  let (text, broken, cursor) ← plain l.inFlow (l.indent + 1) l.cursor
  return { l.push (.scalar .plain text) with cursor, keyAllowed := broken }

def blockScalar (l : Lexer) (folded : Bool) : Option Lexer := do
  let l ← l.dropKey
  let (text, cursor) ← block l.indent folded l.cursor
  return { l.push (.scalar (if folded then .folded else .literal) text) with
    cursor, keyAllowed := true }

/-- Characters that start no plain scalar. -/
def isIndicator (c : Char) : Bool :=
  c ∈ ['-', '?', ':', ',', '[', ']', '\x7b', '\x7d', '#', '&', '*', '!', '|', '>', '\'', '"', '%',
    '@', '\x60']

def startsPlain (flow : Bool) (c : Char) (rest : List Char) : Bool :=
  !(isBlank c || isBreak c || isIndicator c) ||
    (c = '-' && !(rest.head?.any isBlank)) ||
    (!flow && (c = '?' || c = ':') && !endsWord rest)

/-- The token that begins with `c`. -/
def token (l : Lexer) (c : Char) (rest : List Char) : Option Lexer :=
  if c = '%' && l.cursor.column = 0 then l.directiveLine
  else if l.cursor.atMark '-' then l.documentMark .documentStart
  else if l.cursor.atMark '.' then l.documentMark .documentEnd
  else if c = '[' then l.openFlow .openList
  else if c = '\x7b' then l.openFlow .openMap
  else if c = ']' then l.closeFlow .closeList
  else if c = '\x7d' then l.closeFlow .closeMap
  else if c = ',' then l.comma
  else if c = '-' && endsWord rest then l.dash
  else if c = '?' && (l.inFlow || endsWord rest) then l.questionMark
  else if c = ':' && (l.inFlow || endsWord rest) then l.colon
  else if c = '*' then l.keyToken (named .reference)
  else if c = '&' then l.keyToken (named .anchor)
  else if c = '!' then l.keyToken (tag l.inFlow)
  else if c = '|' && !l.inFlow then l.blockScalar false
  else if c = '>' && !l.inFlow then l.blockScalar true
  else if c = '\'' || c = '"' then l.keyToken (quotedScalar c)
  else if startsPlain l.inFlow c rest then l.plainScalar
  else none

def run : Nat → Lexer → Option (List Token)
  | 0, _ => none
  | fuel + 1, l => do
    let l ← l.approach
    match l.cursor.rest with
    | [] => return (← l.leaveBlocks).tokens.reverse
    | c :: rest => run fuel (← l.token c rest)

end Lexer

/-- The tokens of a text, if it can be cut into tokens. -/
def tokens? (text : String) : Option (List Token) :=
  let cs := text.toList
  if cs.all isAllowed then Lexer.run (cs.length + 1) { cursor := .start cs } else none

end ModuleAtlas.Yaml
