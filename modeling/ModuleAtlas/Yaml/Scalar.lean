import ModuleAtlas.Yaml.Cursor

/-! Scalars of a YAML text: plain, quoted, and whole blocks of lines. Where lines are folded, a
single line break counts as a space, and of several all but the first stay. -/

namespace ModuleAtlas.Yaml

inductive Style where
  | plain
  | quoted
  | literal
  | folded
  deriving DecidableEq, Repr

/-- What stands for the blanks and breaks between two words of a scalar. Blanks count only where
no line break follows them. -/
def fold (blanks breaks : List Char) : List Char :=
  match breaks with
  | [] => blanks
  | first :: [] => if first = '\n' then [' '] else [first]
  | first :: more => if first = '\n' then more else first :: more

/-- Pass blanks and breaks. The breaks are collected, last first; none if a tab stands in the
indentation of a line. -/
def passBreaks (limit : Int) : Nat → List Char → Cursor → Option (List Char × Cursor)
  | 0, _, _ => none
  | fuel + 1, breaks, cursor =>
    match cursor.rest with
    | c :: _ =>
      if isBlank c then
        if c = '\t' && cursor.column < limit then none
        else passBreaks limit fuel breaks (cursor.skip 1)
      else if isBreak c then
        passBreaks limit fuel (cursor.breakChar :: breaks) cursor.nextLine
      else some (breaks.reverse, cursor)
    | [] => some (breaks.reverse, cursor)

/-- Pass the gap between two words: the blanks before the first break, and the breaks. -/
def passGap (limit : Int) (cursor : Cursor) : Option (List Char × List Char × Cursor) :=
  let blanks := cursor.rest.takeWhile isBlank
  let cursor := cursor.skip blanks.length
  if cursor.rest.head?.any isBreak then
    (passBreaks limit (cursor.size + 1) [] cursor).map fun (breaks, cursor) =>
      (blanks, breaks, cursor)
  else some (blanks, [], cursor)

def isFlowMark (c : Char) : Bool :=
  c = ',' || c = '[' || c = ']' || c = '\x7b' || c = '\x7d'

/-- A word of a plain scalar. A colon ends it before a blank, and may not stand before a mark of
a flow collection. -/
def plainWord (flow : Bool) : List Char → Option (List Char)
  | [] => some []
  | c :: rest =>
    if isBlank c || isBreak c then some []
    else if flow && isFlowMark c then some []
    else if c = ':' && endsWord rest then some []
    else if flow && c = ':' && (rest.head?.any fun next => isFlowMark next || next = '?') then none
    else (plainWord flow rest).map (c :: ·)

/-- A plain scalar goes on over lines that are indented to `limit` or further, and in a flow
collection over all. `text` holds what was read, last first, and `broken` tells whether a line
break stands behind it. -/
def plainFrom (flow : Bool) (limit : Int) :
    Nat → List Char → List Char → Bool → Cursor → Option (String × Bool × Cursor)
  | 0, _, _, _, _ => none
  | fuel + 1, text, gap, broken, cursor =>
    let done (text : List Char) (broken : Bool) (cursor : Cursor) :=
      some (String.ofList text.reverse, broken, cursor)
    if cursor.atDocumentMark || cursor.rest.head? = some '#' then done text broken cursor
    else do
      let word ← plainWord flow cursor.rest
      if word.isEmpty then done text broken cursor
      else
        let text := word.reverse ++ (gap.reverse ++ text)
        let (blanks, breaks, cursor) ← passGap limit (cursor.skip word.length)
        let broken := !breaks.isEmpty
        if blanks.isEmpty && breaks.isEmpty then done text broken cursor
        else if !flow && cursor.column < limit then done text broken cursor
        else plainFrom flow limit fuel text (fold blanks breaks) broken cursor

def plain (flow : Bool) (limit : Int) (cursor : Cursor) : Option (String × Bool × Cursor) :=
  plainFrom flow limit (cursor.size + 1) [] [] false cursor

def hexValue? (c : Char) : Option Nat :=
  if '0' ≤ c ∧ c ≤ '9' then some (c.toNat - 48)
  else if 'a' ≤ c ∧ c ≤ 'f' then some (c.toNat - 87)
  else if 'A' ≤ c ∧ c ≤ 'F' then some (c.toNat - 55)
  else none

/-- The value of the first `n` characters as hexadecimal digits. -/
def hexDigits? (n : Nat) (cs : List Char) : Option Nat :=
  if cs.length < n then none
  else (cs.take n).foldlM (fun v c => (hexValue? c).map (v * 16 + ·)) 0

def codePoint? (n : Nat) (cs : List Char) : Option Char := do
  let value ← hexDigits? n cs
  if (0xD800 ≤ value ∧ value ≤ 0xDFFF) ∨ 0x10FFFF < value then none
  else some (Char.ofNat value)

/-- What follows a backslash: a character, and how long its name is. -/
def escape? : List Char → Option (Char × Nat)
  | '0' :: _ => some ('\x00', 1)
  | 'a' :: _ => some ('\x07', 1)
  | 'b' :: _ => some ('\x08', 1)
  | 't' :: _ => some ('\t', 1)
  | '\t' :: _ => some ('\t', 1)
  | 'n' :: _ => some ('\n', 1)
  | 'v' :: _ => some ('\x0b', 1)
  | 'f' :: _ => some ('\x0c', 1)
  | 'r' :: _ => some ('\r', 1)
  | 'e' :: _ => some ('\x1b', 1)
  | ' ' :: _ => some (' ', 1)
  | '"' :: _ => some ('"', 1)
  | '/' :: _ => some ('/', 1)
  | '\\' :: _ => some ('\\', 1)
  | 'N' :: _ => some ('\x85', 1)
  | '_' :: _ => some ('\xa0', 1)
  | 'L' :: _ => some ('\u2028', 1)
  | 'P' :: _ => some ('\u2029', 1)
  | 'x' :: digits => (codePoint? 2 digits).map fun c => (c, 3)
  | 'u' :: digits => (codePoint? 4 digits).map fun c => (c, 5)
  | 'U' :: digits => (codePoint? 8 digits).map fun c => (c, 9)
  | _ => none

/-- The rest of a quoted scalar, from behind its first mark. `text` holds what was read, last
first. -/
def quotedFrom (mark : Char) : Nat → List Char → Cursor → Option (String × Cursor)
  | 0, _, _ => none
  | fuel + 1, text, cursor =>
    if cursor.atDocumentMark then none
    else
      match cursor.rest with
      | [] => none
      | c :: rest =>
        if c = mark then
          if mark = '\'' && rest.head? = some '\'' then
            quotedFrom mark fuel ('\'' :: text) (cursor.skip 2)
          else some (String.ofList text.reverse, cursor.skip 1)
        else if mark = '"' && c = '\\' then
          if rest.head?.any isBreak then do
            let (breaks, cursor) ← passBreaks 0 (cursor.size + 1) [] (cursor.skip 1).nextLine
            quotedFrom mark fuel (breaks.reverse ++ text) cursor
          else do
            let (char, length) ← escape? rest
            quotedFrom mark fuel (char :: text) (cursor.skip (length + 1))
        else if isBlank c || isBreak c then do
          let (blanks, breaks, cursor) ← passGap 0 cursor
          quotedFrom mark fuel ((fold blanks breaks).reverse ++ text) cursor
        else quotedFrom mark fuel (c :: text) (cursor.skip 1)

def quoted (mark : Char) (cursor : Cursor) : Option (String × Cursor) :=
  quotedFrom mark (cursor.size + 1) [] (cursor.skip 1)

/-- Which line breaks stay at the end of a block of lines. -/
inductive Chomp where
  | strip
  | clip
  | keep
  deriving DecidableEq, Repr

def chomp? : Char → Option Chomp
  | '-' => some .strip
  | '+' => some .keep
  | _ => none

def indentDigit? (c : Char) : Option Nat :=
  if '1' ≤ c ∧ c ≤ '9' then some (c.toNat - 48) else none

/-- What follows the mark of a block: how it ends and how far it is indented, in either order. -/
def blockHead (cursor : Cursor) : Chomp × Option Nat × Cursor :=
  match cursor.rest with
  | [] => (.clip, none, cursor)
  | first :: rest =>
    match chomp? first, indentDigit? first with
    | some chomp, _ =>
      match rest.head?.bind indentDigit? with
      | some n => (chomp, some n, cursor.skip 2)
      | none => (chomp, none, cursor.skip 1)
    | none, some n =>
      match rest.head?.bind chomp? with
      | some chomp => (chomp, some n, cursor.skip 2)
      | none => (.clip, some n, cursor.skip 1)
    | none, none => (.clip, none, cursor)

/-- Pass empty lines and indentation, up to `indent` if that is known. Gives the deepest column met
and the breaks, which are collected last first; none if a tab stands in the indentation. -/
def passIndent (indent : Option Nat) :
    Nat → Nat → List Char → Cursor → Option (Nat × List Char × Cursor)
  | 0, _, _, _ => none
  | fuel + 1, deepest, breaks, cursor =>
    let inside (cursor : Cursor) : Bool := indent.all fun indent => cursor.column < indent
    match cursor.rest with
    | ' ' :: _ =>
      if inside cursor then passIndent indent fuel deepest breaks (cursor.skip 1)
      else some (max deepest cursor.column, breaks.reverse, cursor)
    | '\t' :: _ =>
      if inside cursor then none else some (max deepest cursor.column, breaks.reverse, cursor)
    | c :: _ =>
      let deepest := max deepest cursor.column
      if isBreak c then
        passIndent indent fuel deepest (cursor.breakChar :: breaks) cursor.nextLine
      else some (deepest, breaks.reverse, cursor)
    | [] => some (max deepest cursor.column, breaks.reverse, cursor)

/-- The lines of a block. `text` holds what was read, last first; `first` is the break behind the
last line, `breaks` those of the empty lines after it; `spaced` tells whether the last line began
with a blank, which keeps its breaks. -/
def blockLines (folded : Bool) (indent : Nat) :
    Nat → List Char → List Char → List Char → Bool → Cursor →
    Option (List Char × List Char × List Char × Cursor)
  | 0, _, _, _, _, _ => none
  | fuel + 1, text, first, breaks, spaced, cursor =>
    if cursor.column ≠ indent || cursor.rest.isEmpty then some (text, first, breaks, cursor)
    else do
      let blank := cursor.rest.head?.any isBlank
      let joint :=
        if folded && first = ['\n'] && !spaced && !blank then
          if breaks.isEmpty then [' '] else breaks
        else first ++ breaks
      let line := cursor.rest.takeWhile fun c => !isBreak c
      let cursor := cursor.skip line.length
      let first := if cursor.rest.isEmpty then [] else [cursor.breakChar]
      let cursor := if cursor.rest.isEmpty then cursor else cursor.nextLine
      let (_, breaks, cursor) ← passIndent (some indent) (cursor.size + 1) 0 [] cursor
      blockLines folded indent fuel (line.reverse ++ (joint.reverse ++ text)) first breaks blank
        cursor

/-- A block of lines indented further than `parent`, from its mark on. -/
def block (parent : Int) (folded : Bool) (cursor : Cursor) : Option (String × Cursor) := do
  let (chomp, given, cursor) := blockHead (cursor.skip 1)
  let cursor ← cursor.endLine
  let given := given.map fun n => (max parent 0).toNat + n
  let (deepest, breaks, cursor) ← passIndent given (cursor.size + 1) 0 [] cursor
  let indent := given.getD (max deepest (max (parent + 1).toNat 1))
  let (text, first, breaks, cursor) ←
    blockLines folded indent (cursor.size + 1) [] [] breaks false cursor
  let ending := match chomp with
    | .strip => []
    | .clip => first
    | .keep => first ++ breaks
  return (String.ofList (text.reverse ++ ending), cursor)

end ModuleAtlas.Yaml
