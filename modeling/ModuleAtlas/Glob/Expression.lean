import ModuleAtlas.Glob

/-! Glob patterns as regular expressions over bytes, and how deep these nest. -/

namespace ModuleAtlas.Glob

inductive Expression where
  | byte (b : UInt8)
  | anyByte
  | optional (e : Expression)
  | many (e : Expression)
  | oneOf (negated : Bool) (ranges : List (UInt8 × UInt8))
  | group (e : Expression)
  | sequence (es : List Expression)
  | either (es : List Expression)

namespace Expression

/-- Parts that follow each other. One part stands for itself. -/
def joined : List Expression → Expression
  | [e] => e
  | es => .sequence es

mutual

/-- Every expression around another is a level. A class of several ranges has one of its own. -/
def depth : Expression → Nat
  | .byte _ | .anyByte => 0
  | .optional e | .many e | .group e => e.depth + 1
  | .oneOf _ [_] => 1
  | .oneOf _ _ => 2
  | .sequence es | .either es => deepest es + 1

def deepest : List Expression → Nat
  | [] => 0
  | e :: es => max e.depth (deepest es)

end

def isMark (c : Char) : Bool :=
  c ∈ ['\\', '.', '+', '*', '?', '(', ')', '|', '[', ']', '\x7b', '\x7d', '^', '$', '#', '&', '-',
    '~']

def hexDigit (n : Nat) : Char :=
  Nat.digitChar (n % 16)

/-- Marks stand behind a backslash, and bytes beyond ASCII as two hexadecimal digits. -/
def renderByte (b : UInt8) : String :=
  if b < 128 then
    let c := Char.ofNat b.toNat
    if isMark c then String.ofList ['\\', c] else String.singleton c
  else String.ofList ['\\', 'x', hexDigit (b.toNat / 16), hexDigit b.toNat]

def renderRange : UInt8 × UInt8 → String
  | (low, high) =>
    if low = high then renderByte low else renderByte low ++ "-" ++ renderByte high

mutual

def render : Expression → String
  | .byte b => renderByte b
  | .anyByte => "."
  | .optional e => e.render ++ "?"
  | .many e => e.render ++ "*"
  | .oneOf negated ranges =>
    (if negated then "[^" else "[") ++ String.join (ranges.map renderRange) ++ "]"
  | .group e => "(?:" ++ e.render ++ ")"
  | .sequence es => String.join (renderAll es)
  | .either es => "|".intercalate (renderAll es)

def renderAll : List Expression → List String
  | [] => []
  | e :: es => e.render :: renderAll es

end

end Expression

def anyText : Expression := .many .anyByte

mutual

/-- The parts that a token adds to a sequence. A choice has a part only if a branch has one. -/
def Token.parts : Token → List Expression
  | .literal c => (String.utf8EncodeChar c).map .byte
  | .anyByte => [.anyByte]
  | .star => [anyText]
  | .leadingFolders =>
    [.group (.either [.optional (.byte slash), .sequence [anyText, .byte slash]])]
  | .trailingFolders => [.byte slash, anyText]
  | .innerFolders =>
    [.group (.either [.byte slash, .sequence [.byte slash, anyText, .byte slash]])]
  | .oneOf negated ranges =>
    [.oneOf negated (ranges.flatMap fun (low, high) => rangeBytes low high)]
  | .choice branches =>
    match branchParts branches with
    | [] => []
    | [e] => [.group e]
    | es => [.group (.either es)]

def sequenceParts : List Token → List Expression
  | [] => []
  | token :: rest => token.parts ++ sequenceParts rest

def branchParts : List (List Token) → List Expression
  | [] => []
  | branch :: rest =>
    match sequenceParts branch with
    | [] => branchParts rest
    | es => .joined es :: branchParts rest

end

/-- A pattern that is only leading folders stands for any text. -/
def body (glob : Glob) : Expression :=
  match glob.tokens with
  | [.leadingFolders] => .sequence [anyText]
  | tokens => .sequence (sequenceParts tokens)

def expression (glob : Glob) : String :=
  "(?-u)" ++ (if glob.ignoreCase then "(?i)" else "") ++ "^" ++ glob.body.render ++ "$"

def maxDepth : Nat := 250

def isTooDeep (glob : Glob) : Bool :=
  maxDepth < glob.body.depth

end ModuleAtlas.Glob
