import ModuleAtlas.Double
import ModuleAtlas.Json.Draft
import ModuleAtlas.Text.Cut

/-! From text to drafts. Each scanner returns the draft and the text after it, or no text where
nothing more can be read. -/

namespace ModuleAtlas.Draft

def isSpace (c : Char) : Bool :=
  c = ' ' || c = '\n' || c = '\t' || c = '\r'

def isDigit (c : Char) : Bool :=
  '0' ≤ c && c ≤ '9'

def digitsValue (digits : List Char) : Nat :=
  digits.foldl (fun n c => n * 10 + (c.toNat - 48)) 0

def hexValue? (c : Char) : Option Nat :=
  if isDigit c then some (c.toNat - 48)
  else if 'a' ≤ c && c ≤ 'f' then some (c.toNat - 87)
  else if 'A' ≤ c && c ≤ 'F' then some (c.toNat - 55)
  else none

/-- Four hexadecimal digits. With fewer than four bytes left the text has ended early, whatever
they are. -/
def scanUnit : List Char → Except Fault (Nat × List Char)
  | a :: b :: c :: d :: rest =>
    match hexValue? a, hexValue? b, hexValue? c, hexValue? d with
    | some a, some b, some c, some d => .ok (((a * 16 + b) * 16 + c) * 16 + d, rest)
    | _, _, _, _ => .error .malformed
  | short =>
    .error (if Text.byteLength short < 4 then .ended else .malformed)

def isLead (unit : Nat) : Bool :=
  0xD800 ≤ unit && unit ≤ 0xDBFF

def isTrail (unit : Nat) : Bool :=
  0xDC00 ≤ unit && unit ≤ 0xDFFF

def plainEscape? : Char → Option Char
  | '"' => some '"'
  | '\\' => some '\\'
  | '/' => some '/'
  | 'b' => some '\x08'
  | 'f' => some '\x0c'
  | 'n' => some '\n'
  | 'r' => some '\r'
  | 't' => some '\t'
  | _ => none

/-- The contents of quoted text; `seen` holds the characters so far, last first, and is `none`
once half a surrogate pair was met. -/
def scanText : Nat → Option (List Char) → List Char → Except Flaw (Option String × List Char)
  | 0, _, _ => .error (.all .ended)
  | fuel + 1, seen, cs =>
    let broken (fault : Fault) : Flaw :=
      if seen.isNone then ⟨.malformed, .malformed, some fault⟩ else .all fault
    match cs with
    | [] => .error (broken .ended)
    | '"' :: rest => .ok (seen.map fun chars => String.ofList chars.reverse, rest)
    | '\\' :: 'u' :: rest =>
      match scanUnit rest with
      | .error fault => .error (broken fault)
      | .ok (unit, rest) =>
        if isTrail unit then scanText fuel none rest
        else if isLead unit then
          match rest with
          | '\\' :: 'u' :: low =>
            match scanUnit low with
            | .error fault => .error (broken fault)
            | .ok (trail, after) =>
              if isTrail trail then
                let c := Char.ofNat (0x10000 + (unit - 0xD800) * 0x400 + (trail - 0xDC00))
                scanText fuel (seen.map (c :: ·)) after
              else scanText fuel none after
          | [] => .error (broken .ended)
          | ['\\'] => .error (broken .ended)
          | _ => scanText fuel none rest
        else scanText fuel (seen.map (Char.ofNat unit :: ·)) rest
    | ['\\'] => .error (broken .ended)
    | '\\' :: c :: rest =>
      match plainEscape? c with
      | some c => scanText fuel (seen.map (c :: ·)) rest
      | none => .error (broken .malformed)
    | c :: rest =>
      if c.toNat < 32 then .error (broken .malformed)
      else scanText fuel (seen.map (c :: ·)) rest

/-- The digits after `n` as far as 64 bits hold the number, and how many are left. -/
def takeDigits : Nat → List Char → Nat × Nat
  | n, [] => (n, 0)
  | n, c :: rest =>
    let next := n * 10 + (c.toNat - 48)
    if next < UInt64.size then takeDigits next rest else (n, rest.length + 1)

/-- The number with these digits before and behind the point, times ten to the `power`. Digits
that 64 bits cannot hold do not count: those before the point only move it. -/
def decimalOrFlaw (negative : Bool) (digits places : List Char) (power : Int) : Draft :=
  let (whole, moved) := takeDigits 0 digits
  let (number, unread) := takeDigits whole places
  let shift : Int := moved - (places.length - unread : Nat) + power
  match (Double.round? number 1).bind fun double => double.shift? shift with
  | none => .flawed .noValue
  | some double =>
    let (digits, exponent) := double.toDecimal
    .decimal negative digits exponent

def whole (negative : Bool) (digits : List Char) : Draft :=
  let n := digitsValue digits
  if negative then
    if n = 0 || UInt64.size / 2 < n then decimalOrFlaw true digits [] 0 else .integer (-(n : Int))
  else if n < UInt64.size then .integer n else decimalOrFlaw false digits [] 0

/-- What ends a number too early: the end of the text or a wrong character. -/
def numberFlaw (rest : List Char) : Draft × Option (List Char) :=
  (.flawed (if rest.isEmpty then .cutNumber else .all .malformed), none)

def scanExponent (negative : Bool) (digits places cs : List Char) : Draft × Option (List Char) :=
  let (minus, cs) := match cs with
    | '-' :: rest => (true, rest)
    | '+' :: rest => (false, rest)
    | _ => (false, cs)
  let power := cs.takeWhile isDigit
  if power.isEmpty then numberFlaw cs
  else
    let power : Int := digitsValue power
    (decimalOrFlaw negative digits places (if minus then -power else power),
      some (cs.dropWhile isDigit))

def scanFraction (negative : Bool) (digits cs : List Char) : Draft × Option (List Char) :=
  let finish (places : List Char) (plain : Draft) (rest : List Char) :=
    match rest with
    | 'e' :: rest => scanExponent negative digits places rest
    | 'E' :: rest => scanExponent negative digits places rest
    | _ => (plain, some rest)
  match cs with
  | '.' :: rest =>
    let places := rest.takeWhile isDigit
    if places.isEmpty then numberFlaw rest
    else finish places (decimalOrFlaw negative digits places 0) (rest.dropWhile isDigit)
  | _ => finish [] (whole negative digits) cs

def scanNumber (cs : List Char) : Draft × Option (List Char) :=
  let (negative, cs) := match cs with
    | '-' :: rest => (true, rest)
    | _ => (false, cs)
  match cs with
  | '0' :: rest =>
    match rest with
    | c :: _ =>
      if isDigit c then (.flawed (.all .malformed), none) else scanFraction negative ['0'] rest
    | [] => scanFraction negative ['0'] rest
  | _ =>
    let digits := cs.takeWhile isDigit
    if digits.isEmpty then numberFlaw cs
    else scanFraction negative digits (cs.dropWhile isDigit)

/-- The rest of `null`, `true` or `false`. -/
def scanWord (value : Draft) : List Char → List Char → Draft × Option (List Char)
  | [], cs => (value, some cs)
  | _ :: _, [] => (.flawed .cutWord, none)
  | expected :: word, c :: cs =>
    if c = expected then scanWord value word cs else (.flawed (.all .malformed), none)

def isNumberStart (c : Char) : Bool :=
  c = '-' || isDigit c

mutual

def scanValue : Nat → List Char → Draft × Option (List Char)
  | 0, _ => (.flawed (.all .ended), none)
  | fuel + 1, cs =>
    match cs.dropWhile isSpace with
    | [] => (.flawed (.all .ended), none)
    | 'n' :: rest => scanWord .null ['u', 'l', 'l'] rest
    | 't' :: rest => scanWord (.bool true) ['r', 'u', 'e'] rest
    | 'f' :: rest => scanWord (.bool false) ['a', 'l', 's', 'e'] rest
    | '"' :: rest =>
      match scanText (fuel + 1) (some []) rest with
      | .error flaw => (.flawed flaw, none)
      | .ok (some value, rest) => (.text value, some rest)
      | .ok (none, rest) => (.flawed .noValue, some rest)
    | '[' :: rest =>
      match rest.dropWhile isSpace with
      | ']' :: rest => (.list [] none, some rest)
      | [] => (.list [] (some .ended), none)
      | rest =>
        let (items, stop, rest) := scanItems fuel rest
        (.list items stop, rest)
    | '\x7b' :: rest =>
      match rest.dropWhile isSpace with
      | '\x7d' :: rest => (.record [] none, some rest)
      | '"' :: rest =>
        let (fields, stop, rest) := scanFields fuel rest
        (.record fields stop, rest)
      | [] => (.record [] (some .ended), none)
      | _ => (.record [] (some .malformed), none)
    | c :: rest =>
      if isNumberStart c then scanNumber (c :: rest) else (.flawed (.all .malformed), none)

/-- The items of a list, from where a value has to stand. -/
def scanItems : Nat → List Char → List Draft × Option Fault × Option (List Char)
  | 0, _ => ([], some .ended, none)
  | fuel + 1, cs =>
    match scanValue fuel cs with
    | (item, none) => ([item], none, none)
    | (item, some rest) =>
      match rest.dropWhile isSpace with
      | ']' :: rest => ([item], none, some rest)
      | ',' :: rest =>
        let (items, stop, rest) := scanItems fuel rest
        (item :: items, stop, rest)
      | [] => ([item], some .ended, none)
      | _ => ([item], some .malformed, none)

/-- The fields of a record, from behind the quotation mark that opens a key. -/
def scanFields : Nat → List Char →
    List (Except Flaw String × Draft) × Option Fault × Option (List Char)
  | 0, _ => ([], some .ended, none)
  | fuel + 1, cs =>
    match scanText (fuel + 1) (some []) cs with
    | .error flaw => ([(.error flaw, .null)], none, none)
    | .ok (name, rest) =>
      let key : Except Flaw String := match name with
        | some name => .ok name
        | none => .error .noValue
      let (value, rest) := match rest.dropWhile isSpace with
        | ':' :: rest => scanValue fuel rest
        | [] => (.flawed (.all .ended), none)
        | _ => (.flawed (.all .malformed), none)
      match rest with
      | none => ([(key, value)], none, none)
      | some rest =>
        match rest.dropWhile isSpace with
        | '\x7d' :: rest => ([(key, value)], none, some rest)
        | ',' :: rest =>
          match rest.dropWhile isSpace with
          | '"' :: rest =>
            let (fields, stop, rest) := scanFields fuel rest
            ((key, value) :: fields, stop, rest)
          | [] => ([(key, value), (.error (.all .ended), .null)], none, none)
          | _ => ([(key, value), (.error (.all .malformed), .null)], none, none)
        | [] => ([(key, value)], some .ended, none)
        | _ => ([(key, value)], some .malformed, none)

end

/-- A whole text: its draft, and whether anything but space follows the value. -/
def scan (text : String) : Draft × Bool :=
  let cs := text.toList
  match scanValue (2 * cs.length + 2) cs with
  | (draft, some rest) => (draft, !(rest.dropWhile isSpace).isEmpty)
  | (draft, none) => (draft, false)

/-- Values nest at most this deep, except inside fields that are skipped. -/
def depthLimit : Nat := 127

end ModuleAtlas.Draft

namespace ModuleAtlas

/-- The value a text spells, if it spells one. -/
def Json.parse? (text : String) : Option Json :=
  match Draft.scan text with
  | (draft, false) => draft.settle? Draft.depthLimit
  | (_, true) => none

end ModuleAtlas
