/-! A hash of bytes to 64 bits: SipHash with one round for each block, three at the end, and a key
of zeros. -/

namespace ModuleAtlas.KeyedHash

structure State where
  v0 : UInt64 := 0x736f6d6570736575
  v1 : UInt64 := 0x646f72616e646f6d
  v2 : UInt64 := 0x6c7967656e657261
  v3 : UInt64 := 0x7465646279746573

def rotate (x : UInt64) (bits : UInt64) : UInt64 :=
  (x <<< bits) ||| (x >>> (64 - bits))

def State.round (s : State) : State :=
  let v0 := s.v0 + s.v1
  let v1 := rotate s.v1 13 ^^^ v0
  let v0 := rotate v0 32
  let v2 := s.v2 + s.v3
  let v3 := rotate s.v3 16 ^^^ v2
  let v0 := v0 + v3
  let v3 := rotate v3 21 ^^^ v0
  let v2 := v2 + v1
  let v1 := rotate v1 17 ^^^ v2
  let v2 := rotate v2 32
  { v0, v1, v2, v3 }

def State.absorb (s : State) (block : UInt64) : State :=
  let s := { s with v3 := s.v3 ^^^ block }.round
  { s with v0 := s.v0 ^^^ block }

/-- A number from bytes, lowest first. -/
def word : List UInt8 → UInt64
  | [] => 0
  | b :: rest => b.toUInt64 + 256 * word rest

/-- Blocks of eight bytes; the last is filled up and ends with the length. -/
def absorbAll (length : Nat) : Nat → State → List UInt8 → State
  | 0, s, _ => s
  | fuel + 1, s, bytes =>
    if bytes.length < 8 then s.absorb (word bytes + (UInt64.ofNat length <<< 56))
    else absorbAll length fuel (s.absorb (word (bytes.take 8))) (bytes.drop 8)

def State.finish (s : State) : UInt64 :=
  let s := { s with v2 := s.v2 ^^^ 0xff }.round.round.round
  s.v0 ^^^ s.v1 ^^^ s.v2 ^^^ s.v3

def hash (bytes : List UInt8) : UInt64 :=
  (absorbAll bytes.length (bytes.length + 1) {} bytes).finish

/-- A text is hashed with a byte at its end that no text holds. -/
def hashText (s : String) : UInt64 :=
  hash (s.toUTF8.data.toList ++ [0xff])

end ModuleAtlas.KeyedHash
