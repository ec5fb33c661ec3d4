import KeyStore.Bytes

/-!
# SHA-1

The Secure Hash Algorithm with a digest of 160 bits. A message is padded to whole blocks of 64
bytes, and each block changes a state of five words by eighty steps over a schedule of eighty words.

`absorb` and `finish` take a message in parts: what has been absorbed up to a block boundary is a
state, from which a digest can be finished any number of times.
-/

namespace KeyStore.Sha1

def blockLength : Nat := 64

def digestLength : Nat := 20

/-- The bits of a word moved to the left by `count`, and round to the right end. -/
def rotateLeft (word : UInt32) (count : UInt32) : UInt32 :=
  (word <<< count) ||| (word >>> (32 - count))

/-- The word of four bytes, most significant byte first. -/
def wordOfBytes (a b c d : UInt8) : UInt32 :=
  (a.toUInt32 <<< 24) ||| (b.toUInt32 <<< 16) ||| (c.toUInt32 <<< 8) ||| d.toUInt32

/-- The words that a byte string holds; an incomplete one at the end is left out. -/
def words : Bytes → List UInt32
  | a :: b :: c :: d :: rest => wordOfBytes a b c d :: words rest
  | _ => []

def wordBytes (word : UInt32) : Bytes :=
  [(word >>> 24).toUInt8, (word >>> 16).toUInt8, (word >>> 8).toUInt8, word.toUInt8]

structure State where
  a : UInt32
  b : UInt32
  c : UInt32
  d : UInt32
  e : UInt32
deriving DecidableEq, Repr

def State.initial : State :=
  ⟨0x67452301, 0xefcdab89, 0x98badcfe, 0x10325476, 0xc3d2e1f0⟩

def State.add (left right : State) : State :=
  ⟨left.a + right.a, left.b + right.b, left.c + right.c, left.d + right.d, left.e + right.e⟩

def State.bytes (state : State) : Bytes :=
  wordBytes state.a ++ wordBytes state.b ++ wordBytes state.c ++ wordBytes state.d ++
    wordBytes state.e

/-- Adds the next word of the schedule to a list with the newest word first: the words three,
eight, fourteen and sixteen places back, combined and rotated by one. -/
def extend (newestFirst : List UInt32) : List UInt32 :=
  rotateLeft
    (newestFirst.getD 2 0 ^^^ newestFirst.getD 7 0 ^^^ newestFirst.getD 13 0 ^^^
      newestFirst.getD 15 0) 1 :: newestFirst

/-- The eighty words of the schedule of a block of sixteen words. -/
def schedule (block : List UInt32) : List UInt32 :=
  (Nat.repeat extend 64 block.reverse).reverse

/-- The function that mixes three words in step `index`: choice, parity, majority, parity. -/
def mix (index : Nat) (b c d : UInt32) : UInt32 :=
  if index < 20 then (b &&& c) ||| (~~~b &&& d)
  else if index < 40 then b ^^^ c ^^^ d
  else if index < 60 then (b &&& c) ||| (b &&& d) ||| (c &&& d)
  else b ^^^ c ^^^ d

def constant (index : Nat) : UInt32 :=
  if index < 20 then 0x5a827999
  else if index < 40 then 0x6ed9eba1
  else if index < 60 then 0x8f1bbcdc
  else 0xca62c1d6

def step (index : Nat) (word : UInt32) (state : State) : State :=
  { a := rotateLeft state.a 5 + mix index state.b state.c state.d + state.e + constant index + word
    b := state.a
    c := rotateLeft state.b 30
    d := state.c
    e := state.d }

def steps : (index : Nat) → List UInt32 → State → State
  | _, [], state => state
  | index, word :: rest, state => steps (index + 1) rest (step index word state)

def compress (state : State) (block : Bytes) : State :=
  state.add (steps 0 (schedule (words block)) state)

def absorbBlocks : (count : Nat) → State → Bytes → State
  | 0, state, _ => state
  | count + 1, state, bytes =>
      absorbBlocks count (compress state (bytes.take blockLength)) (bytes.drop blockLength)

def absorb (state : State) (bytes : Bytes) : State :=
  absorbBlocks (bytes.length / blockLength) state bytes

/-- What follows a message of `length` bytes: a one bit, zero bits up to eight bytes before a block
boundary, and the length in bits. -/
def padding (length : Nat) : Bytes :=
  0x80 :: List.replicate ((119 - length % blockLength) % blockLength) 0 ++
    Bytes.ofNatWidth 8 (length * 8)

/-- The digest of a message whose first `absorbed` bytes are in `state` and whose other bytes are
`rest`. -/
def finish (absorbed : Nat) (state : State) (rest : Bytes) : Bytes :=
  (absorb state (rest ++ padding (absorbed + rest.length))).bytes

def digest (message : Bytes) : Bytes :=
  finish 0 .initial message

end KeyStore.Sha1
