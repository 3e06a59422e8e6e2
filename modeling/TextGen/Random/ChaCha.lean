/-!
A stream of random words: the ChaCha keystream with twelve rounds, a block counter of 64 bits and
stream number zero. The stream is a function of its key and the index of a word, so that a generator
only remembers how many words it has used.
-/

namespace TextGen.Random

abbrev Block := Vector UInt32 16

abbrev Key := Vector UInt32 8

namespace Key

def next (state : UInt64) : UInt64 := state * 6364136223846793005 + 11634580027462260723

def output (state : UInt64) : UInt32 :=
  let folded := (((state >>> 18) ^^^ state) >>> 27).toUInt32
  let turn := (state >>> 59).toUInt32
  (folded >>> turn) ||| (folded <<< ((32 - turn) % 32))

def ofSeed (seed : UInt64) : Key :=
  Vector.ofFn fun i => output (Nat.repeat next (i.val + 1) seed)

end Key

namespace Block

def rotate (x : UInt32) (n : UInt32) : UInt32 := (x <<< n) ||| (x >>> (32 - n))

def quarterRound (s : Block) (i j k l : Fin 16) : Block :=
  let a := s[i]; let b := s[j]; let c := s[k]; let d := s[l]
  let a := a + b; let d := rotate (d ^^^ a) 16
  let c := c + d; let b := rotate (b ^^^ c) 12
  let a := a + b; let d := rotate (d ^^^ a) 8
  let c := c + d; let b := rotate (b ^^^ c) 7
  (((s.set i a).set j b).set k c).set l d

def doubleRound (s : Block) : Block :=
  let s := quarterRound s 0 4 8 12
  let s := quarterRound s 1 5 9 13
  let s := quarterRound s 2 6 10 14
  let s := quarterRound s 3 7 11 15
  let s := quarterRound s 0 5 10 15
  let s := quarterRound s 1 6 11 12
  let s := quarterRound s 2 7 8 13
  quarterRound s 3 4 9 14

def initial (key : Key) (counter : UInt64) : Block :=
  #v[0x61707865, 0x3320646e, 0x79622d32, 0x6b206574,
    key[0], key[1], key[2], key[3], key[4], key[5], key[6], key[7],
    counter.toUInt32, (counter >>> 32).toUInt32, 0, 0]

def keystream (key : Key) (counter : UInt64) : Block :=
  let s := initial key counter
  Vector.zipWith (· + ·) (Nat.repeat doubleRound 6 s) s

end Block

def word (key : Key) (index : Nat) : UInt32 :=
  (Block.keystream key (index / 16).toUInt64)[index % 16]

structure Generator where
  key : Key
  used : Nat
  deriving DecidableEq

namespace Generator

def ofSeed (seed : UInt64) : Generator := ⟨Key.ofSeed seed, 0⟩

def next (g : Generator) : UInt32 × Generator := (word g.key g.used, { g with used := g.used + 1 })

end Generator

end TextGen.Random
