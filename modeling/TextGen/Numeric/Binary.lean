/-!
Binary floating-point numbers taken apart. A finite number is a sign, a significand and a power of
two; with these the rounding from 64 to 32 bits and the exact decimal expansion of a number are
arithmetic on `Nat` and `Int`. Scores and tensor entries are 32 bits wide, rates and durations 64.
-/

namespace TextGen

def wordCount (bits : Nat) : Nat := Nat.pow 2 bits

structure BinaryParts where
  negative : Bool
  significand : Nat
  exponent : Int
  deriving DecidableEq, Repr

namespace BinaryParts

/--
Split the bits of a finite number whose significand has `width` stored bits and whose smallest
exponent is `least`. A zero exponent field means that the significand has no hidden bit.
-/
def ofBits (bits : Nat) (width : Nat) (exponentWidth : Nat) (least : Int) : BinaryParts :=
  let negative := bits / Nat.pow 2 (width + exponentWidth) % 2 == 1
  let field := bits / Nat.pow 2 width % Nat.pow 2 exponentWidth
  let stored := bits % Nat.pow 2 width
  if field = 0 then
    ⟨negative, stored, least⟩
  else
    ⟨negative, stored + Nat.pow 2 width, least + (field - 1 : Nat)⟩

def ofFloat32 (x : Float32) : BinaryParts :=
  ofBits x.toBits.toNat 23 8 (-149)

def ofFloat (x : Float) : BinaryParts :=
  ofBits x.toBits.toNat 52 11 (-1074)

def quotient (parts : BinaryParts) : Nat × Nat :=
  if parts.exponent ≥ 0 then
    (parts.significand * Nat.pow 2 parts.exponent.toNat, 1)
  else
    (parts.significand, Nat.pow 2 (-parts.exponent).toNat)

end BinaryParts

namespace Binary32

def negativeInfinity : Float32 := .ofBits 0xff800000

def infinity : Float32 := .ofBits 0x7f800000

def nan : Float32 := .ofBits 0x7fc00000

/--
The place of a bit pattern in the total order `-NaN < -∞ < … < -0 < 0 < … < ∞ < NaN`, in which every
NaN has a place of its own. Without the sign bit the patterns are ordered as they are, with it the
other way round.
-/
def orderKey (bits : UInt32) : Int :=
  if bits.toNat < wordCount 31 then bits.toNat else (wordCount 31 : Int) - 1 - bits.toNat

/--
The 32-bit number nearest to a 64-bit one, a tie going to the even significand. A finite 64-bit
number has a finite decimal expansion (`2 ^ -k = 5 ^ k * 10 ^ -k`), so that it can be rounded once
from its exact value.
-/
def ofFloat (x : Float) : Float32 :=
  if x.isNaN then nan
  else
    let parts := BinaryParts.ofFloat x
    let magnitude : Float32 :=
      if x.isInf then infinity
      else if parts.exponent ≥ 0 then
        .ofScientific (parts.significand * Nat.pow 2 parts.exponent.toNat) false 0
      else
        let k := (-parts.exponent).toNat
        .ofScientific (parts.significand * Nat.pow 5 k) true k
    if parts.negative then -magnitude else magnitude

def clampToUnit (x : Float32) : Float32 :=
  if 1 < x then 1 else if 0 < x then x else 0

/--
The exponential of a number. It is 0 at `-∞` and 1 at both zeros, and NaN stays NaN; in between the
machine's exponential decides, which lies between 0 and 1 below zero.
-/
def exp (x : Float32) : Float32 :=
  if x.isNaN then x
  else if x == 0 then 1
  else if x == negativeInfinity then 0
  else if x < 0 then clampToUnit x.exp
  else x.exp

def toIndex (x : Float32) : Nat := x.toUInt64.toNat

end Binary32

end TextGen
