import TextGen.Decimal.Shortest

/-!
Decimals read in binary arithmetic: the leading digits that fit into a word of 64 bits are a whole
number, which is multiplied or divided by a power of ten. Both steps round, so that the result may
be a neighbour of the number nearest to the decimal. It is the nearest one wherever the digits and
the power of ten are numbers of the format, as with fifteen digits and 22 places.
-/

namespace TextGen

namespace Binary64

def largestPower : Nat := 308

def powerOfTen (n : Nat) : Float := .ofScientific 1 false n

def divPowerOfTen (x : Float) (n : Nat) : Float :=
  if n ≤ largestPower then x / powerOfTen n
  else if x == 0 then x
  else divPowerOfTen (x / powerOfTen largestPower) (n - largestPower)
termination_by n
decreasing_by
  simp only [largestPower] at *
  omega

end Binary64

namespace Decimal

def appendWord : Nat → List Nat → Nat × Nat
  | n, [] => (n, 0)
  | n, d :: ds =>
    if 10 * n + d < wordCount 64 then appendWord (10 * n + d) ds else (n, ds.length + 1)

/--
The decimal with the leading digits of a numeral that fit into a word. Of the digits left over,
those of the whole part count as zeros.
-/
def ofNumeral (whole fraction : List Nat) (exponent : Int) : Decimal :=
  let (n, zeros) := appendWord 0 whole
  let (n, dropped) := appendWord n fraction
  ⟨n, exponent + zeros - (fraction.length - dropped : Nat)⟩

def toFloat (d : Decimal) : Float :=
  let x := Float.ofNat d.digits
  if d.exponent < 0 then Binary64.divPowerOfTen x d.exponent.natAbs
  else if d.exponent ≤ Binary64.largestPower then x * Binary64.powerOfTen d.exponent.toNat
  else if d.digits = 0 then 0
  else 1 / 0

end Decimal

end TextGen
