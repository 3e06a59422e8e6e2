import TextGen.Decimal.Shortest

/-!
Written forms of decimals: positional notation with the digits needed, and with a fixed number of
places.
-/

namespace TextGen

namespace Decimal

def zeros (n : Nat) : List Char := List.replicate n '0'

def positional (d : Decimal) : List Char :=
  let ds := d.digitList
  if d.exponent ≥ 0 then
    ds ++ zeros d.exponent.toNat
  else
    let places := (-d.exponent).toNat
    let padded := zeros (places + 1 - ds.length) ++ ds
    padded.take (padded.length - places) ++ '.' :: padded.drop (padded.length - places)

def rounded (numerator denominator : Nat) (places : Nat) : Decimal :=
  let top := numerator * Nat.pow 10 places
  let below := top / denominator
  let rest := top % denominator
  let up := denominator < 2 * rest ∨ (denominator = 2 * rest ∧ below % 2 = 1)
  ⟨if up then below + 1 else below, -places⟩

end Decimal

def Binary32.display (x : Float32) : String :=
  if x.isNaN then "NaN"
  else
    let magnitude := if x.isInf then "inf" else String.ofList (Decimal.shortest .above x).positional
    if (BinaryParts.ofFloat32 x).negative then "-" ++ magnitude else magnitude

def Binary64.fixed (x : Float) (places : Nat) : String :=
  let (numerator, denominator) := (BinaryParts.ofFloat x).quotient
  String.ofList (Decimal.rounded numerator denominator places).positional

end TextGen
