import TextGen.Numeric.Binary

/-!
The shortest decimal of a 32-bit number: among the decimals that round to the number, those with
the fewest digits, and of these the nearest. For one digit, two digits and so on the two neighbours
of the number on that decimal grid are tried in exact arithmetic.
-/

namespace TextGen

structure Decimal where
  digits : Nat
  exponent : Int
  deriving DecidableEq, Repr

namespace Decimal

def digitList (d : Decimal) : List Char := Nat.toDigits 10 d.digits

def leading (d : Decimal) : Int := d.exponent + d.digitList.length - 1

def normalize (d : Decimal) : Decimal :=
  go d.digits d.digits d.exponent
where
  go (fuel digits : Nat) (exponent : Int) : Decimal :=
    match fuel with
    | 0 => ⟨digits, exponent⟩
    | fuel + 1 =>
      if digits ≠ 0 ∧ digits % 10 = 0 then go fuel (digits / 10) (exponent + 1)
      else ⟨digits, exponent⟩

end Decimal

inductive TieRule
  | even
  | above
  deriving DecidableEq, Repr

/--
The numbers between two quotients that have the denominator `unit`; the ends belong to it if
`closed` is set.
-/
structure DecimalInterval where
  low : Nat
  high : Nat
  unit : Nat
  closed : Bool

namespace DecimalInterval

def mem (i : DecimalInterval) (d : Decimal) : Bool :=
  let value := d.digits * Nat.pow 10 d.exponent.toNat * i.unit
  let scale := Nat.pow 10 (-d.exponent).toNat
  if i.closed then i.low * scale ≤ value && value ≤ i.high * scale
  else i.low * scale < value && value < i.high * scale

end DecimalInterval

namespace Decimal

/--
The exponent `k` with `10 ^ k ≤ numerator / denominator < 10 ^ (k + 1)`, for a positive quotient
that is not below `10 ^ -fuel`.
-/
def magnitude (numerator denominator : Nat) (fuel : Nat) : Int :=
  if numerator ≥ denominator then
    (Nat.toDigits 10 (numerator / denominator)).length - 1
  else
    go fuel numerator 0
where
  go (fuel numerator : Nat) (k : Int) : Int :=
    match fuel with
    | 0 => k
    | fuel + 1 =>
      if numerator ≥ denominator then k else go fuel (numerator * 10) (k - 1)

def onGrid? (tie : TieRule) (numerator denominator : Nat) (interval : DecimalInterval) (k : Int)
    (count : Nat) : Option Decimal :=
  let exponent := k - count + 1
  let top := numerator * Nat.pow 10 (-exponent).toNat
  let bottom := denominator * Nat.pow 10 exponent.toNat
  let below : Decimal := ⟨top / bottom, exponent⟩
  let above : Decimal := ⟨top / bottom + 1, exponent⟩
  let rest := top % bottom
  match interval.mem below, interval.mem above with
  | false, false => none
  | true, false => some below
  | false, true => some above
  | true, true =>
    let tieBelow := tie = .even ∧ below.digits % 2 = 0
    some (if 2 * rest < bottom ∨ (2 * rest = bottom ∧ tieBelow) then below else above)

def shortest (tie : TieRule) (x : Float32) : Decimal :=
  let parts := BinaryParts.ofFloat32 x
  if parts.significand = 0 then ⟨0, 0⟩
  else
    -- A power of two has its lower neighbour at half the distance of the upper one.
    let lowGap := if parts.significand = Nat.pow 2 23 ∧ parts.exponent > -149 then 1 else 2
    let (numerator, denominator) := parts.quotient
    let step := Nat.pow 2 parts.exponent.toNat
    let interval : DecimalInterval := {
      low := 4 * numerator - lowGap * step
      high := 4 * numerator + 2 * step
      unit := 4 * denominator
      closed := parts.significand % 2 = 0
    }
    let k := magnitude numerator denominator 60
    match (List.range' 1 9).findSome? (onGrid? tie numerator denominator interval k) with
    | some d => d.normalize
    | none => ⟨0, 0⟩

end Decimal

end TextGen
