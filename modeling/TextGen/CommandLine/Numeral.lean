import TextGen.Decimal.Shortest

/-!
Numbers as they are written on a command line.
-/

namespace TextGen

def Binary32.ofDecimal (d : Decimal) : Float32 :=
  if d.digits = 0 ∨ d.leading < -100 then 0
  else if d.leading > 100 then infinity
  else .ofScientific d.digits (decide (d.exponent < 0)) d.exponent.natAbs

namespace Numeral

def splitSign : List Char → Bool × List Char
  | '-' :: cs => (true, cs)
  | '+' :: cs => (false, cs)
  | cs => (false, cs)

def ofDigits (ds : List Char) : Nat := ds.foldl (fun n d => 10 * n + (d.toNat - '0'.toNat)) 0

def digits? (cs : List Char) : Option Nat :=
  if !cs.isEmpty && cs.all Char.isDigit then some (ofDigits cs) else none

def integerOf? (cs : List Char) : Option Int :=
  let (negative, cs) := splitSign cs
  (digits? cs).map fun n => if negative then -n else n

def integer? (s : String) : Option Int :=
  (integerOf? s.toList).filter fun n => -wordCount 63 ≤ n ∧ n < wordCount 63

def natural? (s : String) : Option Nat :=
  let cs := match s.toList with | '+' :: cs => cs | cs => cs
  (digits? cs).filter (· < wordCount 64)

def decimal? (cs : List Char) : Option Decimal := do
  let (whole, rest) := cs.span Char.isDigit
  let (fraction, rest) := match rest with | '.' :: rest => rest.span Char.isDigit | _ => ([], rest)
  guard (!(whole ++ fraction).isEmpty)
  let exponent ←
    match rest with
    | [] => some 0
    | c :: rest => if c = 'e' ∨ c = 'E' then integerOf? rest else none
  return ⟨ofDigits (whole ++ fraction), exponent - fraction.length⟩

def float32? (s : String) : Option Float32 :=
  let (negative, cs) := splitSign s.toList
  let magnitude :=
    match (String.ofList cs).toLower with
    | "inf" | "infinity" => some Binary32.infinity
    | "nan" => some Binary32.nan
    | _ => (decimal? cs).map Binary32.ofDecimal
  magnitude.map fun x => if negative then -x else x

end Numeral

end TextGen
