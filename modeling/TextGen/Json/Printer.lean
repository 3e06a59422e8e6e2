import TextGen.Decimal.Shortest
import TextGen.Json.Value

/-!
Written forms of JSON values: on one line, and spread over lines with two blanks of indentation for
every level. How 32-bit numbers are written in JSON files.
-/

namespace TextGen.Json

namespace Number

def isPositional (power : Int) : Bool := -6 ≤ power && power ≤ 12

def ofDecimal (negative : Bool) (d : Decimal) : Number :=
  if d.digits = 0 ∨ isPositional d.leading then
    if d.exponent ≥ 0 then ⟨negative, d.digits * Nat.pow 10 (d.exponent.toNat + 1), 1, none⟩
    else ⟨negative, d.digits, (-d.exponent).toNat, none⟩
  else
    ⟨negative, d.digits, d.digitList.length - 1, some d.leading⟩

def ofFloat32 (x : Float32) : Number :=
  ofDecimal (BinaryParts.ofFloat32 x).negative (.shortest .even x)

end Number

def Value.ofFloat32 (x : Float32) : Value :=
  if x.isFinite then .number (.ofFloat32 x) else .null

namespace Quoted

def render (q : Quoted) : List Char := '"' :: q.raw ++ ['"']

end Quoted

namespace Value

mutual

def compact : Value → List Char
  | null => "null".toList
  | boolean true => "true".toList
  | boolean false => "false".toList
  | number n => n.render
  | text q => q.render
  | array items _ => '[' :: compactItems items ++ [']']
  | object members _ => '{' :: compactMembers members ++ ['}']
  | malformed => []

def compactItems : List Value → List Char
  | [] => []
  | [v] => compact v
  | v :: vs => compact v ++ ',' :: compactItems vs

def compactMembers : List (Quoted × Value) → List Char
  | [] => []
  | [(key, v)] => key.render ++ ':' :: compact v
  | (key, v) :: rest => key.render ++ ':' :: compact v ++ ',' :: compactMembers rest

end

def newline (level : Nat) : List Char := '\n' :: List.replicate (2 * level) ' '

mutual

def pretty (level : Nat) : Value → List Char
  | array [] _ => ['[', ']']
  | array (v :: vs) _ =>
    '[' :: newline (level + 1) ++ prettyItems (level + 1) (v :: vs) ++ newline level ++ [']']
  | object [] _ => ['{', '}']
  | object (m :: ms) _ =>
    '{' :: newline (level + 1) ++ prettyMembers (level + 1) (m :: ms) ++ newline level ++ ['}']
  | null => compact .null
  | boolean b => compact (.boolean b)
  | number n => compact (.number n)
  | text q => compact (.text q)
  | malformed => []

def prettyItems (level : Nat) : List Value → List Char
  | [] => []
  | [v] => pretty level v
  | v :: vs => pretty level v ++ ',' :: newline level ++ prettyItems level vs

def prettyMembers (level : Nat) : List (Quoted × Value) → List Char
  | [] => []
  | [(key, v)] => key.render ++ ':' :: ' ' :: pretty level v
  | (key, v) :: rest =>
    key.render ++ ':' :: ' ' :: pretty level v ++ ',' :: newline level ++ prettyMembers level rest

end

def toCompactString (v : Value) : String := String.ofList v.compact

def toPrettyString (v : Value) : String := String.ofList (v.pretty 0)

end Value

end TextGen.Json
