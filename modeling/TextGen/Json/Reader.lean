import TextGen.Decimal.Scaled
import TextGen.Json.Value
import TextGen.Numeric.Binary

/-!
Typed reading of JSON values. A reader walks the value from left to right and reports the first
problem: a value of another kind or out of range, a member that the record does not have or has
twice when its name is read, a member that it lacks at the closing brace, and a flaw of the text
where it stands.
-/

namespace TextGen.Json

def nestingLimit : Nat := 127

inductive Problem
  | unknownField (name : String)
  | missingField (name : String)
  | duplicateField (name : String)
  | badValue
  | malformed
  deriving DecidableEq, Repr

namespace Problem

def message : Problem → String
  | unknownField name => "unknown field `" ++ name ++ "`"
  | missingField name => "missing field `" ++ name ++ "`"
  | duplicateField name => "duplicate field `" ++ name ++ "`"
  | badValue => "bad value"
  | malformed => "syntax"

end Problem

namespace Number

/--
Is the number an integer literal? A literal `-0` is not: it is the negative zero of the floats.
-/
def isInteger (n : Number) : Bool :=
  n.places = 0 ∧ n.exponent = none ∧ ¬(n.negative ∧ n.digits = 0)

def toInt (n : Number) : Int := if n.negative then -n.digits else n.digits

def digitValues (n : Number) : List Nat × List Nat :=
  let ds := (Nat.toDigits 10 n.digits).map fun c => c.toNat - '0'.toNat
  let padded := List.replicate (n.places - ds.length) 0 ++ ds
  padded.splitAt (padded.length - n.places)

def toFloat? (n : Number) : Option Float :=
  let (whole, fraction) := n.digitValues
  let magnitude := (Decimal.ofNumeral whole fraction (n.exponent.getD 0)).toFloat
  if magnitude.isInf then none
  else some (if n.negative then -magnitude else magnitude)

def isWord (n : Number) : Bool :=
  n.isInteger ∧ (if n.negative then n.digits ≤ wordCount 63 else n.digits < wordCount 64)

def toFloat32? (n : Number) : Option Float32 :=
  if n.isWord then some (.ofInt n.toInt) else n.toFloat?.map Binary32.ofFloat

end Number

namespace Value

/--
The problem with a value where one of another kind is expected. Numbers and strings are read before
they are refused, arrays and objects are refused at their opening bracket.
-/
def mismatch : Value → Problem
  | number n => if n.isWord ∨ n.toFloat?.isSome then .badValue else .malformed
  | text q => if q.text?.isSome then .badValue else .malformed
  | malformed => .malformed
  | _ => .badValue

def integerIn (low high : Int) (v : Value) : Except Problem Int :=
  match v with
  | number n =>
    if n.isInteger ∧ low ≤ n.toInt ∧ n.toInt ≤ high then .ok n.toInt else .error v.mismatch
  | _ => .error v.mismatch

def word (v : Value) : Except Problem Nat :=
  (v.integerIn 0 (wordCount 64 - 1)).map Int.toNat

def signed (v : Value) : Except Problem Int :=
  v.integerIn (-wordCount 63) (wordCount 63 - 1)

def bool (v : Value) : Except Problem Bool :=
  match v with
  | boolean b => .ok b
  | _ => .error v.mismatch

def float32 (v : Value) : Except Problem Float32 :=
  match v with
  | number n => n.toFloat32?.elim (.error v.mismatch) .ok
  | _ => .error v.mismatch

def float (v : Value) : Except Problem Float :=
  match v with
  | number n => n.toFloat?.elim (.error v.mismatch) .ok
  | _ => .error v.mismatch

def optional (read : Value → Except Problem α) (v : Value) : Except Problem (Option α) :=
  match v with
  | null => .ok none
  | _ => some <$> read v

def list (read : Value → Except Problem α) (v : Value) : Except Problem (List α) :=
  match v with
  | array items closed => do
    let result ← items.mapM read
    if closed then .ok result else .error .malformed
  | _ => .error v.mismatch

mutual

def isSound : Value → Bool
  | text q => q.closed
  | array items closed => allSound items && closed
  | object members closed => allMembersSound members && closed
  | malformed => false
  | _ => true

def allSound : List Value → Bool
  | [] => true
  | v :: vs => isSound v && allSound vs

def allMembersSound : List (Quoted × Value) → Bool
  | [] => true
  | (key, v) :: rest => key.closed && isSound v && allMembersSound rest

end

mutual

def isReadable (depth : Nat) : Value → Bool
  | number n => n.isWord || n.toFloat?.isSome
  | text q => q.text?.isSome
  | array items closed => depth != 0 && allReadable (depth - 1) items && closed
  | object members closed => depth != 0 && allMembersReadable (depth - 1) members && closed
  | malformed => false
  | _ => true

def allReadable (depth : Nat) : List Value → Bool
  | [] => true
  | v :: vs => isReadable depth v && allReadable depth vs

def allMembersReadable (depth : Nat) : List (Quoted × Value) → Bool
  | [] => true
  | (key, v) :: rest => key.text?.isSome && isReadable depth v && allMembersReadable depth rest

end

def skip (v : Value) : Except Problem Unit :=
  if v.isSound then .ok () else .error .malformed

end Value

/--
A field of a record of type `ρ`: its name, other names that a file may use for it, and how its value
changes the record. A required field has to be there; the last fields of a record in array form may
be left off if they are not `positional`.
-/
structure RecordField (ρ : Type) where
  name : String
  aliases : List String := []
  required : Bool := true
  positional : Bool := true
  read : Value → ρ → Except Problem ρ

namespace RecordField

def isNamed (field : RecordField ρ) (name : String) : Bool :=
  name = field.name || field.aliases.contains name

def readMembers (fields : List (RecordField ρ)) (strict : Bool) :
    List (Quoted × Value) → List String → ρ → Except Problem (List String × ρ)
  | [], seen, record => .ok (seen, record)
  | (key, value) :: members, seen, record => do
    let some name := key.text? | .error .malformed
    match fields.find? (·.isNamed name) with
    | none =>
      if strict then .error (.unknownField name)
      value.skip
      readMembers fields strict members seen record
    | some field =>
      if seen.contains field.name then .error (.duplicateField field.name)
      let record ← field.read value record
      readMembers fields strict members (field.name :: seen) record

def readItems : List (RecordField ρ) → List Value → Bool → ρ → Except Problem ρ
  | [], items, closed, record => if items.isEmpty ∧ closed then .ok record else .error .malformed
  | field :: fields, [], closed, record =>
    if !closed then .error .malformed
    else if (field :: fields).any (·.positional) then .error .badValue
    else .ok record
  | field :: fields, item :: items, closed, record => do
    readItems fields items closed (← field.read item record)

end RecordField

def Value.record (fields : List (RecordField ρ)) (strict : Bool) (initial : ρ) (v : Value) :
    Except Problem ρ :=
  match v with
  | .object members closed => do
    let (seen, record) ← RecordField.readMembers fields strict members [] initial
    if !closed then .error .malformed
    match fields.find? (fun field => field.required && !seen.contains field.name) with
    | some field => .error (.missingField field.name)
    | none => .ok record
  | .array items closed => RecordField.readItems fields items closed initial
  | _ => .error v.mismatch

def Document.decode (read : Value → Except Problem α) (document : Document) : Except Problem α := do
  let result ← read document.value
  if document.complete then .ok result else .error .malformed

def decode (read : Value → Except Problem α) (s : String) : Except Problem α :=
  (parse s).decode read

end TextGen.Json
