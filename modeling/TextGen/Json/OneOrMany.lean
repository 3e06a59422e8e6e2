import TextGen.Json.Reader

/-!
A setting that may be given as one value or as a list of values.
-/

namespace TextGen.Json

inductive OneOrMany (α : Type)
  | one (value : α)
  | many (values : List α)
  deriving DecidableEq, Repr

namespace OneOrMany

def toList : OneOrMany α → List α
  | one value => [value]
  | many values => values

/--
Read one value, else a list of values. The whole value is looked at first, so a flaw of the text
inside it comes before its kind; `depth` bounds how deep it may be nested.
-/
def read (depth : Nat) (item : Value → Except Problem α) (v : Value) :
    Except Problem (OneOrMany α) :=
  if !v.isReadable depth then .error .malformed
  else
    match item v, v.list item with
    | .ok value, _ => .ok (one value)
    | .error _, .ok values => .ok (many values)
    | .error _, .error _ => .error .badValue

def toValue (item : α → Value) : OneOrMany α → Value
  | one value => item value
  | many values => .array (values.map item) true

end OneOrMany

end TextGen.Json
