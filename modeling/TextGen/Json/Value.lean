import TextGen.Json.Token

/-!
JSON values, read as far as the text allows. Where the text breaks off or goes wrong, the value
holds what was read before: an array or object that is not closed ends with its last item, and
`malformed` stands for a value that cannot be read at all. A reader that walks the value from left
to right therefore meets the first flaw of the text where it stands.
-/

namespace TextGen.Json

inductive Value
  | null
  | boolean (value : Bool)
  | number (value : Number)
  | text (value : Quoted)
  | array (items : List Value) (closed : Bool)
  | object (members : List (Quoted × Value)) (closed : Bool)
  | malformed
  deriving Repr

/--
The value that a text starts with, and whether nothing follows it.
-/
structure Document where
  value : Value
  complete : Bool
  deriving Repr

namespace Value

mutual

def read : Nat → List Token → Value × Option (List Token)
  | 0, _ => (.malformed, none)
  | fuel + 1, tokens =>
    match tokens with
    | .null :: rest => (.null, some rest)
    | .boolean b :: rest => (.boolean b, some rest)
    | .number n :: rest => (.number n, some rest)
    | .text q :: rest => (.text q, if q.closed then some rest else none)
    | .openArray :: .closeArray :: rest => (.array [] true, some rest)
    | .openArray :: rest =>
      let (items, rest) := readItems fuel rest
      (.array items rest.isSome, rest)
    | .openObject :: .closeObject :: rest => (.object [] true, some rest)
    | .openObject :: rest =>
      let (members, rest) := readMembers fuel rest
      (.object members rest.isSome, rest)
    | _ => (.malformed, none)

def readItems : Nat → List Token → List Value × Option (List Token)
  | 0, _ => ([], none)
  | fuel + 1, tokens =>
    let (item, rest) := read fuel tokens
    match rest with
    | some (.comma :: rest) =>
      let (items, rest) := readItems fuel rest
      (item :: items, rest)
    | some (.closeArray :: rest) => ([item], some rest)
    | _ => ([item], none)

def readMembers : Nat → List Token → List (Quoted × Value) × Option (List Token)
  | 0, _ => ([], none)
  | fuel + 1, tokens =>
    match tokens with
    | .text key :: .colon :: rest =>
      let (value, rest) := read fuel rest
      match rest with
      | some (.comma :: rest) =>
        let (members, rest) := readMembers fuel rest
        ((key, value) :: members, rest)
      | some (.closeObject :: rest) => ([(key, value)], some rest)
      | _ => ([(key, value)], none)
    | .text key :: _ => ([(key, .malformed)], none)
    | _ => ([], none)

end

def string (s : String) : Value := .text (.ofString s)

def natural (n : Nat) : Value := .number ⟨false, n, 0, none⟩

def integer (n : Int) : Value := .number ⟨n < 0, n.natAbs, 0, none⟩

end Value

def parseUnits (units : List (Option Char)) : Document :=
  let tokens := Token.scan (units.map scanned)
  let (value, rest) := Value.read (2 * tokens.length + 1) tokens
  ⟨value, match rest with | some [] => true | _ => false⟩

def parse (s : String) : Document := parseUnits (s.toList.map some)

end TextGen.Json
