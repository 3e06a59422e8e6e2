/-!
The tokens of JSON text. Scanning never fails: text that holds no further token yields the token
`malformed` and ends there, so that a reader meets the flaw only when it gets that far.

Text may come from bytes that are not all characters. In the text that is scanned the substitute
character U+001A, which no JSON text holds, stands for such bytes: a string literal may have them,
but it then has no text.
-/

namespace TextGen.Json

/--
A number as it is written: its digits without the point, how many of them follow the point, and the
exponent if one is given. A number without point and exponent is an integer literal.
-/
structure Number where
  negative : Bool
  digits : Nat
  places : Nat
  exponent : Option Int
  deriving DecidableEq, Repr

/--
A string literal as it is written between its quotes, escape sequences unresolved. A literal that
is not closed has the text up to its flaw.
-/
structure Quoted where
  raw : List Char
  closed : Bool
  deriving DecidableEq, Repr

inductive Token
  | openObject
  | closeObject
  | openArray
  | closeArray
  | colon
  | comma
  | null
  | boolean (value : Bool)
  | number (value : Number)
  | text (value : Quoted)
  | malformed
  deriving DecidableEq, Repr

def substitute : Char := '\x1a'

/--
The character to scan for a character of the text, or for bytes that are none. A substitute
character in the text is as wrong as the null character.
-/
def scanned : Option Char → Char
  | none => substitute
  | some c => if c = substitute then '\x00' else c

def hexDigit? (c : Char) : Option Nat :=
  if '0' ≤ c ∧ c ≤ '9' then some (c.toNat - '0'.toNat)
  else if 'a' ≤ c ∧ c ≤ 'f' then some (c.toNat - 'a'.toNat + 10)
  else if 'A' ≤ c ∧ c ≤ 'F' then some (c.toNat - 'A'.toNat + 10)
  else none

def hexUnit? (a b c d : Char) : Option Nat := do
  return (← hexDigit? a) * 4096 + (← hexDigit? b) * 256 + (← hexDigit? c) * 16 + (← hexDigit? d)

namespace Quoted

def scan : List Char → Quoted × List Char
  | [] => (⟨[], false⟩, [])
  | '"' :: rest => (⟨[], true⟩, rest)
  | '\\' :: 'u' :: a :: b :: c :: d :: rest =>
    if (hexUnit? a b c d).isSome then
      let (q, rest) := scan rest
      (⟨'\\' :: 'u' :: a :: b :: c :: d :: q.raw, q.closed⟩, rest)
    else
      (⟨['\\'], false⟩, [])
  | '\\' :: c :: rest =>
    if c ∈ ['"', '\\', '/', 'b', 'f', 'n', 'r', 't'] then
      let (q, rest) := scan rest
      (⟨'\\' :: c :: q.raw, q.closed⟩, rest)
    else
      (⟨['\\'], false⟩, [])
  | c :: rest =>
    if (c.toNat < 0x20 ∧ c ≠ substitute) ∨ c = '\\' then
      (⟨[c], false⟩, [])
    else
      let (q, rest) := scan rest
      (⟨c :: q.raw, q.closed⟩, rest)

def escaped : Char → Char
  | 'b' => '\x08'
  | 'f' => '\x0c'
  | 'n' => '\n'
  | 'r' => '\r'
  | 't' => '\t'
  | c => c

/--
Resolve the escape sequences of a literal. A character above U+FFFF is written as two units, the
first from D800 to DBFF and the second from DC00 to DFFF; such a unit alone names no character.
-/
def resolve : List Char → Option (List Char)
  | [] => some []
  | '\\' :: 'u' :: a :: b :: c :: d :: rest => do
    let unit ← hexUnit? a b c d
    if 0xD800 ≤ unit ∧ unit < 0xDC00 then
      match rest with
      | '\\' :: 'u' :: e :: f :: g :: h :: rest =>
        let second ← hexUnit? e f g h
        if 0xDC00 ≤ second ∧ second < 0xE000 then
          (resolve rest).map
            (Char.ofNat (0x10000 + (unit - 0xD800) * 0x400 + (second - 0xDC00)) :: ·)
        else none
      | _ => none
    else if 0xDC00 ≤ unit ∧ unit < 0xE000 then none
    else (resolve rest).map (Char.ofNat unit :: ·)
  | '\\' :: c :: rest => (resolve rest).map (escaped c :: ·)
  | c :: rest => if c = substitute then none else (resolve rest).map (c :: ·)

def text? (q : Quoted) : Option String :=
  if q.closed then (resolve q.raw).map String.ofList else none

def hexChar (n : Nat) : Char := (Nat.toDigits 16 n).getLastD '0'

def escape (c : Char) : List Char :=
  if c = '"' then ['\\', '"']
  else if c = '\\' then ['\\', '\\']
  else if c = '\x08' then ['\\', 'b']
  else if c = '\x0c' then ['\\', 'f']
  else if c = '\n' then ['\\', 'n']
  else if c = '\r' then ['\\', 'r']
  else if c = '\t' then ['\\', 't']
  else if c.toNat < 0x20 then ['\\', 'u', '0', '0', hexChar (c.toNat / 16), hexChar (c.toNat % 16)]
  else [c]

def ofString (s : String) : Quoted := ⟨s.toList.flatMap escape, true⟩

end Quoted

namespace Number

def ofDigits (ds : List Char) : Nat :=
  ds.foldl (fun n c => n * 10 + (c.toNat - '0'.toNat)) 0

def digits? (cs : List Char) : Option (List Char × List Char) :=
  match cs.span Char.isDigit with
  | ([], _) => none
  | (ds, rest) => some (ds, rest)

def exponent? : List Char → Option (Option Int × List Char)
  | c :: rest =>
    if c = 'e' ∨ c = 'E' then
      match rest with
      | '-' :: rest => (digits? rest).map fun (ds, rest) => (some (-(ofDigits ds : Int)), rest)
      | '+' :: rest => (digits? rest).map fun (ds, rest) => (some (ofDigits ds : Int), rest)
      | rest => (digits? rest).map fun (ds, rest) => (some (ofDigits ds : Int), rest)
    else some (none, c :: rest)
  | [] => some (none, [])

def unsigned? (negative : Bool) (cs : List Char) : Option (Number × List Char) := do
  let (whole, rest) ← digits? cs
  if whole.head? = some '0' ∧ whole.length > 1 then none
  let (fraction, rest) ←
    match rest with
    | '.' :: rest => digits? rest
    | rest => some ([], rest)
  let (exponent, rest) ← exponent? rest
  return (⟨negative, ofDigits (whole ++ fraction), fraction.length, exponent⟩, rest)

def scan? : List Char → Option (Number × List Char)
  | '-' :: rest => unsigned? true rest
  | cs => unsigned? false cs

def render (n : Number) : List Char :=
  let ds := Nat.toDigits 10 n.digits
  let padded := List.replicate (n.places + 1 - ds.length) '0' ++ ds
  let mantissa :=
    if n.places = 0 then padded
    else padded.take (padded.length - n.places) ++ '.' :: padded.drop (padded.length - n.places)
  let power :=
    match n.exponent with
    | none => []
    | some e => 'e' :: (if e < 0 then '-' else '+') :: Nat.toDigits 10 e.natAbs
  (if n.negative then ['-'] else []) ++ mantissa ++ power

end Number

namespace Token

def next : List Char → Token × List Char
  | '{' :: rest => (.openObject, rest)
  | '}' :: rest => (.closeObject, rest)
  | '[' :: rest => (.openArray, rest)
  | ']' :: rest => (.closeArray, rest)
  | ':' :: rest => (.colon, rest)
  | ',' :: rest => (.comma, rest)
  | '"' :: rest => let (q, rest) := Quoted.scan rest; (.text q, rest)
  | 'n' :: 'u' :: 'l' :: 'l' :: rest => (.null, rest)
  | 't' :: 'r' :: 'u' :: 'e' :: rest => (.boolean true, rest)
  | 'f' :: 'a' :: 'l' :: 's' :: 'e' :: rest => (.boolean false, rest)
  | cs =>
    match Number.scan? cs with
    | some (n, rest) => (.number n, rest)
    | none => (.malformed, [])

def isBlank (c : Char) : Bool := c = ' ' ∨ c = '\n' ∨ c = '\t' ∨ c = '\r'

def scan (cs : List Char) : List Token :=
  go cs.length cs
where
  go : Nat → List Char → List Token
    | 0, _ => []
    | fuel + 1, cs =>
      match cs.dropWhile isBlank with
      | [] => []
      | rest =>
        let (token, rest) := next rest
        token :: go fuel rest

end Token

end TextGen.Json
