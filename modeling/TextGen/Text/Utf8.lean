/-!
UTF-8. Bytes are decoded one at a time by a machine that remembers what the bytes of a character so
far allow to follow. A byte that cannot follow ends the character, and the bytes before it count as
one invalid part: the longest possible beginning of a character, or a single byte that starts none.
-/

namespace TextGen.Utf8

/--
A character of which some bytes are known: the bits so far, the number of bytes still to come, and
the range of the next one.
-/
structure Pending where
  bits : Nat
  owed : Nat
  low : Nat
  high : Nat
  deriving DecidableEq, Repr

def replacement : Char := '\uFFFD'

/--
The character that a first byte stands for, or what has to follow it. Overlong forms, surrogates and
numbers above the last character are excluded by the range of the second byte.
-/
def start (b : Nat) : List (Option Char) × Option Pending :=
  if b < 0x80 then ([some (Char.ofNat b)], none)
  else if 0xC2 ≤ b ∧ b ≤ 0xDF then ([], some ⟨b - 0xC0, 1, 0x80, 0xBF⟩)
  else if b = 0xE0 then ([], some ⟨0, 2, 0xA0, 0xBF⟩)
  else if b = 0xED then ([], some ⟨0xD, 2, 0x80, 0x9F⟩)
  else if 0xE1 ≤ b ∧ b ≤ 0xEF then ([], some ⟨b - 0xE0, 2, 0x80, 0xBF⟩)
  else if b = 0xF0 then ([], some ⟨0, 3, 0x90, 0xBF⟩)
  else if 0xF1 ≤ b ∧ b ≤ 0xF3 then ([], some ⟨b - 0xF0, 3, 0x80, 0xBF⟩)
  else if b = 0xF4 then ([], some ⟨4, 3, 0x80, 0x8F⟩)
  else ([none], none)

def step (pending : Option Pending) (byte : UInt8) : List (Option Char) × Option Pending :=
  let b := byte.toNat
  match pending with
  | none => start b
  | some p =>
    if p.low ≤ b ∧ b ≤ p.high then
      let bits := p.bits * 64 + (b - 0x80)
      if p.owed ≤ 1 then ([some (Char.ofNat bits)], none)
      else ([], some ⟨bits, p.owed - 1, 0x80, 0xBF⟩)
    else
      let (units, pending) := start b
      (none :: units, pending)

def units (bytes : List UInt8) : List (Option Char) :=
  go none bytes
where
  go (pending : Option Pending) : List UInt8 → List (Option Char)
    | [] => if pending.isSome then [none] else []
    | b :: bs =>
      let (done, pending) := step pending b
      done ++ go pending bs

def decodeLossy (bytes : List UInt8) : String :=
  String.ofList ((units bytes).map (·.getD replacement))

def decode? (bytes : List UInt8) : Option String :=
  ((units bytes).mapM id).map String.ofList

def encode (s : String) : List UInt8 := s.toList.flatMap String.utf8EncodeChar

end TextGen.Utf8
