import TextGen.Codec.Basic
import TextGen.Text.Utf8

/-!
Codecs given by a table of byte pieces. A piece may hold part of a character, so that the characters
of a text can be split over tokens in any way.
-/

namespace TextGen

namespace Text

variable {α : Type} [BEq α]

def occursIn (pattern : List α) : List α → Bool
  | [] => pattern.isEmpty
  | c :: cs => pattern.isPrefixOf (c :: cs) || occursIn pattern cs

/--
Replace every occurrence of a pattern, from left to right and without overlap. The empty pattern
occurs before every character and at the end.
-/
def replaceAll (pattern replacement : List α) (cs : List α) : List α :=
  go 0 cs
where
  -- The first `skip` characters belong to an occurrence that has been replaced.
  go : Nat → List α → List α
    | 0, [] => if pattern.isEmpty then replacement else []
    | _ + 1, [] => []
    | skip + 1, _ :: cs => go skip cs
    | 0, c :: cs =>
      if pattern.isEmpty then replacement ++ c :: go 0 cs
      else if pattern.isPrefixOf (c :: cs) then replacement ++ go (pattern.length - 1) cs
      else c :: go 0 cs

end Text

structure PieceTable where
  pieces : List (TokenId × List UInt8)
  unknown : TokenId
  stripsSpace : Bool
  replacements : List (String × String)
  encodeFailure : Option String
  decodeFailures : List TokenId

namespace PieceTable

def ofPieces (pieces : List (TokenId × List UInt8)) : PieceTable := ⟨pieces, 0, false, [], none, []⟩

def longest? (table : PieceTable) (bytes : List UInt8) : Option (TokenId × List UInt8) :=
  table.pieces.foldl
    (fun best piece =>
      let length := (best.map (·.2.length)).getD 0
      if length < piece.2.length ∧ piece.2.isPrefixOf bytes then some piece else best)
    none

def tokens (table : PieceTable) (bytes : List UInt8) : List TokenId :=
  go 0 bytes
where
  -- The first `skip` bytes belong to the piece before.
  go : Nat → List UInt8 → List TokenId
    | _, [] => []
    | skip + 1, _ :: bytes => go skip bytes
    | 0, byte :: bytes =>
      match table.longest? (byte :: bytes) with
      | some (id, piece) => id :: go (piece.length - 1) bytes
      | none => table.unknown :: go 0 bytes

def bytes (table : PieceTable) (ids : List TokenId) : List UInt8 :=
  ids.flatMap fun id => (table.pieces.lookup id).getD []

def dropSpace : List Char → List Char
  | ' ' :: cs => cs
  | cs => cs

def tidy (table : PieceTable) (s : String) : String :=
  let cs := table.replacements.foldl
    (fun cs (pattern, replacement) => Text.replaceAll pattern.toList replacement.toList cs) s.toList
  String.ofList (if table.stripsSpace then dropSpace cs else cs)

def encode (table : PieceTable) (text : String) : Except CodecError (List TokenId) :=
  if table.encodeFailure.any fun pattern => Text.occursIn pattern.toList text.toList then
    .error .encoding
  else .ok (table.tokens (Utf8.encode text))

def decode (table : PieceTable) (ids : List TokenId) : Except CodecError String :=
  if ids.any table.decodeFailures.contains then .error .decoding
  else .ok (table.tidy (Utf8.decodeLossy (table.bytes ids)))

def codec (table : PieceTable) : Codec := ⟨table.encode, table.decode⟩

end PieceTable

end TextGen
