import TextGen.Codec.Basic
import TextGen.Json.Token
import TextGen.Numeric.Binary
import TextGen.Text.Lower
import TextGen.Text.Utf8
import TextGen.Text.Word

/-!
Word-level tokenizers: every word of a text is looked up in a vocabulary, and added tokens are cut
out of the text before it is split into words.
-/

namespace TextGen

structure AddedToken where
  id : Nat
  content : String
  special : Bool
  -- It is no token where a word character stands beside it.
  single : Bool
  -- Blanks before it belong to it.
  takesBefore : Bool
  takesAfter : Bool
  -- It is looked for in the normalized text, and not in the text as it is given.
  normalized : Bool
  deriving DecidableEq, Repr

namespace AddedToken

def append (vocabulary : List (String × Nat)) (tokens : List AddedToken) (token : AddedToken) :
    List AddedToken :=
  if token.content.isEmpty then tokens
  else if tokens.any (·.content = token.content) then
    tokens.map fun earlier =>
      if earlier.content = token.content then
        { token with id := earlier.id, special := earlier.special || token.special }
      else earlier
  else
    let next := tokens.foldl (fun n earlier => max n (earlier.id + 1)) vocabulary.length
    tokens ++ [{ token with id := (vocabulary.lookup token.content).getD next }]

def number (vocabulary : List (String × Nat)) (tokens : List AddedToken) : List AddedToken :=
  tokens.foldl (append vocabulary) []

end AddedToken

inductive WordSplit
  | whole
  | words
  | parts
  deriving DecidableEq, Repr

inductive TokenJoin
  | spaces
  | bytes
  deriving DecidableEq, Repr

structure WordLevel where
  vocabulary : List (String × Nat)
  unknown : String
  added : List AddedToken
  lowercase : Bool
  split : WordSplit
  join : TokenJoin
  deriving DecidableEq, Repr

inductive Segment
  | token (id : Nat)
  | text (cs : List Char)
  deriving DecidableEq, Repr

namespace Segment

def ofText (cs : List Char) : List Segment := if cs.isEmpty then [] else [.text cs]

structure Pattern where
  letters : List Char
  token : AddedToken

def longest? (patterns : List Pattern) (cs : List Char) : Option Pattern :=
  patterns.foldl
    (fun best pattern =>
      let length := (best.map (·.letters.length)).getD 0
      if length < pattern.letters.length ∧ pattern.letters.isPrefixOf cs then some pattern
      else best)
    none

/--
How far a text has been cut. The characters `before` are those since the last token, the last one
first. Of the characters to come, `skip` belong to a pattern that was found, whether it is a token
or stays text, and the `blanks` after them belong to the token before.
-/
structure Cutter where
  before : List Char := []
  previous : Option Char := none
  skip : Nat := 0
  isToken : Bool := false
  blanks : Nat := 0

def isAllowed (token : AddedToken) (previous next : Option Char) : Bool :=
  !token.single || (!previous.any Text.isWordChar && !next.any Text.isWordChar)

def cut (patterns : List Pattern) (cs : List Char) : List Segment :=
  go cs {}
where
  pass (c : Char) (state : Cutter) : Cutter :=
    if state.blanks = 0 then { state with before := c :: state.before, previous := some c }
    else { state with blanks := state.blanks - 1, previous := some c }
  go : List Char → Cutter → List Segment
    | [], state => ofText state.before.reverse
    | c :: cs, state =>
      match state.skip with
      | skip + 1 =>
        if state.isToken then go cs { state with skip := skip, previous := some c }
        else go cs (pass c { state with skip := skip })
      | 0 =>
        match longest? patterns (c :: cs) with
        | none => go cs (pass c state)
        | some pattern =>
          let added := pattern.token
          let skip := pattern.letters.length - 1
          let rest := cs.drop skip
          if isAllowed added state.previous rest.head? then
            let text :=
              if added.takesBefore then state.before.dropWhile Text.isBlank else state.before
            let blanks := if added.takesAfter then (rest.takeWhile Text.isBlank).length else 0
            ofText text.reverse ++ .token added.id ::
              go cs { previous := some c, skip := skip, isToken := true, blanks := blanks }
          else go cs (pass c { state with skip := skip, isToken := false })

end Segment

namespace WordLevel

def normalize (w : WordLevel) (cs : List Char) : List Char :=
  if w.lowercase then Text.lower cs else cs

def patterns (w : WordLevel) (normalized : Bool) : List Segment.Pattern :=
  let tokens := w.added.filter (·.normalized = normalized)
  (tokens.filter (·.special) ++ tokens.filter (!·.special)).map fun token =>
    let letters := token.content.toList
    ⟨if normalized then w.normalize letters else letters, token⟩

def segments (w : WordLevel) (cs : List Char) : List Segment :=
  (Segment.cut (w.patterns false) cs).flatMap fun
    | .token id => [.token id]
    | .text cs => Segment.cut (w.patterns true) (w.normalize cs)

def words (w : WordLevel) (cs : List Char) : List (List Char) :=
  match w.split with
  | .whole => if cs.isEmpty then [] else [cs]
  | .words => Text.words cs
  | .parts => Text.parts cs

def wordId (w : WordLevel) (word : List Char) : Except CodecError Nat :=
  match w.vocabulary.lookup (String.ofList word) <|> w.vocabulary.lookup w.unknown with
  | some id => .ok id
  | none => .error .encoding

def segmentIds (w : WordLevel) : Segment → Except CodecError (List Nat)
  | .token id => .ok [id]
  | .text cs => (w.words cs).mapM w.wordId

def encode (w : WordLevel) (text : String) : Except CodecError (List TokenId) := do
  let ids ← (w.segments text.toList).mapM w.segmentIds
  return ids.flatten.map Int.ofNat

def tokenId? (w : WordLevel) (text : String) : Option Nat :=
  ((w.added.find? (·.content = text)).map (·.id)) <|> w.vocabulary.lookup text

def token? (w : WordLevel) (id : Nat) : Option String :=
  ((w.added.find? (·.id = id)).map (·.content)) <|>
    (w.vocabulary.find? (·.2 = id)).map (·.1)

def shown (w : WordLevel) (ids : List Nat) : List String :=
  (ids.filterMap w.token?).filter fun token =>
    !w.added.any fun added => added.special && added.content = token

def byte? (token : String) : Option UInt8 :=
  match token.toList with
  | ['<', '0', 'x', a, b, '>'] => do
    let high ← if a = '+' then some 0 else Json.hexDigit? a
    return (high * 16 + (← Json.hexDigit? b)).toUInt8
  | _ => none

def bytesText (bytes : List UInt8) : List Char :=
  match Utf8.decode? bytes with
  | some s => s.toList
  | none => bytes.map fun _ => Utf8.replacement

def joinBytes (tokens : List String) : List Char :=
  go [] tokens
where
  go : List UInt8 → List String → List Char
    | run, [] => bytesText run.reverse
    | run, token :: tokens =>
      match byte? token with
      | some byte => go (byte :: run) tokens
      | none => bytesText run.reverse ++ token.toList ++ go [] tokens

def joined (w : WordLevel) (tokens : List String) : String :=
  match w.join with
  | .spaces => " ".intercalate tokens
  | .bytes => String.ofList (joinBytes tokens)

def decode (w : WordLevel) (ids : List TokenId) : Except CodecError String :=
  if ids.all fun id => 0 ≤ id && id < wordCount 32 then .ok (w.joined (w.shown (ids.map Int.toNat)))
  else .error .decoding

def codec (w : WordLevel) : Codec := ⟨w.encode, w.decode⟩

end WordLevel

end TextGen
