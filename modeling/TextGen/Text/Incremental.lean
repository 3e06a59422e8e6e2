import TextGen.Codec.Basic
import TextGen.Text.Utf8

/-!
Incremental text. A token alone does not say how it looks in a text, so all pending tokens are
decoded again with every new one, and only what has not been printed yet is shown. Text that ends in
U+FFFD is held back, since the next token may complete a character.
-/

namespace TextGen

def dropBytes? : Nat → List Char → Option (List Char)
  | 0, cs => some cs
  | _ + 1, [] => none
  | count + 1, c :: cs =>
    if c.utf8Size ≤ count + 1 then dropBytes? (count + 1 - c.utf8Size) cs else none

-- Empty if there is no character boundary at the offset.
def textFrom (s : String) (offset : Nat) : String :=
  String.ofList ((dropBytes? offset s.toList).getD [])

structure IncrementalText where
  pending : List TokenId
  printed : Nat
  deriving DecidableEq, Repr

namespace IncrementalText

def empty : IncrementalText := ⟨[], 0⟩

/--
Add a token, and return the text that it reveals, if any. After a line end the pending tokens are
dropped. A token that cannot be decoded stays pending.
-/
def put (t : IncrementalText) (codec : Codec) (id : TokenId) :
    Except CodecError (Option String) × IncrementalText :=
  let t := { t with pending := t.pending ++ [id] }
  match codec.decode t.pending with
  | .error e => (.error e, t)
  | .ok text =>
    match text.toList.getLast? with
    | some '\n' => (.ok (some (textFrom text t.printed)), empty)
    | last =>
      if last = some Utf8.replacement then (.ok none, t)
      else
        let chunk := textFrom text t.printed
        (.ok (if chunk.isEmpty then none else some chunk), { t with printed := text.utf8ByteSize })

def finish (t : IncrementalText) (codec : Codec) : Except CodecError String × IncrementalText :=
  match codec.decode t.pending with
  | .error e => (.error e, t)
  | .ok text => (.ok (textFrom text t.printed ++ "\n"), empty)

end IncrementalText

end TextGen
