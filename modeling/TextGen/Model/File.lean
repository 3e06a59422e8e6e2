import TextGen.Json.Printer
import TextGen.Json.Reader
import TextGen.Model.Bigram
import TextGen.Storage
import TextGen.Text.Utf8

/-!
Model files: how a bigram model is written as JSON, and how a model directory is read.
-/

namespace TextGen

open Json (RecordField Value Problem Quoted)

namespace ScoredToken

def fields : List (RecordField ScoredToken) := [
  { name := "token", read := fun v t => return { t with token := ← v.signed } },
  { name := "score", read := fun v t => return { t with score := ← v.float32 } }
]

def ofValue (v : Value) : Except Problem ScoredToken := v.record fields false ⟨0, 0⟩

def toValue (t : ScoredToken) : Value :=
  .object [(.ofString "token", .integer t.token), (.ofString "score", .ofFloat32 t.score)] true

end ScoredToken

namespace Transitions

/--
A token identifier used as the name of a member. The name has to look like a number at its first
character, and is then read as one; escape sequences are not resolved.
-/
def keyOfQuoted (key : Quoted) : Except Problem TokenId :=
  match key.raw with
  | [] => .error .badValue
  | c :: _ =>
    if c.isDigit ∨ c = '-' then
      match Json.Number.scan? key.raw with
      | none => .error .malformed
      | some (n, rest) => do
        let id ← (Value.number n).signed
        if rest.isEmpty ∧ key.closed then .ok id else .error .malformed
    else .error .badValue

def ofMembers : List (Quoted × Value) → Transitions → Except Problem Transitions
  | [], t => .ok t
  | (key, v) :: members, t => do
    let source ← keyOfQuoted key
    let targets ← v.list ScoredToken.ofValue
    ofMembers members (t.set source targets)

def ofValue (v : Value) : Except Problem Transitions :=
  match v with
  | .object members closed => do
    let t ← ofMembers members []
    if closed then .ok t else .error .malformed
  | _ => .error v.mismatch

def toValue (t : Transitions) : Value :=
  .object
    (t.map fun (source, targets) =>
      (.ofString (toString source), .array (targets.map ScoredToken.toValue) true))
    true

end Transitions

inductive ModelFileError
  | unreadable
  | document (problem : Problem)
  | flaw (flaw : ModelFlaw)
  deriving DecidableEq

namespace ModelFileError

def message : ModelFileError → String
  | unreadable => "io"
  | document problem => problem.message
  | flaw reason => reason.message

end ModelFileError

namespace BigramModel

def fields : List (RecordField BigramModel) := [
  { name := "layer_count"
    read := fun v m => return { m with shape.layerCount := ← v.word } },
  { name := "kv_head_count"
    read := fun v m => return { m with shape.kvHeadCount := ← v.word } },
  { name := "head_dim"
    read := fun v m => return { m with shape.headDim := ← v.word } },
  { name := "vocab_size"
    read := fun v m => return { m with shape.vocabSize := ← v.word } },
  { name := "default_score", required := false, positional := false
    read := fun v m => return { m with defaultScore := ← v.float32 } },
  { name := "repeat_bonus", required := false, positional := false
    read := fun v m => return { m with repeatBonus := ← v.float32 } },
  { name := "transitions", required := false, positional := false
    read := fun v m => return { m with transitions := ← Transitions.ofValue v } }
]

def ofValue (v : Value) : Except Problem BigramModel :=
  v.record fields false (.ofShape ⟨0, 0, 0, 0⟩)

def toValue (model : BigramModel) : Value :=
  .object [
    (.ofString "layer_count", .natural model.shape.layerCount),
    (.ofString "kv_head_count", .natural model.shape.kvHeadCount),
    (.ofString "head_dim", .natural model.shape.headDim),
    (.ofString "vocab_size", .natural model.shape.vocabSize),
    (.ofString "default_score", .ofFloat32 model.defaultScore),
    (.ofString "repeat_bonus", .ofFloat32 model.repeatBonus),
    (.ofString "transitions", model.transitions.toValue)
  ] true

def render (model : BigramModel) : String := model.toValue.toPrettyString

def parse (contents : List UInt8) : Except ModelFileError BigramModel := do
  let document := Json.parseUnits (Utf8.units contents)
  let model ← (document.decode ofValue).mapError .document
  model.validate.mapError .flaw
  return model

def fileName : String := "model.json"

def load? (storage : Storage) (path : String) : Option (Except ModelFileError BigramModel) :=
  match storage (storage.resolve path fileName) with
  | none => none
  | some .directory => some (.error .unreadable)
  | some (.file contents) => some (parse contents)

def save (model : BigramModel) : StoredEntry := .file (Utf8.encode model.render)

end BigramModel

end TextGen
