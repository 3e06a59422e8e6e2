import TextGen.Model.Shape
import TextGen.Numeric.Binary

/-!
The reference model: next-token scores that depend on the previous token, and a bonus for tokens
that have occurred before. The bonus makes the scores depend on the cache that is fed back.
-/

namespace TextGen

structure ScoredToken where
  token : TokenId
  score : Float32
  deriving DecidableEq

abbrev Transitions := List (TokenId × List ScoredToken)

namespace Transitions

def set (source : TokenId) (targets : List ScoredToken) : Transitions → Transitions
  | [] => [(source, targets)]
  | (other, old) :: rest =>
    if source < other then (source, targets) :: (other, old) :: rest
    else if source = other then (source, targets) :: rest
    else (other, old) :: set source targets rest

def targets (t : Transitions) (source : TokenId) : List ScoredToken := (t.lookup source).getD []

end Transitions

structure BigramModel where
  shape : ModelShape
  defaultScore : Float32
  repeatBonus : Float32
  transitions : Transitions
  deriving DecidableEq

inductive ModelFlaw
  | noLayersOrVocabulary
  | noHeadsOrDimension
  | transition (source : TokenId)
  deriving DecidableEq, Repr

namespace ModelFlaw

def message : ModelFlaw → String
  | noLayersOrVocabulary => "layer_count and vocab_size must be positive"
  | noHeadsOrDimension => "kv_head_count and head_dim must be positive"
  | transition source => "transition from token " ++ toString source ++ " leaves the vocabulary"

end ModelFlaw

namespace BigramModel

def ofShape (shape : ModelShape) : BigramModel := ⟨shape, 0, 0, []⟩

def transition (model : BigramModel) (source target : TokenId) (score : Float32) : BigramModel :=
  let targets := Transitions.targets model.transitions source ++ [⟨target, score⟩]
  { model with transitions := Transitions.set source targets model.transitions }

/--
The end of the token identifiers, a signed number of 64 bits: a vocabulary of more tokens than that
has wrapped around.
-/
def vocabularyEnd (model : BigramModel) : Int := (model.shape.vocabSize : Int).bmod (wordCount 64)

def inVocabulary (model : BigramModel) (token : TokenId) : Bool :=
  0 ≤ token && token < model.vocabularyEnd

def isClosed (model : BigramModel) (transition : TokenId × List ScoredToken) : Bool :=
  model.inVocabulary transition.1 && transition.2.all fun target => model.inVocabulary target.token

def validate (model : BigramModel) : Except ModelFlaw Unit := do
  if model.shape.layerCount = 0 ∨ model.shape.vocabSize = 0 then throw .noLayersOrVocabulary
  if model.shape.kvHeadCount = 0 ∨ model.shape.headDim = 0 then throw .noHeadsOrDimension
  match model.transitions.find? (!model.isClosed ·) with
  | some (source, _) => throw (.transition source)
  | none => return ()

def scores (model : BigramModel) (previous : TokenId) (seen : List Nat) : List Float32 :=
  let row := List.replicate model.shape.vocabSize model.defaultScore
  let row :=
    if model.repeatBonus == 0 then row
    else seen.foldl (fun row i => row.set i (model.defaultScore + model.repeatBonus)) row
  (Transitions.targets model.transitions previous).foldl
    (fun row target =>
      row.modify target.token.toNat fun score => score + (target.score - model.defaultScore))
    row

end BigramModel

end TextGen
