/-!
The dimensions of a decoder model, the identifiers of its tokens and the names of its tensors.
-/

namespace TextGen

-- Codecs and models agree on the nonnegative ones; any integer may occur where text or a file names
-- a token.
abbrev TokenId := Int

structure ModelShape where
  layerCount : Nat
  kvHeadCount : Nat
  headDim : Nat
  vocabSize : Nat
  deriving DecidableEq, Repr

namespace ModelShape

-- A batch of one, then heads, positions and the head dimension.
def kvShape (shape : ModelShape) (positions : Nat) : List Nat :=
  [1, shape.kvHeadCount, positions, shape.headDim]

end ModelShape

/--
The cached keys and values of a layer go into a forward pass as `past` tensors and come out of it,
longer by the new positions, as `present` ones.
-/
inductive TensorName
  | inputIds
  | attentionMask
  | positionIds
  | logits
  | pastKey (layer : Nat)
  | pastValue (layer : Nat)
  | presentKey (layer : Nat)
  | presentValue (layer : Nat)
  deriving DecidableEq, Repr

namespace TensorName

def text : TensorName → String
  | inputIds => "input_ids"
  | attentionMask => "attention_mask"
  | positionIds => "position_ids"
  | logits => "logits"
  | pastKey layer => "past_key_values." ++ toString layer ++ ".key"
  | pastValue layer => "past_key_values." ++ toString layer ++ ".value"
  | presentKey layer => "present." ++ toString layer ++ ".key"
  | presentValue layer => "present." ++ toString layer ++ ".value"

def isOutput : TensorName → Bool
  | logits | presentKey _ | presentValue _ => true
  | _ => false

def pastLayer? : TensorName → Option Nat
  | pastKey layer | pastValue layer => some layer
  | _ => none

end TensorName

end TextGen
