import TextGen.Backend.Error
import TextGen.Numeric.Binary
import TextGen.Tensor.Basic

/-!
One inference request on a bigram model: tensors are bound as inputs, a forward pass computes the
outputs from them. The cached key of a position is the token there and the cached value the position
itself, so that a cache shows what was fed back.
-/

namespace TextGen

structure Request where
  model : BigramModel
  inputs : Bindings
  outputs : Bindings
  deriving DecidableEq

namespace Request

def ofModel (model : BigramModel) : Request := ⟨model, .empty, .empty⟩

def set (r : Request) (name : TensorName) (tensor : Tensor) : Except BackendError Request :=
  let layerCount := r.model.shape.layerCount
  if name.isOutput then .error (.invalidInput (.isOutput name))
  else if name.pastLayer?.any (layerCount ≤ ·) then
    .error (.invalidInput (.beyondLayers name layerCount))
  else .ok { r with inputs := r.inputs.insert name tensor }

def get? (r : Request) (name : TensorName) : Option Tensor :=
  r.outputs.get? name <|> r.inputs.get? name

def remove (r : Request) (name : TensorName) : Request :=
  match r.outputs.get? name with
  | some _ => { r with outputs := r.outputs.erase name }
  | none => { r with inputs := r.inputs.erase name }

def keep (r : Request) (keeps : TensorName → Bool) : Request :=
  { r with inputs := r.inputs.keep keeps, outputs := r.outputs.keep keeps }

def reset (r : Request) : Request := .ofModel r.model

def input (r : Request) (name : TensorName) : Except BackendError Tensor :=
  (r.inputs.get? name).elim (.error (.missingTensor name)) .ok

def integerInput (r : Request) (name : TensorName) : Except BackendError (Grid Int) := do
  (← r.input name).integers?.elim (.error (.typeMismatch name)) .ok

def floatInput (r : Request) (name : TensorName) : Except BackendError (Grid Float32) := do
  (← r.input name).floats?.elim (.error (.typeMismatch name)) .ok

def checkShape (name : TensorName) (expected actual : List Nat) : Except BackendError Unit :=
  if actual = expected then .ok () else .error (.shapeMismatch name expected actual)

def pastLayers (r : Request) (expected : List Nat) :
    List Nat → Except BackendError (List (Grid Float32 × Grid Float32))
  | [] => .ok []
  | layer :: layers => do
    let key ← r.floatInput (.pastKey layer)
    checkShape (.pastKey layer) expected key.shape
    let value ← r.floatInput (.pastValue layer)
    checkShape (.pastValue layer) expected value.shape
    return (key, value) :: (← r.pastLayers expected layers)

def grow (shape : ModelShape) (past : Nat) (cached : Grid Float32) (added : Array Float32) :
    Grid Float32 :=
  .ofFn (shape.kvShape (past + added.size)) fun
    | [batch, head, position, component] =>
      if position < past then cached.getD [batch, head, position, component] 0
      else added.getD (position - past) 0
    | _ => 0

def seenTokens (key : Grid Float32) : List Nat :=
  (List.range (key.extent 2)).map fun position => Binary32.toIndex (key.getD [0, 0, position, 0] 0)

def scoreRows (model : BigramModel) (tokens : List TokenId) (seen : List Nat) (past : Nat) :
    List (List Float32) :=
  tokens.zipIdx.map fun (token, index) => model.scores token (seen.take (past + index + 1))

def growLayers (shape : ModelShape) (past : Nat) (tokens : List TokenId)
    (layers : List (Grid Float32 × Grid Float32)) : List (Grid Float32 × Grid Float32) :=
  let keys := (tokens.map Float32.ofInt).toArray
  let values := ((List.range tokens.length).map fun i => Float32.ofNat (past + i)).toArray
  layers.map fun (key, value) => (grow shape past key keys, grow shape past value values)

def scoreGrid (inputLength vocabSize : Nat) (rows : List (List Float32)) : Grid Float32 :=
  let rows := (rows.map List.toArray).toArray
  .ofFn [1, inputLength, vocabSize] fun
    | [_, position, token] => (rows.getD position #[]).getD token 0
    | _ => 0

def presentOutputs (presents : List (Grid Float32 × Grid Float32)) : List (TensorName × Tensor) :=
  presents.zipIdx.flatMap fun ((key, value), layer) =>
    [(.presentKey layer, .floats key), (.presentValue layer, .floats value)]

def outputsOf (model : BigramModel) (past inputLength : Nat) (tokens : List TokenId)
    (layers : List (Grid Float32 × Grid Float32)) : Bindings :=
  let presents := growLayers model.shape past tokens layers
  let seen := (presents.head?.map fun layer => seenTokens layer.1).getD []
  let rows := scoreRows model (tokens.take inputLength) seen past
  let logits := scoreGrid inputLength model.shape.vocabSize rows
  ⟨(.logits, .floats logits) :: presentOutputs presents⟩

def compute (r : Request) (cancelled : Bool) : Except BackendError Bindings := do
  if cancelled then throw .cancelled
  let inputIds ← r.integerInput .inputIds
  let inputLength := inputIds.extent 1
  if inputIds.shape.length ≠ 2 ∨ inputLength = 0 then throw (.invalidInput .noRow)
  let tokens := inputIds.toList
  if let some token := tokens.find? (!r.model.inVocabulary ·) then
    throw (.invalidInput (.outsideVocabulary token))
  let past := (← r.floatInput (.pastKey 0)).extent 2
  let layers ← r.pastLayers (r.model.shape.kvShape past) (List.range r.model.shape.layerCount)
  let mask ← r.integerInput .attentionMask
  checkShape .attentionMask [1, past + inputLength] mask.shape
  let positions ← r.integerInput .positionIds
  checkShape .positionIds [1, inputLength] positions.shape
  if positions.toList ≠ (List.range inputLength).map fun i => ((past + i : Nat) : Int) then
    throw (.invalidInput (.positions past))
  return outputsOf r.model past inputLength tokens layers

def infer (r : Request) (cancelled : Bool) : Except BackendError Request :=
  (r.compute cancelled).map fun outputs => { r with outputs }

end Request

end TextGen
