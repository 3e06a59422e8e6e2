import TextGen.Proofs.Backend.Scores
import TextGen.Proofs.Tensor.Bindings

/-!
This module contains what a request does with its tensors. A forward pass depends on nothing but the
model and the inputs that the model has, and its outputs are known if these continue a sequence.
-/

namespace TextGen

def TensorName.IsInput (name : TensorName) (layerCount : Nat) : Prop :=
  name.isOutput = false ∧ ∀ layer, name.pastLayer? = some layer → layer < layerCount

theorem TensorName.isInput_pastKey {layer layerCount : Nat} (h : layer < layerCount)
    : (pastKey layer).IsInput layerCount := by
  simp [IsInput, isOutput, pastLayer?, h]

theorem TensorName.isInput_pastValue {layer layerCount : Nat} (h : layer < layerCount)
    : (pastValue layer).IsInput layerCount := by
  simp [IsInput, isOutput, pastLayer?, h]

theorem TensorName.isInput_of_pastLayer?_eq_none {name : TensorName}
    (houtput : name.isOutput = false) (hpast : name.pastLayer? = none) (layerCount : Nat)
    : name.IsInput layerCount := by
  simp [IsInput, houtput, hpast]

namespace Request

theorem set_of_isInput {r : Request} {name : TensorName} (tensor : Tensor)
    (h : name.IsInput r.model.shape.layerCount)
    : r.set name tensor = .ok { r with inputs := r.inputs.insert name tensor } := by
  rcases h with ⟨houtput, hlayer⟩
  unfold set
  cases hpast : name.pastLayer? with
  | none => simp [houtput]
  | some layer =>
    have := hlayer layer hpast
    simp [houtput, this]

structure Separated (r : Request) : Prop where
  inputs : ∀ name, name.isOutput = true → r.inputs.get? name = none
  outputs : ∀ name, name.isOutput = false → r.outputs.get? name = none

theorem Separated.ofModel (model : BigramModel) : (ofModel model).Separated := by
  constructor <;> intros <;> rfl

theorem Separated.get?_output {r : Request} (h : r.Separated) {name : TensorName}
    (hname : name.isOutput = true) : r.get? name = r.outputs.get? name := by
  simp [get?, h.inputs name hname]

theorem Separated.get?_input {r : Request} (h : r.Separated) {name : TensorName}
    (hname : name.isOutput = false) : r.get? name = r.inputs.get? name := by
  simp [get?, h.outputs name hname]

theorem Separated.keep {r : Request} (h : r.Separated) (keeps : TensorName → Bool)
    : (r.keep keeps).Separated := by
  constructor
  . intro name hname
    simp [Request.keep, h.inputs name hname]
  . intro name hname
    simp [Request.keep, h.outputs name hname]

theorem Separated.insert {r : Request} (h : r.Separated) {name : TensorName} (tensor : Tensor)
    (hname : name.isOutput = false)
    : ({ r with inputs := r.inputs.insert name tensor } : Request).Separated := by
  constructor
  . intro other hother
    have : other ≠ name := by
      rintro rfl
      simp_all
    simp [this, h.inputs other hother]
  . exact h.outputs

/-! ## Forward passes -/

theorem compute_congr {r r' : Request} (cancelled : Bool) (hmodel : r.model = r'.model)
    (hlayers : 0 < r'.model.shape.layerCount)
    (hinputs : ∀ name, name.IsInput r'.model.shape.layerCount →
      r.inputs.get? name = r'.inputs.get? name)
    : r.compute cancelled = r'.compute cancelled := by
  have hinput : ∀ name, name.IsInput r'.model.shape.layerCount → r.input name = r'.input name := by
    intro name hname
    simp [input, hinputs name hname]
  have hfloat : ∀ name, name.IsInput r'.model.shape.layerCount →
      r.floatInput name = r'.floatInput name := by
    intro name hname
    unfold floatInput
    rw [hinput name hname]
  have hpast : ∀ expected (layers : List Nat),
      (∀ layer ∈ layers, layer < r'.model.shape.layerCount) →
      r.pastLayers expected layers = r'.pastLayers expected layers := by
    intro expected layers
    induction layers with
    | nil => intros; rfl
    | cons layer layers ih =>
      intro hmem
      have hlayer := hmem layer (by simp)
      unfold pastLayers
      rw [hfloat _ (TensorName.isInput_pastKey hlayer),
        hfloat _ (TensorName.isInput_pastValue hlayer), ih]
      intro other hother
      exact hmem other (by simp [hother])
  have hinteger : ∀ name, name.isOutput = false → name.pastLayer? = none →
      r.integerInput name = r'.integerInput name := by
    intro name houtput hnone
    unfold integerInput
    rw [hinput name (TensorName.isInput_of_pastLayer?_eq_none houtput hnone _)]
  unfold compute
  rw [hinteger .inputIds rfl rfl, hinteger .attentionMask rfl rfl, hinteger .positionIds rfl rfl,
    hfloat _ (TensorName.isInput_pastKey hlayers), hmodel]
  simp only [fun expected => hpast expected (List.range r'.model.shape.layerCount) (by simp)]

structure Continues (r : Request) (tokens ids : List TokenId) : Prop where
  inputIds : r.inputs.get? .inputIds = some (.row ids)
  attentionMask : r.inputs.get? .attentionMask
    = some (.row (List.replicate (tokens.length + ids.length) 1))
  positionIds : r.inputs.get? .positionIds
    = some (.row ((List.range ids.length).map fun i => ((tokens.length + i : Nat) : Int)))
  pastKey : ∀ layer < r.model.shape.layerCount,
    r.inputs.get? (.pastKey layer) = some (.floats (r.model.shape.keys tokens))
  pastValue : ∀ layer < r.model.shape.layerCount,
    r.inputs.get? (.pastValue layer) = some (.floats (r.model.shape.values tokens.length))

variable {r : Request} {tokens ids : List TokenId}

theorem pastLayers_of_continues (h : r.Continues tokens ids) (layers : List Nat)
    (hlayers : ∀ layer ∈ layers, layer < r.model.shape.layerCount)
    : r.pastLayers (r.model.shape.kvShape tokens.length) layers
        =
      .ok (List.replicate layers.length
        (r.model.shape.keys tokens, r.model.shape.values tokens.length)) := by
  induction layers with
  | nil => rfl
  | cons layer layers ih =>
    have hkey := h.pastKey layer (hlayers layer (by simp))
    have hvalue := h.pastValue layer (hlayers layer (by simp))
    have hrest := ih fun other hother => hlayers other (by simp [hother])
    unfold pastLayers
    simp [floatInput, input, hkey, hvalue, hrest, Tensor.floats?, checkShape, bind, Except.bind,
      pure, Except.pure, List.replicate_succ]

theorem compute_of_continues (h : r.Continues tokens ids) (hids : ids ≠ [])
    (hlayers : 0 < r.model.shape.layerCount) (cancelled : Bool)
    : r.compute cancelled
        =
      if cancelled then .error .cancelled
      else
        match ids.find? (!r.model.inVocabulary ·) with
        | some token => .error (.invalidInput (.outsideVocabulary token))
        | none =>
          .ok (outputsOf r.model tokens.length ids.length ids
            (List.replicate r.model.shape.layerCount
              (r.model.shape.keys tokens, r.model.shape.values tokens.length))) := by
  have hlength : ids.length ≠ 0 := by simpa using hids
  have hextent : (r.model.shape.keys tokens).extent 2 = tokens.length := by
    simp [ModelShape.keys]
  have hpast := pastLayers_of_continues h (List.range r.model.shape.layerCount) (by simp)
  rw [List.length_range] at hpast
  unfold compute
  cases cancelled with
  | true => rfl
  | false =>
    simp only [integerInput, floatInput, input, h.inputIds, h.attentionMask, h.positionIds,
      h.pastKey 0 hlayers, Tensor.row, Tensor.integers?, Tensor.floats?, Option.elim, bind,
      Except.bind, pure, Except.pure, throw, throwThe, MonadExceptOf.throw, Grid.extent_row,
      Grid.shape_row, Grid.toList_row, hextent, hpast, checkShape, hlength]
    cases ids.find? (!r.model.inVocabulary ·) with
    | some token => simp
    | none => simp

end Request

end TextGen
