import TextGen.Proofs.Backend.Request

/-!
This module contains the outputs of a forward pass: the scores of the new tokens, and for every
layer a present key and a present value that hold the whole sequence.
-/

namespace TextGen

namespace Request

def presentTensor? (presents : List (Grid Float32 × Grid Float32)) (start : Nat)
    : TensorName → Option Tensor
  | .presentKey layer => (entryFrom presents start layer).map fun present => .floats present.1
  | .presentValue layer => (entryFrom presents start layer).map fun present => .floats present.2
  | _ => none

theorem lookup_flatMap_zipIdx (presents : List (Grid Float32 × Grid Float32)) (start : Nat)
    (name : TensorName)
    : ((presents.zipIdx start).flatMap fun ((key, value), layer) =>
        [(TensorName.presentKey layer, Tensor.floats key),
          (TensorName.presentValue layer, Tensor.floats value)]).lookup name
        =
      presentTensor? presents start name := by
  induction presents generalizing start with
  | nil => cases name <;> simp [presentTensor?]
  | cons present presents ih =>
    rcases present with ⟨key, value⟩
    rw [List.zipIdx_cons, List.flatMap_cons]
    dsimp only
    rw [List.cons_append, List.cons_append, List.nil_append, lookup_cons_name, lookup_cons_name, ih]
    cases name with
    | presentKey layer =>
      by_cases hlayer : layer = start
      . simp [presentTensor?, entryFrom_cons, hlayer]
      . simp [presentTensor?, entryFrom_cons, hlayer]
    | presentValue layer =>
      by_cases hlayer : layer = start
      . simp [presentTensor?, entryFrom_cons, hlayer]
      . simp [presentTensor?, entryFrom_cons, hlayer]
    | inputIds => simp [presentTensor?]
    | attentionMask => simp [presentTensor?]
    | positionIds => simp [presentTensor?]
    | logits => simp [presentTensor?]
    | pastKey layer => simp [presentTensor?]
    | pastValue layer => simp [presentTensor?]

theorem lookup_presentOutputs (presents : List (Grid Float32 × Grid Float32)) (name : TensorName)
    : (presentOutputs presents).lookup name = presentTensor? presents 0 name := by
  apply lookup_flatMap_zipIdx

theorem get?_outputsOf_input (model : BigramModel) (past inputLength : Nat) (tokens : List TokenId)
    (layers : List (Grid Float32 × Grid Float32)) {name : TensorName}
    (hname : name.isOutput = false)
    : (outputsOf model past inputLength tokens layers).get? name = none := by
  unfold outputsOf Bindings.get?
  dsimp only
  rw [lookup_cons_name, lookup_presentOutputs]
  cases name <;> simp_all [TensorName.isOutput, presentTensor?]

theorem get?_outputsOf_presentKey (model : BigramModel) (past inputLength : Nat)
    (tokens : List TokenId) (layers : List (Grid Float32 × Grid Float32)) (layer : Nat)
    : (outputsOf model past inputLength tokens layers).get? (.presentKey layer)
        =
      (growLayers model.shape past tokens layers)[layer]?.map fun present => .floats present.1 := by
  unfold outputsOf Bindings.get?
  dsimp only
  rw [lookup_cons_name, lookup_presentOutputs]
  simp [presentTensor?]

theorem get?_outputsOf_presentValue (model : BigramModel) (past inputLength : Nat)
    (tokens : List TokenId) (layers : List (Grid Float32 × Grid Float32)) (layer : Nat)
    : (outputsOf model past inputLength tokens layers).get? (.presentValue layer)
        =
      (growLayers model.shape past tokens layers)[layer]?.map fun present => .floats present.2 := by
  unfold outputsOf Bindings.get?
  dsimp only
  rw [lookup_cons_name, lookup_presentOutputs]
  simp [presentTensor?]

theorem length_of_pastLayers {r : Request} {expected layers : List Nat}
    {past : List (Grid Float32 × Grid Float32)} (h : r.pastLayers expected layers = .ok past)
    : past.length = layers.length := by
  induction layers generalizing past with
  | nil =>
    cases h
    rfl
  | cons layer layers ih =>
    unfold pastLayers at h
    simp only [bind, Except.bind, pure, Except.pure] at h
    repeat (split at h; contradiction)
    next rest hrest =>
    cases h
    simp [ih hrest]

theorem exists_outputsOf_of_compute {r : Request} {cancelled : Bool} {outputs : Bindings}
    (h : r.compute cancelled = .ok outputs)
    : ∃ past inputLength tokens layers, layers.length = r.model.shape.layerCount
        ∧ outputs = outputsOf r.model past inputLength tokens layers := by
  unfold compute at h
  simp only [bind, Except.bind, pure, Except.pure, throw, throwThe, MonadExceptOf.throw] at h
  -- A check that fails ends the pass, so that only the last branch is left.
  repeat (split at h; contradiction)
  have hlength := length_of_pastLayers ‹r.pastLayers _ _ = .ok _›
  rw [List.length_range] at hlength
  cases h
  exact ⟨_, _, _, _, hlength, rfl⟩

theorem Separated.infer {r : Request} (h : r.Separated) {cancelled : Bool} {outputs : Bindings}
    (hcompute : r.compute cancelled = .ok outputs)
    : ({ r with outputs } : Request).Separated := by
  rcases exists_outputsOf_of_compute hcompute with ⟨past, inputLength, tokens, layers, _, rfl⟩
  constructor
  . exact h.inputs
  . intro name hname
    apply get?_outputsOf_input
    exact hname

/-! ## The outputs of a whole sequence -/

def answer (model : BigramModel) (tokens ids : List TokenId) : Bindings :=
  outputsOf model tokens.length ids.length ids
    (List.replicate model.shape.layerCount
      (model.shape.keys tokens, model.shape.values tokens.length))

def answerRows (model : BigramModel) (tokens ids : List TokenId) : List (List Float32) :=
  scoreRows model ids
    ((tokens ++ ids).map fun token => Binary32.toIndex (Float32.ofInt token)) tokens.length

variable {model : BigramModel} (tokens ids : List TokenId)

theorem answer_eq (hpositive : model.shape.IsPositive)
    : answer model tokens ids
        =
      ⟨(.logits, .floats (scoreGrid ids.length model.shape.vocabSize (answerRows model tokens ids)))
        :: presentOutputs (List.replicate model.shape.layerCount
          (model.shape.keys (tokens ++ ids), model.shape.values (tokens ++ ids).length))⟩ := by
  have hlayers : model.shape.layerCount ≠ 0 := by
    have := hpositive.layerCount
    omega
  unfold answer outputsOf
  dsimp only
  rw [growLayers_cached, List.head?_replicate, List.take_length]
  simp only [hlayers, ↓reduceIte, Option.map_some, Option.getD_some]
  rw [seenTokens_keys hpositive.kvHeadCount hpositive.headDim]
  rfl

theorem get?_answer_logits (hpositive : model.shape.IsPositive)
    : (answer model tokens ids).get? .logits
        =
      some (.floats
        (scoreGrid ids.length model.shape.vocabSize (answerRows model tokens ids))) := by
  rw [answer_eq tokens ids hpositive]
  simp [Bindings.get?]

theorem lastRow_answer {ids : List TokenId} (hids : ids ≠ [])
    : ((List.range model.shape.vocabSize).map fun token =>
        (scoreGrid ids.length model.shape.vocabSize (answerRows model tokens ids)).getD
          [0, ids.length - 1, token] 0)
        =
      model.scoresAfter (tokens ++ ids) :=
  lastRow_scoreGrid (List.length_pos_iff.mpr hids) (getElem?_scoreRows_last model tokens hids)
    (by simp)

theorem get?_answer_of_ne (hpositive : model.shape.IsPositive) {name : TensorName}
    (hname : name ≠ .logits)
    : (answer model tokens ids).get? name
        =
      presentTensor? (List.replicate model.shape.layerCount
        (model.shape.keys (tokens ++ ids), model.shape.values (tokens ++ ids).length)) 0 name := by
  rw [answer_eq tokens ids hpositive]
  simp [Bindings.get?, lookup_cons_name, lookup_presentOutputs, hname]

theorem get?_answer_presentKey (hpositive : model.shape.IsPositive) (layer : Nat)
    : (answer model tokens ids).get? (.presentKey layer)
        =
      if layer < model.shape.layerCount then some (.floats (model.shape.keys (tokens ++ ids)))
      else none := by
  rw [get?_answer_of_ne tokens ids hpositive (by simp)]
  by_cases hlayer : layer < model.shape.layerCount
  . simp [presentTensor?, hlayer]
  . simp [presentTensor?, hlayer]

theorem get?_answer_presentValue (hpositive : model.shape.IsPositive) (layer : Nat)
    : (answer model tokens ids).get? (.presentValue layer)
        =
      if layer < model.shape.layerCount then
        some (.floats (model.shape.values (tokens ++ ids).length))
      else none := by
  rw [get?_answer_of_ne tokens ids hpositive (by simp)]
  by_cases hlayer : layer < model.shape.layerCount
  . simp [presentTensor?, hlayer]
  . simp [presentTensor?, hlayer]

end Request

end TextGen
