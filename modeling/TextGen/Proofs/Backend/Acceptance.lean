import Mathlib.Data.List.Forall2
import TextGen.Proofs.Backend.Outputs
import TextGen.Proofs.Except

/-!
This module contains which calls a forward pass accepts. The checks of a pass decide one property of
its inputs; if they succeed, then everything that the pass reads lies within its tensors, and the
shapes of its outputs are known. The batch of the tokens is the one axis that is not checked.
-/

namespace TextGen

namespace BigramModel

variable {model : BigramModel}

theorem isClosed_of_validate (h : model.validate = .ok ())
    : ∀ transition ∈ model.transitions, model.isClosed transition = true := by
  unfold validate at h
  simp only [bind, Except.bind, pure, Except.pure, throw, throwThe, MonadExceptOf.throw] at h
  repeat (split at h; contradiction)
  simpa using ‹model.transitions.find? (!model.isClosed ·) = none›

theorem inVocabulary_iff {token : TokenId}
    : model.inVocabulary token = true ↔ 0 ≤ token ∧ token < model.vocabularyEnd := by
  simp [inVocabulary]

theorem vocabularyEnd_of_lt (h : model.shape.vocabSize < Nat.pow 2 63)
    : model.vocabularyEnd = model.shape.vocabSize := by
  unfold vocabularyEnd wordCount
  have : Nat.pow 2 63 = 9223372036854775808 := rfl
  have : Nat.pow 2 64 = 18446744073709551616 := rfl
  rw [Int.bmod_eq_of_le_mul_two] <;> omega

theorem vocabularyEnd_le (model : BigramModel) : model.vocabularyEnd ≤ model.shape.vocabSize := by
  have hpositive : 0 < wordCount 64 := Nat.pow_pos Nat.zero_lt_two
  have hle : (model.shape.vocabSize : Int) % wordCount 64 ≤ model.shape.vocabSize :=
    Int.ofNat_le.mpr (Nat.mod_le _ _)
  unfold vocabularyEnd
  rw [Int.bmod_def]
  split <;> omega

theorem toNat_lt_of_inVocabulary {token : TokenId} (h : model.inVocabulary token = true)
    : token.toNat < model.shape.vocabSize := by
  have hend := vocabularyEnd_le model
  rcases inVocabulary_iff.mp h with ⟨hnonneg, hlt⟩
  exact (Int.toNat_lt hnonneg).mpr (Int.lt_of_lt_of_le hlt hend)

theorem mem_of_lookup {transitions : Transitions} {source : TokenId} {targets : List ScoredToken}
    (h : transitions.lookup source = some targets) : (source, targets) ∈ transitions := by
  induction transitions with
  | nil => simp at h
  | cons transition transitions ih =>
    rw [List.lookup_cons] at h
    split at h
    . next heq =>
      cases h
      rw [eq_of_beq heq]
      exact List.mem_cons_self
    . exact List.mem_cons_of_mem _ (ih h)

theorem inVocabulary_of_mem_targets (h : model.validate = .ok ()) {previous : TokenId}
    {target : ScoredToken} (htarget : target ∈ Transitions.targets model.transitions previous)
    : model.inVocabulary target.token = true := by
  unfold Transitions.targets at htarget
  cases hlookup : model.transitions.lookup previous with
  | none => simp [hlookup] at htarget
  | some targets =>
    have hclosed := isClosed_of_validate h _ (mem_of_lookup hlookup)
    simp only [hlookup, Option.getD_some] at htarget
    simp only [isClosed, Bool.and_eq_true, List.all_eq_true] at hclosed
    exact hclosed.2 target htarget

theorem toNat_lt_of_mem_targets (h : model.validate = .ok ()) {previous : TokenId}
    {target : ScoredToken} (htarget : target ∈ Transitions.targets model.transitions previous)
    : target.token.toNat < model.shape.vocabSize :=
  toNat_lt_of_inVocabulary (inVocabulary_of_mem_targets h htarget)

end BigramModel

namespace Request

variable {r : Request} {rows count past : Nat}

/-! ## The checks -/

theorem integerInput_eq_ok_iff {name : TensorName} {grid : Grid Int}
    : r.integerInput name = .ok grid ↔ r.inputs.get? name = some (.integers grid) := by
  unfold integerInput input
  cases r.inputs.get? name with
  | none => simp [bind, Except.bind]
  | some tensor => cases tensor <;> simp [bind, Except.bind, Tensor.integers?]

theorem floatInput_eq_ok_iff {name : TensorName} {grid : Grid Float32}
    : r.floatInput name = .ok grid ↔ r.inputs.get? name = some (.floats grid) := by
  unfold floatInput input
  cases r.inputs.get? name with
  | none => simp [bind, Except.bind]
  | some tensor => cases tensor <;> simp [bind, Except.bind, Tensor.floats?]

theorem checkShape_eq_ok_iff {name : TensorName} {expected actual : List Nat} {u : Unit}
    : checkShape name expected actual = .ok u ↔ actual = expected := by
  unfold checkShape
  split <;> simp_all

structure Caches (r : Request) (expected : List Nat) (layer : Nat)
    (cached : Grid Float32 × Grid Float32) : Prop where
  key : r.inputs.get? (.pastKey layer) = some (.floats cached.1)
  key_shape : cached.1.shape = expected
  value : r.inputs.get? (.pastValue layer) = some (.floats cached.2)
  value_shape : cached.2.shape = expected

theorem pastLayers_eq_ok_iff {expected layers : List Nat}
    {cached : List (Grid Float32 × Grid Float32)}
    : r.pastLayers expected layers = .ok cached
        ↔ List.Forall₂ (r.Caches expected) layers cached := by
  induction layers generalizing cached with
  | nil =>
    unfold pastLayers
    rw [Except.ok.injEq, List.forall₂_nil_left_iff, eq_comm]
  | cons layer layers ih =>
    unfold pastLayers
    simp only [bind_eq_ok_iff, floatInput_eq_ok_iff, checkShape_eq_ok_iff, ih, pure, Except.pure,
      Except.ok.injEq]
    constructor
    . rintro ⟨key, hkey, _, hkeyShape, value, hvalue, _, hvalueShape, rest, hrest, rfl⟩
      exact .cons ⟨hkey, hkeyShape, hvalue, hvalueShape⟩ hrest
    . rintro (_ | ⟨hcached, hrest⟩)
      exact ⟨_, hcached.key, (), hcached.key_shape, _, hcached.value, (), hcached.value_shape, _,
        hrest, rfl⟩

/--
The tokens and the cached layers with which all checks of a pass succeed: `rows` rows of `count` new
tokens each, after `past` cached positions.
-/
structure Accepts (r : Request) (rows count past : Nat) (ids : Grid Int)
    (cached : List (Grid Float32 × Grid Float32)) : Prop where
  count_pos : 0 < count
  inputIds : r.inputs.get? .inputIds = some (.integers ids)
  inputIds_shape : ids.shape = [rows, count]
  vocabulary : ∀ token ∈ ids.toList, r.model.inVocabulary token = true
  cached : List.Forall₂ (r.Caches (r.model.shape.kvShape past))
    (List.range r.model.shape.layerCount) cached
  attentionMask : ∃ mask, r.inputs.get? .attentionMask = some (.integers mask)
    ∧ mask.shape = [1, past + count]
  positionIds : ∃ positions, r.inputs.get? .positionIds = some (.integers positions)
    ∧ positions.shape = [1, count]
    ∧ positions.toList = (List.range count).map fun i => ((past + i : Nat) : Int)

variable {ids : Grid Int} {cached : List (Grid Float32 × Grid Float32)} {outputs : Bindings}

theorem exists_shape_of_length {shape : List Nat} (h : shape.length = 2)
    : ∃ rows, shape = [rows, shape.getD 1 0] := by
  match shape with
  | [rows, count] => exact ⟨rows, rfl⟩

theorem exists_accepts_of_compute (h : r.compute false = .ok outputs)
    : ∃ rows count past ids cached, r.Accepts rows count past ids cached
        ∧ outputs = outputsOf r.model past count ids.toList cached := by
  unfold compute at h
  simp only [Bool.false_eq_true, ↓reduceIte] at h
  rcases bind_eq_ok_iff.mp h with ⟨ids, hids, h⟩
  split at h
  . cases h
  next hrow =>
  split at h
  . cases h
  next hvocabulary =>
  rcases bind_eq_ok_iff.mp h with ⟨key, hkey, h⟩
  rcases bind_eq_ok_iff.mp h with ⟨cached, hcached, h⟩
  rcases bind_eq_ok_iff.mp h with ⟨mask, hmask, h⟩
  rcases bind_eq_ok_iff.mp h with ⟨_, hmaskShape, h⟩
  rcases bind_eq_ok_iff.mp h with ⟨positions, hpositions, h⟩
  rcases bind_eq_ok_iff.mp h with ⟨_, hpositionsShape, h⟩
  split at h
  . cases h
  next hcontinue =>
  rw [integerInput_eq_ok_iff] at hids hmask hpositions
  rw [pastLayers_eq_ok_iff] at hcached
  rw [checkShape_eq_ok_iff] at hmaskShape hpositionsShape
  simp only [not_or, Decidable.not_not] at hrow
  have hfind := Option.eq_none_iff_forall_ne_some.mpr hvocabulary
  rcases exists_shape_of_length hrow.1 with ⟨rows, hshape⟩
  cases h
  refine ⟨rows, ids.extent 1, key.extent 2, ids, cached, ?_, rfl⟩
  constructor
  . exact Nat.pos_of_ne_zero hrow.2
  . exact hids
  . exact hshape
  . simpa using hfind
  . exact hcached
  . exact ⟨mask, hmask, hmaskShape⟩
  . exact ⟨positions, hpositions, hpositionsShape, Decidable.not_not.mp hcontinue⟩

theorem Accepts.length_cached (h : r.Accepts rows count past ids cached)
    : cached.length = r.model.shape.layerCount := by
  simpa using h.cached.length_eq.symm

theorem Accepts.caches (h : r.Accepts rows count past ids cached) {layer : Nat}
    (hlayer : layer < cached.length)
    : r.Caches (r.model.shape.kvShape past) layer cached[layer] := by
  have hget := (List.forall₂_iff_get.mp h.cached).2 layer (by simpa [← h.length_cached]) hlayer
  simpa using hget

theorem Accepts.length_tokens (h : r.Accepts rows count past ids cached)
    : ids.toList.length = rows * count := by
  have hsize := ids.size_entries
  rw [h.inputIds_shape] at hsize
  simpa [Grid.toList, volume] using hsize

theorem compute_of_accepts (hlayers : 0 < r.model.shape.layerCount)
    (h : r.Accepts rows count past ids cached)
    : r.compute false = .ok (outputsOf r.model past count ids.toList cached) := by
  rcases h.attentionMask with ⟨mask, hmask, hmaskShape⟩
  rcases h.positionIds with ⟨positions, hpositions, hpositionsShape, hcontinue⟩
  have hlength : 0 < cached.length := h.length_cached ▸ hlayers
  have hfirst := h.caches hlength
  have hpast : cached[0].1.extent 2 = past := by
    rw [Grid.extent, hfirst.key_shape]
    rfl
  have hcount : ids.extent 1 = count := by
    rw [Grid.extent, h.inputIds_shape]
    rfl
  have hfind : ids.toList.find? (!r.model.inVocabulary ·) = none := by
    simpa using h.vocabulary
  have hnonempty : ¬count = 0 := Nat.ne_of_gt h.count_pos
  unfold compute
  simp only [integerInput_eq_ok_iff.mpr h.inputIds, integerInput_eq_ok_iff.mpr hmask,
    integerInput_eq_ok_iff.mpr hpositions, floatInput_eq_ok_iff.mpr hfirst.key, hpast, hcount,
    hfind, pastLayers_eq_ok_iff.mpr h.cached, hmaskShape, hpositionsShape, hcontinue,
    h.inputIds_shape, hnonempty, checkShape, bind, Except.bind, pure, Except.pure]
  simp

/-! ## What a pass reads and answers -/

/--
Everything that a pass over checked inputs reads lies within the tensors: the cached numbers of a
layer, a token for every row of scores, the first head and component of the first key cache, the
tokens up to each row, and the score of every successor of a token.
-/
structure InBounds (model : BigramModel) (past count : Nat) (tokens : List TokenId)
    (cached : List (Grid Float32 × Grid Float32)) : Prop where
  caches : ∀ layer ∈ cached, layer.1.shape = model.shape.kvShape past
    ∧ layer.2.shape = model.shape.kvShape past
  rows : ∀ position < count, position < tokens.length
  rows_pos : 0 < model.shape.vocabSize
  seen : ∃ first, (growLayers model.shape past tokens cached).head? = some first
    ∧ (∀ position < first.1.extent 2, [0, 0, position, 0] ∈ places first.1.shape)
    ∧ ∀ position < count, past + position + 1 ≤ (seenTokens first.1).length
  targets : ∀ token ∈ tokens, ∀ target ∈ Transitions.targets model.transitions token,
    target.token.toNat < model.shape.vocabSize

structure HasShapes (outputs : Bindings) (shape : ModelShape) (count total : Nat) : Prop where
  logits : ∃ logits, outputs.get? .logits = some (.floats logits)
    ∧ logits.shape = [1, count, shape.vocabSize]
  presentKey : ∀ layer < shape.layerCount, ∃ key,
    outputs.get? (.presentKey layer) = some (.floats key) ∧ key.shape = shape.kvShape total
  presentValue : ∀ layer < shape.layerCount, ∃ value,
    outputs.get? (.presentValue layer) = some (.floats value) ∧ value.shape = shape.kvShape total

theorem shape_grow (shape : ModelShape) (past : Nat) (cached : Grid Float32)
    (added : Array Float32)
    : (grow shape past cached added).shape = shape.kvShape (past + added.size) := rfl

theorem shape_of_mem_growLayers {shape : ModelShape} {tokens : List TokenId}
    {present : Grid Float32 × Grid Float32} (h : present ∈ growLayers shape past tokens cached)
    : present.1.shape = shape.kvShape (past + tokens.length)
        ∧ present.2.shape = shape.kvShape (past + tokens.length) := by
  unfold growLayers at h
  rcases List.mem_map.mp h with ⟨layer, _, rfl⟩
  simp [shape_grow]

theorem Accepts.inBounds (h : r.Accepts rows count past ids cached)
    (hvalid : r.model.validate = .ok ()) (hrows : 0 < rows)
    : InBounds r.model past count ids.toList cached := by
  have hpositive := BigramModel.isPositive_of_validate hvalid
  have hlength : count ≤ ids.toList.length := by
    rw [h.length_tokens]
    exact Nat.le_mul_of_pos_left count hrows
  have hlayers : 0 < (growLayers r.model.shape past ids.toList cached).length := by
    have := hpositive.layerCount
    simpa [growLayers, h.length_cached]
  constructor
  . intro layer hlayer
    rcases List.getElem_of_mem hlayer with ⟨index, hindex, rfl⟩
    have hcaches := h.caches hindex
    exact ⟨hcaches.key_shape, hcaches.value_shape⟩
  . intro position hposition
    omega
  . exact hpositive.vocabSize
  . have hshape := (shape_of_mem_growLayers (List.getElem_mem hlayers)).1
    have hextent : (growLayers r.model.shape past ids.toList cached)[0].1.extent 2
        = past + ids.toList.length := by
      rw [Grid.extent, hshape]
      rfl
    refine ⟨_, List.head?_eq_getElem? ▸ List.getElem?_eq_getElem hlayers, ?_, ?_⟩
    . intro position hposition
      rw [hextent] at hposition
      rw [hshape, ModelShape.mem_places_kvShape]
      exact ⟨0, position, 0, rfl, hpositive.kvHeadCount, hposition, hpositive.headDim⟩
    . intro position hposition
      rw [seenTokens, List.length_map, List.length_range, hextent]
      omega
  . intro token _ target htarget
    exact BigramModel.toNat_lt_of_mem_targets hvalid htarget

theorem Accepts.inBounds_iff (h : r.Accepts rows count past ids cached)
    (hvalid : r.model.validate = .ok ())
    : InBounds r.model past count ids.toList cached ↔ 0 < rows := by
  -- The rows of tokens are all that the checks leave open: without any row the first token that
  -- is read is not there.
  constructor
  . intro hbounds
    have hfirst := hbounds.rows 0 h.count_pos
    rw [h.length_tokens] at hfirst
    exact Nat.pos_of_mul_pos_right hfirst
  . exact h.inBounds hvalid

theorem hasShapes_outputsOf (model : BigramModel) (past count : Nat) (tokens : List TokenId)
    (hcached : cached.length = model.shape.layerCount)
    : HasShapes (outputsOf model past count tokens cached) model.shape count
        (past + tokens.length) := by
  have hpresents : (growLayers model.shape past tokens cached).length = model.shape.layerCount := by
    simpa [growLayers]
  constructor
  . exact ⟨_, rfl, rfl⟩
  . intro layer hlayer
    rw [← hpresents] at hlayer
    refine ⟨_, ?_, (shape_of_mem_growLayers (List.getElem_mem hlayer)).1⟩
    rw [get?_outputsOf_presentKey, List.getElem?_eq_getElem hlayer]
    rfl
  . intro layer hlayer
    rw [← hpresents] at hlayer
    refine ⟨_, ?_, (shape_of_mem_growLayers (List.getElem_mem hlayer)).2⟩
    rw [get?_outputsOf_presentValue, List.getElem?_eq_getElem hlayer]
    rfl

/-! ## Accepted calls -/

theorem infer_eq_ok_iff {r' : Request} (hlayers : 0 < r.model.shape.layerCount)
    : r.infer false = .ok r'
        ↔
      ∃ rows count past ids cached, r.Accepts rows count past ids cached
        ∧ r' = { r with outputs := outputsOf r.model past count ids.toList cached } := by
  unfold infer
  constructor
  . intro h
    cases hcompute : r.compute false with
    | error e => simp [hcompute, Except.map] at h
    | ok outputs =>
      rcases exists_accepts_of_compute hcompute with
        ⟨rows, count, past, ids, cached, haccepts, rfl⟩
      rw [hcompute] at h
      cases h
      exact ⟨rows, count, past, ids, cached, haccepts, rfl⟩
  . rintro ⟨rows, count, past, ids, cached, haccepts, rfl⟩
    rw [compute_of_accepts hlayers haccepts]
    rfl

structure IsWellFormed (r : Request) (count past : Nat) : Prop where
  count_pos : 0 < count
  inputIds : ∃ ids, r.inputs.get? .inputIds = some (.integers ids) ∧ ids.shape = [1, count]
    ∧ ∀ token ∈ ids.toList, r.model.inVocabulary token = true
  caches : ∀ layer < r.model.shape.layerCount,
    ∃ cached, r.Caches (r.model.shape.kvShape past) layer cached
  attentionMask : ∃ mask, r.inputs.get? .attentionMask = some (.integers mask)
    ∧ mask.shape = [1, past + count]
  positionIds : ∃ positions, r.inputs.get? .positionIds = some (.integers positions)
    ∧ positions.shape = [1, count]
    ∧ positions.toList = (List.range count).map fun i => ((past + i : Nat) : Int)

theorem exists_forall₂ {R : α → β → Prop} {xs : List α} (h : ∀ x ∈ xs, ∃ y, R x y)
    : ∃ ys, List.Forall₂ R xs ys := by
  induction xs with
  | nil => exact ⟨[], .nil⟩
  | cons x xs ih =>
    rcases h x List.mem_cons_self with ⟨y, hy⟩
    rcases ih fun x hx => h x (List.mem_cons_of_mem _ hx) with ⟨ys, hys⟩
    exact ⟨y :: ys, .cons hy hys⟩

theorem isWellFormed_iff
    : r.IsWellFormed count past ↔ ∃ ids cached, r.Accepts 1 count past ids cached := by
  constructor
  . intro h
    rcases h.inputIds with ⟨ids, hids, hshape, hvocabulary⟩
    rcases exists_forall₂ fun layer hlayer => h.caches layer (List.mem_range.mp hlayer) with
      ⟨cached, hcached⟩
    exact ⟨ids, cached, h.count_pos, hids, hshape, hvocabulary, hcached, h.attentionMask,
      h.positionIds⟩
  . rintro ⟨ids, cached, h⟩
    constructor
    . exact h.count_pos
    . exact ⟨ids, h.inputIds, h.inputIds_shape, h.vocabulary⟩
    . intro layer hlayer
      exact ⟨_, h.caches (h.length_cached ▸ hlayer)⟩
    . exact h.attentionMask
    . exact h.positionIds

theorem Accepts.rows_eq_one (h : r.Accepts rows count past ids cached)
    (hbatch : ∀ ids, r.inputs.get? .inputIds = some (.integers ids) → ids.shape.length = 2 →
      ids.extent 0 = 1) : rows = 1 := by
  have hextent := hbatch ids h.inputIds (by simp [h.inputIds_shape])
  rw [Grid.extent, h.inputIds_shape] at hextent
  exact hextent

/--
If tokens that are given in two axes are given in one row, then a pass over a valid model accepts
exactly the well-formed calls. It then reads nothing outside of its tensors, and its outputs have
the shapes of the new tokens and of the whole sequence.
-/
theorem infer_isOk_iff_isWellFormed (hvalid : r.model.validate = .ok ())
    (hbatch : ∀ ids, r.inputs.get? .inputIds = some (.integers ids) → ids.shape.length = 2 →
      ids.extent 0 = 1)
    : ((∃ r', r.infer false = .ok r') ↔ ∃ count past, r.IsWellFormed count past)
        ∧ (∀ r', r.infer false = .ok r' → ∃ count past ids cached,
          r.Accepts 1 count past ids cached
          ∧ InBounds r.model past count ids.toList cached
          ∧ r' = { r with outputs := outputsOf r.model past count ids.toList cached }
          ∧ HasShapes r'.outputs r.model.shape count (past + count))
        ∧ (r.model.shape.vocabSize < Nat.pow 2 63 → ∀ token, r.model.inVocabulary token = true
          ↔ 0 ≤ token ∧ token < r.model.shape.vocabSize) := by
  have hlayers := (BigramModel.isPositive_of_validate hvalid).layerCount
  have hanswer : ∀ r', r.infer false = .ok r' → ∃ count past ids cached,
      r.Accepts 1 count past ids cached
        ∧ r' = { r with outputs := outputsOf r.model past count ids.toList cached } := by
    intro r' h
    rcases (infer_eq_ok_iff hlayers).mp h with ⟨rows, count, past, ids, cached, haccepts, rfl⟩
    cases haccepts.rows_eq_one hbatch
    exact ⟨count, past, ids, cached, haccepts, rfl⟩
  refine ⟨⟨?_, ?_⟩, ?_, ?_⟩
  . rintro ⟨r', h⟩
    rcases hanswer r' h with ⟨count, past, ids, cached, haccepts, _⟩
    exact ⟨count, past, isWellFormed_iff.mpr ⟨ids, cached, haccepts⟩⟩
  . rintro ⟨count, past, h⟩
    rcases isWellFormed_iff.mp h with ⟨ids, cached, haccepts⟩
    exact ⟨_, (infer_eq_ok_iff hlayers).mpr ⟨1, count, past, ids, cached, haccepts, rfl⟩⟩
  . intro r' h
    rcases hanswer r' h with ⟨count, past, ids, cached, haccepts, rfl⟩
    have hshapes := hasShapes_outputsOf r.model past count ids.toList haccepts.length_cached
    rw [haccepts.length_tokens, Nat.one_mul] at hshapes
    exact ⟨count, past, ids, cached, haccepts, haccepts.inBounds hvalid Nat.one_pos, rfl, hshapes⟩
  . intro hsize token
    rw [BigramModel.inVocabulary_iff, BigramModel.vocabularyEnd_of_lt hsize]

theorem infer_isOk_of_two_tokens
    : let r : Request := ⟨(BigramModel.ofShape ⟨1, 2, 1, 2⟩).transition 0 1 1, ⟨[
        (.inputIds, .row [0, 1]), (.attentionMask, .row [1, 1, 1]), (.positionIds, .row [1, 2]),
        (.pastKey 0, .zeros [1, 2, 1, 1]), (.pastValue 0, .zeros [1, 2, 1, 1])]⟩, .empty⟩
      r.model.validate = .ok () ∧ ∃ r', r.infer false = .ok r'
        ∧ HasShapes r'.outputs r.model.shape 2 3 := by
  intro r
  have hvalid : r.model.validate = .ok () := by decide +kernel
  have hbatch : ∀ ids, r.inputs.get? .inputIds = some (.integers ids) → ids.shape.length = 2 →
      ids.extent 0 = 1 := by
    rintro ids ⟨⟩ _
    rfl
  have haccepted := infer_isOk_iff_isWellFormed hvalid hbatch
  have hwell : r.IsWellFormed 2 1 := by
    constructor
    . decide
    . exact ⟨_, rfl, rfl, by decide⟩
    . intro layer hlayer
      cases Nat.lt_one_iff.mp hlayer
      exact ⟨(_, _), rfl, rfl, rfl, rfl⟩
    . exact ⟨_, rfl, rfl⟩
    . exact ⟨_, rfl, rfl, rfl⟩
  rcases haccepted.1.mpr ⟨2, 1, hwell⟩ with ⟨r', hr'⟩
  rcases haccepted.2.1 r' hr' with ⟨count, past, ids, cached, haccepts, _, _, hshapes⟩
  have hcount : count = 2 := by
    rcases haccepts.inputIds with ⟨⟩
    cases haccepts.inputIds_shape
    rfl
  have htotal : past + count = 3 := by
    rcases haccepts.attentionMask with ⟨mask, ⟨⟩, hshape⟩
    exact (List.cons.inj (List.cons.inj hshape).2).1.symm
  rw [htotal, hcount] at hshapes
  exact ⟨hvalid, r', hr', hshapes⟩

theorem infer_isOk_of_two_rows
    : let r : Request := ⟨.ofShape ⟨1, 1, 1, 1⟩, ⟨[
        (.inputIds, .integers ⟨[2, 1], #[0, 0], rfl⟩), (.attentionMask, .row [1]),
        (.positionIds, .row [0]), (.pastKey 0, .zeros [1, 1, 0, 1]),
        (.pastValue 0, .zeros [1, 1, 0, 1])]⟩, .empty⟩
      r.model.validate = .ok () ∧ (∃ r', r.infer false = .ok r')
        ∧ ¬∃ count past, r.IsWellFormed count past := by
  intro r
  have haccepts : r.Accepts 2 1 0 ⟨[2, 1], #[0, 0], rfl⟩
      [(.replicate [1, 1, 0, 1] 0, .replicate [1, 1, 0, 1] 0)] := by
    constructor
    . decide
    . rfl
    . rfl
    . decide
    . exact .cons ⟨rfl, rfl, rfl, rfl⟩ .nil
    . exact ⟨_, rfl, rfl⟩
    . exact ⟨_, rfl, rfl, rfl⟩
  refine ⟨rfl, ⟨_, (infer_eq_ok_iff Nat.one_pos).mpr ⟨_, _, _, _, _, haccepts, rfl⟩⟩, ?_⟩
  rintro ⟨count, past, h⟩
  rcases h.inputIds with ⟨ids, ⟨⟩, hshape, _⟩
  cases hshape

end Request

end TextGen
