import TextGen.Proofs.Session.Run

/-!
This module contains what a forward pass does to a session that holds a sequence of tokens. If it
succeeds, the scores are those of the model after the whole sequence, and the cache holds the whole
sequence.
-/

namespace TextGen

def SessionState.ofTokens (shape : ModelShape) (tokens : List TokenId) : SessionState where
  tokens := tokens
  sequenceLength := tokens.length
  attentionMask := List.replicate tokens.length 1
  positionIds := Session.positionsFrom 0 tokens.length
  layers := List.replicate shape.layerCount ⟨shape.keys tokens, shape.values tokens.length⟩

theorem SessionState.ofTokens_nil (shape : ModelShape) : ofTokens shape [] = empty shape := by
  have hkeys : shape.keys [] = .replicate (shape.kvShape 0) 0 := shape.cached_nil 0
  have hvalues : shape.values 0 = .replicate (shape.kvShape 0) 0 := shape.cached_nil 0
  simp [ofTokens, empty, Cache.emptyLayer, Session.positionsFrom, hkeys, hvalues]

namespace Session

variable {s : Session} {model : BigramModel} {plan : FaultPlan} {limit : Option Nat}
variable {tokens ids : List TokenId} {mask positions : List Int} {cancelled : Bool}

theorem tokens_of_state {shape : ModelShape} (h : s.state = .ofTokens shape tokens)
    : s.tokens = tokens := congrArg SessionState.tokens h

theorem sequenceLength_of_state {shape : ModelShape} (h : s.state = .ofTokens shape tokens)
    : s.sequenceLength = tokens.length := congrArg SessionState.sequenceLength h

theorem attentionMask_of_state {shape : ModelShape} (h : s.state = .ofTokens shape tokens)
    : s.attentionMask = List.replicate tokens.length 1 := congrArg SessionState.attentionMask h

theorem positionIds_of_state {shape : ModelShape} (h : s.state = .ofTokens shape tokens)
    : s.positionIds = positionsFrom 0 tokens.length := congrArg SessionState.positionIds h

theorem layers_of_state {shape : ModelShape} (h : s.state = .ofTokens shape tokens)
    : s.cache.layers
        =
      List.replicate shape.layerCount ⟨shape.keys tokens, shape.values tokens.length⟩ :=
  congrArg SessionState.layers h

theorem positionsFrom_append (first count count' : Nat)
    : positionsFrom first count ++ positionsFrom (first + count) count'
        =
      positionsFrom first (count + count') := by
  simp [positionsFrom, List.range_add, Nat.add_assoc, Function.comp_def]

theorem continues_bound (h : s.RunsOn model plan limit)
    (hstate : s.state = .ofTokens model.shape tokens)
    (hmask : mask = List.replicate (tokens.length + ids.length) 1)
    (hpositions : positions = positionsFrom tokens.length ids.length)
    : (s.bound ids mask positions).request.Continues tokens ids := by
  have hmodel := h.model_bound ids mask positions
  have hlayers := layers_of_state hstate
  constructor
  . rw [s.get?_bound _ _ _ rfl]
    simp
  . rw [s.get?_bound _ _ _ rfl]
    simp [hmask]
  . rw [s.get?_bound _ _ _ rfl]
    simp [hpositions, positionsFrom]
  . intro layer hlayer
    rw [hmodel] at hlayer ⊢
    simp [bound, hlayers, hlayer]
  . intro layer hlayer
    rw [hmodel] at hlayer ⊢
    simp [bound, hlayers, hlayer]

theorem lastLogits_eq_ok {engine : Engine} {shape : ModelShape} {count : Nat}
    {logits : List Float32} (h : lastLogits engine shape count = .ok logits)
    : ∃ grid, engine.get? .logits = some (.floats grid)
        ∧ grid.shape = [1, count, shape.vocabSize]
        ∧ logits = (List.range shape.vocabSize).map fun token =>
          grid.getD [0, count - 1, token] 0 := by
  unfold lastLogits Engine.floats Request.checkShape at h
  cases hshown : engine.get? .logits with
  | none => simp [hshown, bind, Except.bind] at h
  | some tensor =>
    cases tensor with
    | integers grid => simp [hshown, Tensor.floats?, bind, Except.bind] at h
    | floats grid =>
      simp only [hshown, Tensor.floats?, bind, Except.bind, pure, Except.pure, Option.elim] at h
      split at h
      . contradiction
      . next hcheck =>
        split at hcheck
        . next hshape =>
          cases h
          exact ⟨grid, rfl, hshape, rfl⟩
        . contradiction

theorem lastLogits_of_get? {engine : Engine} {shape : ModelShape} {count : Nat}
    {grid : Grid Float32} (hshown : engine.get? .logits = some (.floats grid))
    (hshape : grid.shape = [1, count, shape.vocabSize])
    : lastLogits engine shape count
        =
      .ok ((List.range shape.vocabSize).map fun token => grid.getD [0, count - 1, token] 0) := by
  simp [lastLogits, Engine.floats, Request.checkShape, hshown, hshape, Tensor.floats?, bind,
    Except.bind, pure, Except.pure]

theorem layers_of_grown {engine : Engine} {found : List CacheLayer}
    (hpositive : model.shape.IsPositive) (hcount : found.length = model.shape.layerCount)
    (hgrown : Cache.Grown model.shape (tokens ++ ids).length found engine)
    (hshows : ∀ name grid tensor, name.isOutput = true →
      engine.get? name = some (.floats grid) →
      (Request.answer model tokens ids).get? name = some tensor →
      grid.shape = tensor.shape → tensor = .floats grid)
    : found
        =
      List.replicate model.shape.layerCount
        ⟨model.shape.keys (tokens ++ ids), model.shape.values (tokens ++ ids).length⟩ := by
  rw [List.eq_replicate_iff]
  refine ⟨hcount, ?_⟩
  intro layer hmem
  rcases List.mem_iff_getElem?.mp hmem with ⟨i, hi⟩
  have hlt : i < model.shape.layerCount := by
    rw [← hcount]
    exact (List.getElem?_eq_some_iff.mp hi).1
  have hshown := hgrown.shown i layer hi
  rw [Nat.zero_add] at hshown
  have hkey := Request.get?_answer_presentKey tokens ids hpositive i
  have hvalue := Request.get?_answer_presentValue tokens ids hpositive i
  rw [if_pos hlt] at hkey hvalue
  have hkeyEq := hshows _ _ _ rfl hshown.1 hkey (by
    rw [hgrown.keyShape layer hmem]
    simp [Tensor.shape])
  have hvalueEq := hshows _ _ _ rfl hshown.2 hvalue (by
    rw [hgrown.valueShape layer hmem]
    simp [Tensor.shape])
  cases layer
  simp_all

theorem run_ok (h : s.RunsOn model plan limit) (hpositive : model.shape.IsPositive)
    (hstate : s.state = .ofTokens model.shape tokens) (hids : ids ≠ [])
    (hmask : mask = List.replicate (tokens.length + ids.length) 1)
    (hpositions : positions = positionsFrom tokens.length ids.length) {logits : List Float32}
    (hresult : (s.run ids mask positions cancelled).result = .ok logits)
    : logits = model.scoresAfter (tokens ++ ids)
        ∧ ((s.run ids mask positions cancelled).session.commit ids mask
            (s.positionIds ++ positions)).state
            =
          .ofTokens model.shape (tokens ++ ids) := by
  have hmodel := h.model_bound ids mask positions
  have hgrowth : mask.length = (tokens ++ ids).length := by simp [hmask]
  rcases run_cases h ids mask positions cancelled with
    ⟨_, _, herror, _⟩ | ⟨_, found, hpass, hlogits, hfound, hgrown, hok, hsession⟩
  . rw [herror] at hresult
    contradiction
  . have hplan := h.detectable_bound ids mask positions
    rcases Engine.infer_shows hplan (separated_bound h) hpass with
      ⟨flag, outputs, hcompute, hshows⟩
    have houtputs : outputs = Request.answer model tokens ids := by
      rw [Request.compute_of_continues (continues_bound h hstate hmask hpositions) hids
        (by rw [hmodel]; exact hpositive.layerCount), hmodel] at hcompute
      split at hcompute
      . contradiction
      . split at hcompute
        . contradiction
        . cases hcompute
          rfl
    subst houtputs
    rw [hok] at hresult
    cases hresult
    -- Scores and layers have passed their checks of shape, so they are those that were computed.
    constructor
    . rw [h.shape_eq] at hlogits
      rcases lastLogits_eq_ok hlogits with ⟨grid, hshown, hshape, rfl⟩
      have hgrid := hshows _ _ _ rfl hshown
        (Request.get?_answer_logits tokens ids hpositive) hshape
      cases hgrid
      exact Request.lastRow_answer tokens hids
    . rw [hgrowth, h.cacheShape_eq] at hgrown
      rw [h.layerCount_eq] at hfound
      have htokens := tokens_of_state hstate
      have hseen := positionIds_of_state hstate
      have hlayers := layers_of_grown hpositive hfound hgrown hshows
      have hall := positionsFrom_append 0 tokens.length ids.length
      rw [Nat.zero_add] at hall
      rw [hsession]
      simp [state, commit, SessionState.ofTokens, htokens, hlayers, hseen, hmask, hpositions, hall]

end Session

end TextGen
