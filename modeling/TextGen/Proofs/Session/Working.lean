import TextGen.Proofs.Session.Operations

/-!
This module contains the passes at which nothing goes wrong. Such a pass depends on nothing but the
state of the session, fails only if its inputs are refused, and otherwise answers with the scores of
the model after the whole sequence.
-/

namespace TextGen

namespace Session

variable {s s' : Session} {model : BigramModel} {plan plan' : FaultPlan} {limit : Option Nat}
variable {tokens ids : List TokenId} {id : TokenId} {mask positions : List Int} {cancelled : Bool}

def WorksNext (s : Session) : Prop := s.engine.plan (s.engine.calls + 1) = none

def answered (s : Session) (ids mask positions : List Int) (outputs : Bindings) : Engine :=
  { s.bound ids mask positions with
    request := { (s.bound ids mask positions).request with outputs }
    calls := s.engine.calls + 1
    distortion := [] }

theorem passed_of_compute_error (hworks : s.WorksNext) {error : BackendError}
    (hcompute : (s.bound ids mask positions).request.compute cancelled = .error error)
    : s.passed ids mask positions cancelled
        =
      ⟨.error error,
        s.answered ids mask positions (s.bound ids mask positions).request.outputs,
        cancelled⟩ := by
  have hpass := (s.bound ids mask positions).infer_of_plan_eq_none cancelled hworks
  rw [hcompute] at hpass
  exact hpass

theorem passed_of_compute_ok (hworks : s.WorksNext) {outputs : Bindings}
    (hcompute : (s.bound ids mask positions).request.compute cancelled = .ok outputs)
    : s.passed ids mask positions cancelled
        =
      ⟨.ok (), s.answered ids mask positions outputs, cancelled⟩ := by
  have hpass := (s.bound ids mask positions).infer_of_plan_eq_none cancelled hworks
  rw [hcompute] at hpass
  exact hpass

theorem cancelled_run (h : s.RunsOn model plan limit) (hworks : s.WorksNext)
    : (s.run ids mask positions cancelled).cancelled = cancelled := by
  rw [run_eq h]
  cases hcompute : (s.bound ids mask positions).request.compute cancelled with
  | error error => rw [passed_of_compute_error hworks hcompute]
  | ok outputs =>
    rw [passed_of_compute_ok hworks hcompute]
    dsimp only
    split
    . rfl
    . split <;> rfl

theorem holdsPast_passed (h : s.RunsOn model plan limit) (hworks : s.WorksNext)
    (ids mask positions : List Int) (cancelled : Bool)
    : (s.passed ids mask positions cancelled).engine.HoldsPast model.shape.layerCount := by
  have hpassed : ∃ outputs, (s.passed ids mask positions cancelled).engine
      = s.answered ids mask positions outputs := by
    cases hcompute : (s.bound ids mask positions).request.compute cancelled with
    | error error => exact ⟨_, by rw [passed_of_compute_error hworks hcompute]⟩
    | ok outputs => exact ⟨_, by rw [passed_of_compute_ok hworks hcompute]⟩
  have hseparated := (passedFrom_passed h ids mask positions cancelled).separated
  rcases hpassed with ⟨outputs, hpassed⟩
  rw [hpassed] at hseparated ⊢
  have hget (name : TensorName) (hname : name.isOutput = false)
      : (s.answered ids mask positions outputs).get? name
          =
        (s.bound ids mask positions).request.inputs.get? name :=
    hseparated.get?_input hname
  intro layer hlayer
  rw [← h.layerCount_eq] at hlayer
  rw [hget _ rfl, hget _ rfl, get?_bound_pastKey hlayer, get?_bound_pastValue hlayer]
  simp

theorem run_of_compute_error (h : s.RunsOn model plan limit) (hworks : s.WorksNext)
    {error : BackendError}
    (hcompute : (s.bound ids mask positions).request.compute cancelled = .error error)
    : (s.run ids mask positions cancelled).result = .error (.backend error)
        ∧ (s.run ids mask positions cancelled).session.state = s.state := by
  have hresult : (s.run ids mask positions cancelled).result = .error (.backend error) := by
    rw [run_eq h, passed_of_compute_error hworks hcompute]
  exact ⟨hresult, (run_error h hresult).2.1 (holdsPast_passed h hworks _ _ _ _)⟩

theorem run_of_compute_ok (h : s.RunsOn model plan limit) (hworks : s.WorksNext)
    {outputs : Bindings}
    (hcompute : (s.bound ids mask positions).request.compute cancelled = .ok outputs)
    : (s.run ids mask positions cancelled).result
          =
        (match lastLogits (s.answered ids mask positions outputs) s.shape ids.length with
        | .error e => .error (.backend e)
        | .ok logits =>
          (s.cache.reset.absorb (s.answered ids mask positions outputs) mask.length).1.map
            fun _ => logits)
      ∧ (s.run ids mask positions cancelled).session.state
          =
        match (s.run ids mask positions cancelled).result with
        | .error _ => s.state
        | .ok _ =>
          { s.state with
            layers := (s.cache.reset.absorb (s.answered ids mask positions outputs)
              mask.length).2.1.layers } := by
  have hpassed := passed_of_compute_ok hworks hcompute
  have hholds := holdsPast_passed h hworks ids mask positions cancelled
  constructor
  . rw [run_eq h, hpassed]
    dsimp only
    cases lastLogits (s.answered ids mask positions outputs) s.shape ids.length with
    | error e => rfl
    | ok logits =>
      dsimp only
      rcases s.cache.reset.absorb (s.answered ids mask positions outputs) mask.length with
        ⟨result, cache, engine⟩
      cases result with
      | error e => rfl
      | ok _ => rfl
  . cases hresult : (s.run ids mask positions cancelled).result with
    | error e => exact (run_error h hresult).2.1 hholds
    | ok logits =>
      rw [run_eq h, hpassed] at hresult ⊢
      dsimp only at hresult ⊢
      cases hlogits : lastLogits (s.answered ids mask positions outputs) s.shape ids.length with
      | error e => simp [hlogits] at hresult
      | ok scores =>
        simp only [hlogits] at hresult ⊢
        rcases habsorb : s.cache.reset.absorb (s.answered ids mask positions outputs) mask.length
          with ⟨result, cache, engine⟩
        rw [habsorb] at hresult
        cases result with
        | error e => contradiction
        | ok _ => rfl

/-! ## What a pass depends on -/

theorem compute_bound_congr (h : s.RunsOn model plan limit) (h' : s'.RunsOn model plan' limit)
    (hpositive : model.shape.IsPositive) (hstate : s.state = s'.state)
    : (s.bound ids mask positions).request.compute cancelled
        =
      (s'.bound ids mask positions).request.compute cancelled := by
  have hmodel := h.model_bound ids mask positions
  have hmodel' := h'.model_bound ids mask positions
  apply Request.compute_congr
  . rw [hmodel, hmodel']
  . rw [hmodel']
    exact hpositive.layerCount
  . intro name hname
    rw [hmodel'] at hname
    have hlayers : s.cache.layers = s'.cache.layers := congrArg SessionState.layers hstate
    cases name with
    | pastKey layer =>
      have hlayer : layer < s'.cache.layers.length := by
        rw [h'.layerCount_eq]
        exact hname.2 layer rfl
      simp [bound, hlayers, hlayer]
    | pastValue layer =>
      have hlayer : layer < s'.cache.layers.length := by
        rw [h'.layerCount_eq]
        exact hname.2 layer rfl
      simp [bound, hlayers, hlayer]
    | inputIds =>
      rw [s.get?_bound _ _ _ rfl, s'.get?_bound _ _ _ rfl]
      rfl
    | attentionMask =>
      rw [s.get?_bound _ _ _ rfl, s'.get?_bound _ _ _ rfl]
      rfl
    | positionIds =>
      rw [s.get?_bound _ _ _ rfl, s'.get?_bound _ _ _ rfl]
      rfl
    | logits => simp [TensorName.IsInput, TensorName.isOutput] at hname
    | presentKey layer => simp [TensorName.IsInput, TensorName.isOutput] at hname
    | presentValue layer => simp [TensorName.IsInput, TensorName.isOutput] at hname

theorem run_congr (h : s.RunsOn model plan limit) (h' : s'.RunsOn model plan' limit)
    (hpositive : model.shape.IsPositive) (hworks : s.WorksNext) (hworks' : s'.WorksNext)
    (hstate : s.state = s'.state) (ids mask positions : List Int) (cancelled : Bool)
    : (s.run ids mask positions cancelled).result = (s'.run ids mask positions cancelled).result
        ∧ (s.run ids mask positions cancelled).session.state
            =
          (s'.run ids mask positions cancelled).session.state := by
  have hcongr : (s.bound ids mask positions).request.compute cancelled
      = (s'.bound ids mask positions).request.compute cancelled :=
    compute_bound_congr h h' hpositive hstate
  cases hcompute : (s.bound ids mask positions).request.compute cancelled with
  | error error =>
    have hfirst := run_of_compute_error h hworks hcompute
    have hsecond := run_of_compute_error h' hworks' (hcongr.symm.trans hcompute)
    exact ⟨hfirst.1.trans hsecond.1.symm, (hfirst.2.trans hstate).trans hsecond.2.symm⟩
  | ok outputs =>
    -- The outputs are the same, and nothing but the outputs is read after the pass.
    have hcompute' := hcongr.symm.trans hcompute
    have hseparated : (s.answered ids mask positions outputs).request.Separated :=
      (separated_bound h).infer hcompute
    have hseparated' : (s'.answered ids mask positions outputs).request.Separated :=
      (separated_bound h').infer hcompute'
    have hshown : ∀ name, name.isOutput = true →
        (s.answered ids mask positions outputs).get? name
          =
        (s'.answered ids mask positions outputs).get? name := by
      intro name hname
      exact (hseparated.get?_output hname).trans (hseparated'.get?_output hname).symm
    have hcount : (s.answered ids mask positions outputs).presentCount
        = (s'.answered ids mask positions outputs).presentCount :=
      (Engine.presentCount_of_compute hcompute hseparated rfl).trans
        (Engine.presentCount_of_compute hcompute hseparated' rfl).symm
    have hshape : s.shape = s'.shape := h.shape_eq.trans h'.shape_eq.symm
    have hlayers : s.cache.layers = s'.cache.layers := congrArg SessionState.layers hstate
    have hreset : s.cache.reset = s'.cache.reset := by
      unfold Cache.reset
      rw [h.cacheShape_eq, h'.cacheShape_eq, hlayers]
    have habsorb := Cache.absorb_congr s.cache.reset mask.length hcount hshown
    have hlogits : lastLogits (s.answered ids mask positions outputs) s.shape ids.length
        = lastLogits (s'.answered ids mask positions outputs) s'.shape ids.length := by
      unfold lastLogits Engine.floats
      rw [hshown _ rfl, hshape]
    have hfirst := run_of_compute_ok h hworks hcompute
    have hsecond := run_of_compute_ok h' hworks' hcompute'
    have hresult : (s.run ids mask positions cancelled).result
        = (s'.run ids mask positions cancelled).result := by
      rw [hfirst.1, hsecond.1, hlogits, habsorb.1, hreset]
    refine ⟨hresult, ?_⟩
    rw [hfirst.2, hsecond.2, hresult, habsorb.2, hreset, hstate]

theorem state_commit (s : Session) (ids mask positions : List Int)
    : (s.commit ids mask positions).state
        =
      { tokens := s.state.tokens ++ ids
        sequenceLength := (s.state.tokens ++ ids).length
        attentionMask := mask
        positionIds := positions
        layers := s.state.layers } := rfl

theorem decodeStep_congr (h : s.RunsOn model plan limit) (h' : s'.RunsOn model plan' limit)
    (hpositive : model.shape.IsPositive) (hworks : s.WorksNext) (hworks' : s'.WorksNext)
    (hstate : s.state = s'.state) (id : TokenId) (cancelled : Bool)
    : (s.decodeStep id cancelled).result = (s'.decodeStep id cancelled).result
        ∧ (s.decodeStep id cancelled).session.state
            =
          (s'.decodeStep id cancelled).session.state := by
  have hlength : s.sequenceLength = s'.sequenceLength :=
    congrArg SessionState.sequenceLength hstate
  have hmask : s.attentionMask = s'.attentionMask := congrArg SessionState.attentionMask hstate
  have hpositions : s.positionIds = s'.positionIds := congrArg SessionState.positionIds hstate
  have hcheck : s.checkContext (s'.sequenceLength + 1)
      = s'.checkContext (s'.sequenceLength + 1) := by
    unfold checkContext
    rw [h.contextLimit_eq, h'.contextLimit_eq]
  have hrun := run_congr h h' hpositive hworks hworks' hstate [id] (s'.attentionMask ++ [1])
    (positionsFrom s'.sequenceLength 1) cancelled
  unfold decodeStep
  rw [hlength, hcheck, hmask, hpositions]
  split
  . exact ⟨rfl, hstate⟩
  . cases s'.checkContext (s'.sequenceLength + 1) with
    | error e => exact ⟨rfl, hstate⟩
    | ok _ =>
      dsimp only
      rw [hrun.1]
      split
      . rw [state_commit, state_commit, hrun.2]
        exact ⟨rfl, rfl⟩
      . exact hrun

/-! ## Passes over a sequence -/

theorem grown_of_answer {engine : Engine} (hpositive : model.shape.IsPositive)
    (hget : ∀ name, name.isOutput = true →
      engine.get? name = (Request.answer model tokens ids).get? name)
    : Cache.Grown model.shape (tokens ++ ids).length
        (List.replicate model.shape.layerCount
          ⟨model.shape.keys (tokens ++ ids), model.shape.values (tokens ++ ids).length⟩)
        engine := by
  constructor
  . intro i layer hlayer
    rw [List.getElem?_replicate] at hlayer
    split at hlayer
    . next hlt =>
      cases hlayer
      rw [Nat.zero_add, hget _ rfl, hget _ rfl, Request.get?_answer_presentKey tokens ids hpositive,
        Request.get?_answer_presentValue tokens ids hpositive, if_pos hlt, if_pos hlt]
      exact ⟨rfl, rfl⟩
    . contradiction
  . intro layer hlayer
    rw [List.eq_of_mem_replicate hlayer]
    simp
  . intro layer hlayer
    rw [List.eq_of_mem_replicate hlayer]
    simp

theorem run_of_vocabulary (h : s.RunsOn model plan limit) (hpositive : model.shape.IsPositive)
    (hworks : s.WorksNext) (hstate : s.state = .ofTokens model.shape tokens) (hids : ids ≠ [])
    (hvocabulary : ids.find? (!model.inVocabulary ·) = none)
    (hmask : mask = List.replicate (tokens.length + ids.length) 1)
    (hpositions : positions = positionsFrom tokens.length ids.length)
    : (s.run ids mask positions false).result = .ok (model.scoresAfter (tokens ++ ids)) := by
  have hmodel := h.model_bound ids mask positions
  have hcompute : (s.bound ids mask positions).request.compute false
      = .ok (Request.answer model tokens ids) := by
    rw [Request.compute_of_continues (continues_bound h hstate hmask hpositions) hids
      (by rw [hmodel]; exact hpositive.layerCount), hmodel, hvocabulary]
    rfl
  have hseparated : (s.answered ids mask positions
      (Request.answer model tokens ids)).request.Separated :=
    (separated_bound h).infer hcompute
  have hget : ∀ name, name.isOutput = true →
      (s.answered ids mask positions (Request.answer model tokens ids)).get? name
        =
      (Request.answer model tokens ids).get? name := by
    intro name hname
    exact hseparated.get?_output hname
  have hlogits := (hget _ rfl).trans (Request.get?_answer_logits tokens ids hpositive)
  have hgrown := grown_of_answer hpositive hget
  have hgrowth : mask.length = (tokens ++ ids).length := by simp [hmask]
  rw [← hgrowth, ← h.cacheShape_eq] at hgrown
  have hreset : s.cache.reset.layerCount = model.shape.layerCount := by
    simp [Cache.reset, Cache.layerCount, h.layerCount_eq]
  have hcount := Engine.presentCount_of_compute hcompute hseparated rfl
  rw [hmodel, ← hreset] at hcount
  rw [(run_of_compute_ok h hworks hcompute).1, h.shape_eq, lastLogits_of_get? hlogits rfl,
    Request.lastRow_answer tokens hids,
    Cache.absorb_of_grown hcount (by rw [List.length_replicate, hreset, h.cacheShape_eq]) hgrown]
  rfl

theorem run_of_not_vocabulary (h : s.RunsOn model plan limit) (hpositive : model.shape.IsPositive)
    (hworks : s.WorksNext) (hstate : s.state = .ofTokens model.shape tokens) (hids : ids ≠ [])
    {token : TokenId} (hvocabulary : ids.find? (!model.inVocabulary ·) = some token)
    (hmask : mask = List.replicate (tokens.length + ids.length) 1)
    (hpositions : positions = positionsFrom tokens.length ids.length)
    : (s.run ids mask positions false).result
          =
        .error (.backend (.invalidInput (.outsideVocabulary token)))
      ∧ (s.run ids mask positions false).session.state = s.state := by
  have hmodel := h.model_bound ids mask positions
  have hcompute := Request.compute_of_continues (continues_bound h hstate hmask hpositions) hids
    (by rw [hmodel]; exact hpositive.layerCount) false
  rw [hmodel, hvocabulary] at hcompute
  exact run_of_compute_error h hworks hcompute

end Session

end TextGen
