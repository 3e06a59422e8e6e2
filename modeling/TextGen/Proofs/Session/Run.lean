import TextGen.Proofs.Except
import TextGen.Proofs.Session.Cache
import TextGen.Session.Basic

/-!
This module contains what a forward pass can do to a session. If it succeeds, the session holds the
grown cache. If it fails, the session gets its cache back, or starts over if the request has lost a
part of it.
-/

namespace TextGen

structure SessionState where
  tokens : List TokenId
  sequenceLength : Nat
  attentionMask : List Int
  positionIds : List Int
  layers : List CacheLayer
  deriving DecidableEq

def SessionState.empty (shape : ModelShape) : SessionState :=
  ⟨[], 0, [], [], List.replicate shape.layerCount (Cache.emptyLayer shape)⟩

def Engine.HoldsPast (e : Engine) (layerCount : Nat) : Prop :=
  ∀ layer < layerCount,
    (e.get? (.pastKey layer)).isSome ∧ (e.get? (.pastValue layer)).isSome

namespace Session

def state (s : Session) : SessionState where
  tokens := s.tokens
  sequenceLength := s.sequenceLength
  attentionMask := s.attentionMask
  positionIds := s.positionIds
  layers := s.cache.layers

structure RunsOn (s : Session) (model : BigramModel) (plan : FaultPlan) (limit : Option Nat)
    : Prop where
  model_eq : s.engine.request.model = model
  plan_eq : s.engine.plan = plan
  detectable : plan.IsDetectable
  separated : s.engine.request.Separated
  shape_eq : s.shape = model.shape
  cacheShape_eq : s.cache.shape = model.shape
  layerCount_eq : s.cache.layers.length = model.shape.layerCount
  contextLimit_eq : s.contextLimit = limit

variable {s : Session} {model : BigramModel} {plan : FaultPlan} {limit : Option Nat}
variable {ids mask positions : List Int} {cancelled : Bool}

theorem create_eq_ok_iff {compiled : CompiledModel}
    : create compiled limit = .ok s
        ↔ (∀ error keeps, compiled.plan 0 ≠ some (.refuse error keeps))
          ∧ s = ofCompiled compiled limit := by
  unfold create CompiledModel.createRequest
  split
  . next error keeps hrefused =>
    refine iff_of_false nofun ?_
    intro h
    exact h.1 error keeps hrefused
  . next hcreated =>
    rw [mapError_ok, bind_of_ok rfl]
    constructor
    . intro h
      cases h
      exact ⟨hcreated, rfl⟩
    . intro h
      exact congrArg Except.ok h.2.symm

theorem create_compile (model : BigramModel) (threads limit : Option Nat)
    : create (model.compile threads) limit = .ok (ofCompiled (model.compile threads) limit) := rfl

theorem runsOn_ofCompiled (model : BigramModel) {plan : FaultPlan} (threads limit : Option Nat)
    (hplan : plan.IsDetectable)
    : (ofCompiled ⟨model, model.shape, plan, threads⟩ limit).RunsOn model plan limit where
  model_eq := rfl
  plan_eq := rfl
  detectable := hplan
  separated := .ofModel model
  shape_eq := rfl
  cacheShape_eq := rfl
  layerCount_eq := by simp [ofCompiled, Cache.ofShape]
  contextLimit_eq := rfl

theorem RunsOn.replace {engine : Engine} {cache : Cache} (h : s.RunsOn model plan limit)
    (hmodel : engine.request.model = s.engine.request.model) (hplan : engine.plan = s.engine.plan)
    (hseparated : engine.request.Separated) (hshape : cache.shape = s.cache.shape)
    (hlength : cache.layers.length = s.cache.layers.length)
    : ({ s with engine, cache } : Session).RunsOn model plan limit where
  model_eq := hmodel.trans h.model_eq
  plan_eq := hplan.trans h.plan_eq
  detectable := h.detectable
  separated := hseparated
  shape_eq := h.shape_eq
  cacheShape_eq := hshape.trans h.cacheShape_eq
  layerCount_eq := hlength.trans h.layerCount_eq
  contextLimit_eq := h.contextLimit_eq

theorem RunsOn.reset (h : s.RunsOn model plan limit) : s.reset.RunsOn model plan limit where
  model_eq := h.model_eq
  plan_eq := h.plan_eq
  detectable := h.detectable
  separated := .ofModel _
  shape_eq := h.shape_eq
  cacheShape_eq := h.cacheShape_eq
  layerCount_eq := by simp [Session.reset, Cache.reset, h.layerCount_eq]
  contextLimit_eq := h.contextLimit_eq

theorem RunsOn.state_reset (h : s.RunsOn model plan limit)
    : s.reset.state = .empty model.shape := by
  simp [state, Session.reset, Cache.reset, SessionState.empty, h.layerCount_eq, h.cacheShape_eq,
    List.map_const']

/-! ## The pass -/

def bound (s : Session) (ids mask positions : List Int) : Engine :=
  let e := ((s.engine.withInput .inputIds (.row ids)).withInput .attentionMask
    (.row mask)).withInput .positionIds (.row positions)
  { e with
    request := { e.request with inputs := .insertLayers s.cache.layers 0 e.request.inputs } }

def passed (s : Session) (ids mask positions : List Int) (cancelled : Bool) : Engine.Pass :=
  (s.bound ids mask positions).infer cancelled

theorem RunsOn.model_bound (h : s.RunsOn model plan limit) (ids mask positions : List Int)
    : (s.bound ids mask positions).request.model = model := h.model_eq

theorem RunsOn.detectable_bound (h : s.RunsOn model plan limit) (ids mask positions : List Int)
    : (s.bound ids mask positions).plan.IsDetectable := by
  show s.engine.plan.IsDetectable
  rw [h.plan_eq]
  exact h.detectable

theorem get?_bound (s : Session) (ids mask positions : List Int) {name : TensorName}
    (hname : name.pastLayer? = none)
    : (s.bound ids mask positions).request.inputs.get? name
        =
      if name = .positionIds then some (.row positions)
      else if name = .attentionMask then some (.row mask)
      else if name = .inputIds then some (.row ids)
      else s.engine.request.inputs.get? name := by
  unfold bound
  dsimp only
  rw [Bindings.get?_insertLayers_other _ _ _ hname]
  simp [Engine.withInput]

theorem get?_bound_pastKey {layer : Nat} (hlayer : layer < s.cache.layers.length)
    : (s.bound ids mask positions).request.inputs.get? (.pastKey layer)
        =
      some (.floats s.cache.layers[layer].key) := by
  simp [bound, hlayer]

theorem get?_bound_pastValue {layer : Nat} (hlayer : layer < s.cache.layers.length)
    : (s.bound ids mask positions).request.inputs.get? (.pastValue layer)
        =
      some (.floats s.cache.layers[layer].value) := by
  simp [bound, hlayer]

theorem bindInputs_eq (engine : Engine) (ids mask positions : List Int)
    : bindInputs engine ids mask positions
        =
      .ok (((engine.withInput .inputIds (.row ids)).withInput .attentionMask
        (.row mask)).withInput .positionIds (.row positions)) := by
  unfold bindInputs
  rw [Engine.set_of_isInput _ _ (TensorName.isInput_of_pastLayer?_eq_none rfl rfl _)]
  simp only [bind, Except.bind]
  rw [Engine.set_of_isInput _ _ (TensorName.isInput_of_pastLayer?_eq_none rfl rfl _)]
  dsimp only
  rw [Engine.set_of_isInput _ _ (TensorName.isInput_of_pastLayer?_eq_none rfl rfl _)]

theorem separated_bound (h : s.RunsOn model plan limit)
    : (s.bound ids mask positions).request.Separated := by
  have hids := Request.Separated.insert h.separated (.row ids)
    (rfl : TensorName.inputIds.isOutput = _)
  have hmask := hids.insert (.row mask) (rfl : TensorName.attentionMask.isOutput = _)
  have hseparated := hmask.insert (.row positions) (rfl : TensorName.positionIds.isOutput = _)
  constructor
  . intro name hname
    have hlayer : name.pastLayer? = none := by
      cases name <;> simp_all [TensorName.isOutput, TensorName.pastLayer?]
    have := hseparated.inputs name hname
    rw [s.get?_bound ids mask positions hlayer]
    simpa [Engine.withInput] using this
  . exact hseparated.outputs

theorem passedFrom_passed (h : s.RunsOn model plan limit) (ids mask positions : List Int)
    (cancelled : Bool)
    : Engine.PassedFrom (s.passed ids mask positions cancelled).engine
        (s.bound ids mask positions) := by
  apply Engine.passedFrom_infer
  . exact h.detectable_bound ids mask positions
  . exact separated_bound h

theorem run_eq (h : s.RunsOn model plan limit) (ids mask positions : List Int) (cancelled : Bool)
    : s.run ids mask positions cancelled
        =
      match s.passed ids mask positions cancelled with
      | ⟨.error e, engine, flag⟩ =>
        ⟨.error (.backend e), ({ s with engine, cache := s.cache.reset } : Session).recover, flag⟩
      | ⟨.ok (), engine, flag⟩ =>
        match lastLogits engine s.shape ids.length with
        | .error e =>
          ⟨.error (.backend e), ({ s with engine, cache := s.cache.reset } : Session).recover, flag⟩
        | .ok logits =>
          match s.cache.reset.absorb engine mask.length with
          | (.error e, cache, engine) =>
            ⟨.error e, ({ s with engine, cache } : Session).recover, flag⟩
          | (.ok (), cache, engine) => ⟨.ok logits, { s with engine, cache }, flag⟩ := by
  have hlayers : s.cache.layers.length ≤ s.engine.request.model.shape.layerCount := by
    apply Nat.le_of_eq
    rw [h.layerCount_eq, h.model_eq]
  have hbind : s.cache.bind (((s.engine.withInput .inputIds (.row ids)).withInput .attentionMask
      (.row mask)).withInput .positionIds (.row positions))
        =
      (.ok (), s.cache.reset, s.bound ids mask positions) := Cache.bind_eq _ _ hlayers
  unfold run
  rw [bindInputs_eq]
  unfold exchange
  dsimp only
  rw [hbind]
  dsimp only
  unfold passed
  rcases (s.bound ids mask positions).infer cancelled with ⟨result, engine, flag⟩
  cases result with
  | error e => rfl
  | ok _ =>
    dsimp only
    cases lastLogits engine s.shape ids.length with
    | error e => rfl
    | ok logits =>
      dsimp only
      rcases s.cache.reset.absorb engine mask.length with ⟨result, cache, engine⟩
      cases result with
      | error e => rfl
      | ok _ => rfl

theorem run_cases (h : s.RunsOn model plan limit) (ids mask positions : List Int)
    (cancelled : Bool)
    : (∃ e : SessionError, e.IsOfPass
        ∧ (s.run ids mask positions cancelled).result = .error e
        ∧ (s.run ids mask positions cancelled).session
            =
          ({ s with
            engine := (s.passed ids mask positions cancelled).engine
            cache := s.cache.reset } : Session).recover)
        ∨
      ∃ logits found, (s.passed ids mask positions cancelled).result = .ok ()
        ∧ lastLogits (s.passed ids mask positions cancelled).engine s.shape ids.length = .ok logits
        ∧ found.length = s.cache.layers.length
        ∧ Cache.Grown s.cache.shape mask.length found
            (s.passed ids mask positions cancelled).engine
        ∧ (s.run ids mask positions cancelled).result = .ok logits
        ∧ (s.run ids mask positions cancelled).session
            =
          { s with
            engine := (s.passed ids mask positions cancelled).engine.removeLayers
              .presentKey .presentValue found.length 0
            cache := { s.cache with layers := found } } := by
  rw [run_eq h]
  rcases s.passed ids mask positions cancelled with ⟨result, engine, flag⟩
  cases result with
  | error e =>
    left
    exact ⟨.backend _, trivial, rfl, rfl⟩
  | ok _ =>
    dsimp only
    cases hlogits : lastLogits engine s.shape ids.length with
    | error e =>
      left
      exact ⟨.backend _, trivial, rfl, rfl⟩
    | ok logits =>
      dsimp only
      rcases s.cache.reset.absorb_cases engine mask.length with
        ⟨e, he, habsorb⟩ | ⟨found, _, hlength, hgrown, habsorb⟩
      . left
        rw [habsorb]
        exact ⟨_, he, rfl, rfl⟩
      . right
        have hreset : s.cache.reset.layerCount = s.cache.layers.length := by
          simp [Cache.reset, Cache.layerCount]
        rw [habsorb]
        exact ⟨logits, found, rfl, rfl, hlength.trans hreset, hgrown, rfl, rfl⟩

/-! ## Recovery -/

theorem recover_of_shown {layers : List CacheLayer}
    (hlength : s.cache.layers.length = layers.length)
    (hshown : Cache.Shown .pastKey .pastValue layers 0 s.engine)
    : s.recover
        =
      { s with
        engine := s.engine.removeLayers .pastKey .pastValue layers.length 0
        cache := { s.cache with layers } } := by
  unfold recover Cache.reclaim
  rw [Cache.takeLayers_of_shown Cache.areDistinct_past hlength hshown]

theorem recover_frame (s : Session)
    : ∃ engine cache, Engine.SameRun s.engine engine
        ∧ cache.shape = s.cache.shape
        ∧ cache.layers.length = s.cache.layers.length
        ∧ (s.engine.HoldsPast s.cache.layers.length ∧ s.recover = { s with engine, cache }
          ∨ s.recover = ({ s with engine, cache } : Session).reset) := by
  have hframe := Cache.takeLayers_frame .pastKey .pastValue s.cache.layers 0 s.engine
  unfold recover Cache.reclaim
  generalize htake : Cache.takeLayers .pastKey .pastValue s.cache.layers 0 s.engine = taken
  rw [htake] at hframe
  rcases taken with ⟨result, layers, engine⟩
  refine ⟨engine, { s.cache with layers }, hframe.2, rfl, hframe.1, ?_⟩
  cases result with
  | error _ =>
    right
    rfl
  | ok _ =>
    left
    have hsome := Cache.isSome_of_takeLayers Cache.areDistinct_past (congrArg Prod.fst htake)
    simp only [Nat.zero_add] at hsome
    exact ⟨hsome, rfl⟩

theorem RunsOn.recover (h : s.RunsOn model plan limit) : s.recover.RunsOn model plan limit := by
  rcases s.recover_frame with ⟨engine, cache, hsame, hshape, hlength, ⟨_, heq⟩ | heq⟩
  . rw [heq]
    exact h.replace hsame.model hsame.plan (hsame.separated h.separated) hshape hlength
  . rw [heq]
    exact (h.replace hsame.model hsame.plan (hsame.separated h.separated) hshape hlength).reset

@[simp]
theorem calls_recover (s : Session) : s.recover.engine.calls = s.engine.calls := by
  rcases s.recover_frame with ⟨engine, cache, hsame, _, _, ⟨_, heq⟩ | heq⟩
  . rw [heq]
    exact hsame.calls
  . rw [heq]
    exact hsame.calls

/-! ## Passes and recovery together -/

theorem RunsOn.passed (h : s.RunsOn model plan limit) (ids mask positions : List Int)
    (cancelled : Bool)
    : ({ s with
        engine := (s.passed ids mask positions cancelled).engine
        cache := s.cache.reset } : Session).RunsOn model plan limit := by
  have hpassed := passedFrom_passed h ids mask positions cancelled
  apply h.replace
  . exact hpassed.model
  . exact hpassed.plan
  . exact hpassed.separated
  . rfl
  . simp [Cache.reset]

theorem RunsOn.run (h : s.RunsOn model plan limit) (ids mask positions : List Int)
    (cancelled : Bool)
    : (s.run ids mask positions cancelled).session.RunsOn model plan limit
        ∧ (s.run ids mask positions cancelled).session.engine.calls = s.engine.calls + 1 := by
  have hpassed := passedFrom_passed h ids mask positions cancelled
  have hruns := h.passed ids mask positions cancelled
  rcases run_cases h ids mask positions cancelled with
    ⟨_, _, _, hsession⟩ | ⟨_, found, _, _, hlength, _, _, hsession⟩
  . rw [hsession]
    constructor
    . exact hruns.recover
    . rw [calls_recover]
      exact hpassed.calls
  . have hsame := Engine.SameRun.removeLayers .presentKey .presentValue found.length 0
      (s.passed ids mask positions cancelled).engine
    rw [hsession]
    constructor
    . apply h.replace
      . exact hsame.model.trans hpassed.model
      . exact hsame.plan.trans hpassed.plan
      . exact hsame.separated hpassed.separated
      . rfl
      . exact hlength
    . exact hsame.calls.trans hpassed.calls

theorem shown_of_holdsPast (h : s.RunsOn model plan limit)
    (hpast : (s.passed ids mask positions cancelled).engine.HoldsPast model.shape.layerCount)
    : Cache.Shown .pastKey .pastValue s.cache.layers 0
        (s.passed ids mask positions cancelled).engine := by
  have hpassed := passedFrom_passed h ids mask positions cancelled
  intro i layer hlayer
  have hi : i < model.shape.layerCount := by
    rw [← h.layerCount_eq]
    rcases List.getElem?_eq_some_iff.mp hlayer with ⟨hi, _⟩
    exact hi
  have hsome := hpast i hi
  -- What is still there is what was bound, so that the engine shows the lent layer or nothing.
  have hkey : (s.bound ids mask positions).request.inputs.get? (.pastKey i)
      = some (.floats layer.key) := by
    simp [bound, hlayer]
  have hvalue : (s.bound ids mask positions).request.inputs.get? (.pastValue i)
      = some (.floats layer.value) := by
    simp [bound, hlayer]
  rw [Engine.get?_input hpassed.distortion hpassed.separated rfl,
    Engine.get?_input hpassed.distortion hpassed.separated rfl] at hsome
  rw [Nat.zero_add, Engine.get?_input hpassed.distortion hpassed.separated rfl,
    Engine.get?_input hpassed.distortion hpassed.separated rfl]
  constructor
  . rcases hpassed.inputs (.pastKey i) with heq | hnone
    . rw [heq, hkey]
    . simp [hnone] at hsome
  . rcases hpassed.inputs (.pastValue i) with heq | hnone
    . rw [heq, hvalue]
    . simp [hnone] at hsome

theorem run_error (h : s.RunsOn model plan limit) {e : SessionError}
    (hresult : (s.run ids mask positions cancelled).result = .error e)
    : e.IsOfPass
        ∧ ((s.passed ids mask positions cancelled).engine.HoldsPast model.shape.layerCount →
          (s.run ids mask positions cancelled).session.state = s.state)
        ∧ (¬(s.passed ids mask positions cancelled).engine.HoldsPast model.shape.layerCount →
          (s.run ids mask positions cancelled).session.state = .empty model.shape) := by
  have hlength : s.cache.reset.layers.length = s.cache.layers.length := by
    simp [Cache.reset]
  have hruns := h.passed ids mask positions cancelled
  rcases run_cases h ids mask positions cancelled with
    ⟨e', hpass, herror, hsession⟩ | ⟨_, _, _, _, _, _, hok, _⟩
  . rw [herror] at hresult
    cases hresult
    -- Recovery reclaims the layers exactly if all of them are still there.
    refine ⟨hpass, ?_, ?_⟩
    . intro hholds
      rw [hsession, recover_of_shown hlength (shown_of_holdsPast h hholds)]
      rfl
    . intro hlost
      rcases recover_frame ({ s with
          engine := (s.passed ids mask positions cancelled).engine
          cache := s.cache.reset } : Session) with
        ⟨engine, cache, hsame, hshape, hlayers, ⟨hholds, _⟩ | hrecover⟩
      . dsimp only at hholds
        rw [hlength, h.layerCount_eq] at hholds
        contradiction
      . rw [hsession, hrecover]
        apply RunsOn.state_reset
        exact hruns.replace hsame.model hsame.plan (hsame.separated hruns.separated) hshape hlayers
  . rw [hok] at hresult
    contradiction

end Session

end TextGen
