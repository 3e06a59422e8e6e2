import TextGen.Proofs.Session.Operations

/-!
This module contains what a session does not depend on: with all faults behind it, it answers the
same whatever the plan of the faults was and however many passes there were, and a prompt is
answered the same whatever came before it.
-/

namespace TextGen

namespace Engine

variable {e e' e'' : Engine}

/-! ## What no operation changes -/

structure LeadsTo (e e' : Engine) : Prop where
  model_eq : e'.request.model = e.request.model
  plan_eq : e'.plan = e.plan
  calls_le : e.calls ≤ e'.calls

theorem LeadsTo.refl (e : Engine) : e.LeadsTo e := ⟨rfl, rfl, Nat.le_refl _⟩

theorem LeadsTo.trans (h : e.LeadsTo e') (h' : e'.LeadsTo e'') : e.LeadsTo e'' where
  model_eq := h'.model_eq.trans h.model_eq
  plan_eq := h'.plan_eq.trans h.plan_eq
  calls_le := Nat.le_trans h.calls_le h'.calls_le

theorem SameRun.leadsTo (h : SameRun e e') : e.LeadsTo e' :=
  ⟨h.model, h.plan, Nat.le_of_eq h.calls.symm⟩

theorem leadsTo_set {name : TensorName} {tensor : Tensor} (h : e.set name tensor = .ok e')
    : e.LeadsTo e' := by
  unfold set Request.set at h
  dsimp only at h
  split at h
  . contradiction
  . split at h
    . contradiction
    . cases h
      exact ⟨rfl, rfl, Nat.le_refl _⟩

theorem leadsTo_infer (e : Engine) (cancelled : Bool) : e.LeadsTo (e.infer cancelled).engine := by
  rcases e.infer_cases cancelled with ⟨_, _, _, hengine⟩ | ⟨_, _, _, _, _, _, hengine, _⟩
  . rw [hengine]
    exact ⟨rfl, rfl, Nat.le_succ _⟩
  . rw [hengine]
    exact ⟨rfl, rfl, Nat.le_succ _⟩

/-! ## Another plan -/

def replan (e : Engine) (plan : FaultPlan) (calls : Nat) : Engine := { e with plan, calls }

def IsQuiet (e : Engine) : Prop := ∀ call, e.calls < call → e.plan call = none

variable {plan : FaultPlan} {calls : Nat}

theorem IsQuiet.next (h : e.IsQuiet) : e.plan (e.calls + 1) = none := h _ (Nat.lt_succ_self _)

theorem IsQuiet.of_leadsTo (h : e.IsQuiet) (hleads : e.LeadsTo e') : e'.IsQuiet := by
  intro call hcall
  rw [hleads.plan_eq]
  exact h call (Nat.lt_of_le_of_lt hleads.calls_le hcall)

theorem set_replan (e : Engine) (plan : FaultPlan) (calls : Nat) (name : TensorName)
    (tensor : Tensor)
    : (e.replan plan calls).set name tensor
        =
      (e.set name tensor).map (·.replan plan calls) := by
  unfold set
  show Except.map _ (e.request.set name tensor) = _
  cases e.request.set name tensor <;> rfl

theorem takeFloats_replan (e : Engine) (plan : FaultPlan) (calls : Nat) (name : TensorName)
    : (e.replan plan calls).takeFloats name
        =
      ((e.takeFloats name).1, (e.takeFloats name).2.replan plan calls) := by
  have hget : (e.replan plan calls).get? name = e.get? name := rfl
  unfold takeFloats take?
  rw [hget]
  cases e.get? name <;> rfl

theorem infer_replan (h : e.plan (e.calls + 1) = none) (h' : plan (calls + 1) = none)
    (cancelled : Bool)
    : (e.replan plan calls).infer cancelled
        =
      ⟨(e.infer cancelled).result, (e.infer cancelled).engine.replan plan (calls + 1),
        (e.infer cancelled).cancelled⟩ := by
  have hcompute : (e.replan plan calls).request.compute cancelled = e.request.compute cancelled :=
    rfl
  have hinfer' := (e.replan plan calls).infer_of_plan_eq_none cancelled h'
  rw [hinfer', infer_of_plan_eq_none cancelled h, hcompute]
  cases e.request.compute cancelled <;> rfl

end Engine

/-! ## The cache -/

namespace Cache

variable {shape : ModelShape} {layers : List CacheLayer} {plan : FaultPlan} {calls : Nat}

theorem bindLayers_frame (shape : ModelShape) (layers : List CacheLayer) (index : Nat)
    (engine : Engine)
    : (bindLayers shape layers index engine).2.1.length = layers.length
        ∧ engine.LeadsTo (bindLayers shape layers index engine).2.2 := by
  induction layers generalizing index engine with
  | nil => exact ⟨rfl, .refl engine⟩
  | cons layer layers ih =>
    unfold bindLayers
    cases hkey : engine.set (.pastKey index) (.floats layer.key) with
    | error e => exact ⟨by simp, .refl engine⟩
    | ok keyed =>
      dsimp only
      cases hvalue : keyed.set (.pastValue index) (.floats layer.value) with
      | error e => exact ⟨by simp, Engine.leadsTo_set hkey⟩
      | ok bound =>
        have hrest := ih (index + 1) bound
        refine ⟨by simp [hrest.1], ?_⟩
        exact ((Engine.leadsTo_set hkey).trans (Engine.leadsTo_set hvalue)).trans hrest.2

theorem bindLayers_replan (shape : ModelShape) (layers : List CacheLayer) (index : Nat)
    (engine : Engine) (plan : FaultPlan) (calls : Nat)
    : bindLayers shape layers index (engine.replan plan calls)
        =
      ((bindLayers shape layers index engine).1, (bindLayers shape layers index engine).2.1,
        (bindLayers shape layers index engine).2.2.replan plan calls) := by
  induction layers generalizing index engine with
  | nil => rfl
  | cons layer layers ih =>
    unfold bindLayers
    rw [Engine.set_replan]
    cases engine.set (.pastKey index) (.floats layer.key) with
    | error e => rfl
    | ok keyed =>
      simp only [Except.map]
      rw [Engine.set_replan]
      cases keyed.set (.pastValue index) (.floats layer.value) with
      | error e => rfl
      | ok bound =>
        simp only [Except.map]
        rw [ih]

theorem takeLayers_replan (key value : Nat → TensorName) (layers : List CacheLayer) (index : Nat)
    (engine : Engine) (plan : FaultPlan) (calls : Nat)
    : takeLayers key value layers index (engine.replan plan calls)
        =
      ((takeLayers key value layers index engine).1, (takeLayers key value layers index engine).2.1,
        (takeLayers key value layers index engine).2.2.replan plan calls) := by
  induction layers generalizing index engine with
  | nil => rfl
  | cons layer layers ih =>
    unfold takeLayers
    rw [Engine.takeFloats_replan]
    rcases engine.takeFloats (key index) with ⟨_ | newKey, engine⟩
    . rfl
    . dsimp only
      rw [Engine.takeFloats_replan]
      rcases engine.takeFloats (value index) with ⟨_ | newValue, engine⟩
      . rfl
      . dsimp only
        rw [ih]

theorem checkLayers_replan (engine : Engine) (plan : FaultPlan) (calls : Nat)
    (expected layers : List Nat)
    : checkLayers (engine.replan plan calls) expected layers
        =
      checkLayers engine expected layers := by
  have hcheck (name : TensorName) : checkPresent (engine.replan plan calls) expected name
      = checkPresent engine expected name := rfl
  induction layers with
  | nil => rfl
  | cons layer layers ih => rw [checkLayers, checkLayers, hcheck, hcheck, ih]

theorem bind_frame (cache : Cache) (engine : Engine)
    : (cache.bind engine).2.1.shape = cache.shape
        ∧ (cache.bind engine).2.1.layers.length = cache.layers.length
        ∧ engine.LeadsTo (cache.bind engine).2.2 :=
  ⟨rfl, bindLayers_frame cache.shape cache.layers 0 engine⟩

theorem bind_replan (cache : Cache) (engine : Engine) (plan : FaultPlan) (calls : Nat)
    : cache.bind (engine.replan plan calls)
        =
      ((cache.bind engine).1, (cache.bind engine).2.1,
        (cache.bind engine).2.2.replan plan calls) := by
  unfold bind
  rw [bindLayers_replan]

theorem calls_bind (cache : Cache) (engine : Engine)
    : (cache.bind engine).2.2.calls = engine.calls :=
  congrArg (fun bound => bound.2.2.calls) (cache.bind_replan engine engine.plan engine.calls)

theorem reclaim_replan (cache : Cache) (engine : Engine) (plan : FaultPlan) (calls : Nat)
    : cache.reclaim (engine.replan plan calls)
        =
      ((cache.reclaim engine).1, (cache.reclaim engine).2.1,
        (cache.reclaim engine).2.2.replan plan calls) := by
  unfold reclaim
  rw [takeLayers_replan]

theorem absorb_frame (cache : Cache) (engine : Engine) (length : Nat)
    : (cache.absorb engine length).2.1.shape = cache.shape
        ∧ (cache.absorb engine length).2.1.layers.length = cache.layers.length
        ∧ engine.LeadsTo (cache.absorb engine length).2.2 := by
  unfold absorb
  split
  . exact ⟨rfl, rfl, .refl engine⟩
  . cases checkLayers engine (cache.shape.kvShape length) (List.range cache.layerCount) with
    | error e => exact ⟨rfl, rfl, .refl engine⟩
    | ok _ =>
      have htaken := takeLayers_frame .presentKey .presentValue cache.layers 0 engine
      exact ⟨rfl, htaken.1, htaken.2.leadsTo⟩

theorem absorb_replan (cache : Cache) (engine : Engine) (plan : FaultPlan) (calls length : Nat)
    : cache.absorb (engine.replan plan calls) length
        =
      ((cache.absorb engine length).1, (cache.absorb engine length).2.1,
        (cache.absorb engine length).2.2.replan plan calls) := by
  have hcount : (engine.replan plan calls).presentCount = engine.presentCount := rfl
  unfold absorb
  rw [hcount, checkLayers_replan]
  split
  . rfl
  . cases checkLayers engine (cache.shape.kvShape length) (List.range cache.layerCount) with
    | error e => rfl
    | ok _ =>
      dsimp only
      rw [takeLayers_replan]

end Cache

namespace Session

variable {s s' s'' : Session} {ids mask positions : List Int} {id : TokenId}

/-! ## What no call changes -/

structure LeadsTo (s s' : Session) : Prop where
  engine : s.engine.LeadsTo s'.engine
  shape_eq : s'.shape = s.shape
  contextLimit_eq : s'.contextLimit = s.contextLimit
  cacheShape_eq : s'.cache.shape = s.cache.shape
  layerCount_eq : s'.cache.layers.length = s.cache.layers.length

theorem LeadsTo.refl (s : Session) : s.LeadsTo s := ⟨.refl _, rfl, rfl, rfl, rfl⟩

theorem LeadsTo.trans (h : s.LeadsTo s') (h' : s'.LeadsTo s'') : s.LeadsTo s'' where
  engine := h.engine.trans h'.engine
  shape_eq := h'.shape_eq.trans h.shape_eq
  contextLimit_eq := h'.contextLimit_eq.trans h.contextLimit_eq
  cacheShape_eq := h'.cacheShape_eq.trans h.cacheShape_eq
  layerCount_eq := h'.layerCount_eq.trans h.layerCount_eq

theorem leadsTo_reset (s : Session) : s.LeadsTo s.reset :=
  ⟨⟨rfl, rfl, Nat.le_refl _⟩, rfl, rfl, rfl, by simp [Session.reset, Cache.reset]⟩

theorem leadsTo_recover (s : Session) : s.LeadsTo s.recover := by
  rcases s.recover_frame with ⟨engine, cache, hsame, hshape, hlength, hrecover⟩
  have htaken : s.LeadsTo { s with engine, cache } := ⟨hsame.leadsTo, rfl, rfl, hshape, hlength⟩
  rcases hrecover with ⟨_, hrecover⟩ | hrecover
  . rw [hrecover]
    exact htaken
  . rw [hrecover]
    exact htaken.trans (leadsTo_reset _)

theorem leadsTo_exchange (s : Session) (inputLength length : Nat) (cancelled : Bool)
    : s.LeadsTo (s.exchange inputLength length cancelled).session := by
  rcases s.cache.bind_frame s.engine with ⟨hshape, hlength, hbound⟩
  unfold exchange
  generalize s.cache.bind s.engine = bound at hshape hlength hbound ⊢
  rcases bound with ⟨_ | _, cache, engine⟩
  . exact ⟨hbound, rfl, rfl, hshape, hlength⟩
  . have hpassed := hbound.trans (engine.leadsTo_infer cancelled)
    dsimp only at hshape hlength hpassed ⊢
    generalize engine.infer cancelled = pass at hpassed ⊢
    rcases pass with ⟨_ | _, engine, flag⟩
    . exact ⟨hpassed, rfl, rfl, hshape, hlength⟩
    . dsimp only
      cases lastLogits engine s.shape inputLength with
      | error e => exact ⟨hpassed, rfl, rfl, hshape, hlength⟩
      | ok logits =>
        rcases cache.absorb_frame engine length with ⟨hshape', hlength', habsorbed⟩
        dsimp only
        generalize cache.absorb engine length = absorbed at hshape' hlength' habsorbed ⊢
        rcases absorbed with ⟨_ | _, cache', engine'⟩
        . exact ⟨hpassed.trans habsorbed, rfl, rfl, hshape'.trans hshape, hlength'.trans hlength⟩
        . exact ⟨hpassed.trans habsorbed, rfl, rfl, hshape'.trans hshape, hlength'.trans hlength⟩

theorem leadsTo_run (s : Session) (ids mask positions : List Int) (cancelled : Bool)
    : s.LeadsTo (s.run ids mask positions cancelled).session := by
  unfold run
  rw [bindInputs_eq]
  dsimp only
  generalize hinputs : ((s.engine.withInput _ _).withInput _ _).withInput _ _ = engine
  have hengine : s.engine.LeadsTo engine := by
    rw [← hinputs]
    exact ⟨rfl, rfl, Nat.le_refl _⟩
  have hbound : s.LeadsTo { s with engine } := ⟨hengine, rfl, rfl, rfl, rfl⟩
  have hrun := hbound.trans (leadsTo_exchange _ ids.length mask.length cancelled)
  split
  . exact hrun
  . exact hrun.trans (leadsTo_recover _)

theorem leadsTo_commit (s : Session) (ids mask positions : List Int)
    : s.LeadsTo (s.commit ids mask positions) := ⟨.refl _, rfl, rfl, rfl, rfl⟩

theorem leadsTo_prefill (s : Session) (ids : List TokenId) (cancelled : Bool)
    : s.LeadsTo (s.prefill ids cancelled).session := by
  have hrun : s.LeadsTo (s.prefillRun ids cancelled).session :=
    (leadsTo_reset s).trans (leadsTo_run _ _ _ _ _)
  rcases s.prefill_eq ids cancelled with ⟨_, heq⟩ | ⟨_, _, _, _, heq⟩ | ⟨_, _, heq⟩
  . rw [heq]
    exact .refl s
  . rw [heq]
    exact .refl s
  . rw [heq]
    split
    . exact hrun.trans (leadsTo_commit _ _ _ _)
    . exact hrun

theorem leadsTo_decodeStep (s : Session) (id : TokenId) (cancelled : Bool)
    : s.LeadsTo (s.decodeStep id cancelled).session := by
  have hrun : s.LeadsTo (s.stepRun id cancelled).session := leadsTo_run _ _ _ _ _
  rcases s.decodeStep_eq id cancelled with ⟨_, heq⟩ | ⟨_, _, _, _, heq⟩ | ⟨_, _, heq⟩
  . rw [heq]
    exact .refl s
  . rw [heq]
    exact .refl s
  . rw [heq]
    split
    . exact hrun.trans (leadsTo_commit _ _ _ _)
    . exact hrun

/-! ## Another plan -/

def replan (s : Session) (plan : FaultPlan) (calls : Nat) : Session :=
  { s with engine := s.engine.replan plan calls }

def Outcome.replan {α : Type} (o : Outcome α) (plan : FaultPlan) (calls : Nat) : Outcome α :=
  { o with session := o.session.replan plan calls }

variable {plan : FaultPlan} {calls : Nat}

theorem recover_replan (s : Session) (plan : FaultPlan) (calls : Nat)
    : (s.replan plan calls).recover = s.recover.replan plan calls := by
  have hreclaim := s.cache.reclaim_replan s.engine plan calls
  unfold recover replan
  dsimp only
  rw [hreclaim]
  rcases s.cache.reclaim s.engine with ⟨_ | _, cache, engine⟩
  . rfl
  . rfl

def Outcome.Replans {α : Type} (o o' : Outcome α) (plan : FaultPlan) (calls : Nat) : Prop :=
  ∃ calls', o' = o.replan plan calls' ∧ ∀ a, o.result = .ok a → calls' = calls + 1

theorem exchange_replan (h : s.engine.plan (s.engine.calls + 1) = none)
    (h' : plan (calls + 1) = none) (inputLength length : Nat) (cancelled : Bool)
    : (s.exchange inputLength length cancelled).Replans
        ((s.replan plan calls).exchange inputLength length cancelled) plan calls := by
  have hbind := s.cache.bind_replan s.engine plan calls
  have hplan := (s.cache.bind_frame s.engine).2.2.plan_eq
  have hcalls := s.cache.calls_bind s.engine
  unfold exchange replan
  dsimp only
  rw [hbind]
  generalize s.cache.bind s.engine = bound at hplan hcalls ⊢
  rcases bound with ⟨_ | _, cache, engine⟩
  . exact ⟨calls, rfl, by simp⟩
  . refine ⟨calls + 1, ?_, fun _ _ => rfl⟩
    dsimp only at hplan hcalls ⊢
    rw [Engine.infer_replan (by rw [hplan, hcalls]; exact h) h']
    rcases engine.infer cancelled with ⟨_ | _, engine, flag⟩
    . rfl
    . have hlogits : lastLogits (engine.replan plan (calls + 1)) s.shape inputLength
          = lastLogits engine s.shape inputLength := rfl
      dsimp only
      rw [hlogits]
      cases lastLogits engine s.shape inputLength with
      | error e => rfl
      | ok logits =>
        dsimp only
        rw [Cache.absorb_replan]
        rcases cache.absorb engine length with ⟨_ | _, cache, engine⟩
        . rfl
        . rfl

theorem run_replan (h : s.engine.plan (s.engine.calls + 1) = none) (h' : plan (calls + 1) = none)
    (ids mask positions : List Int) (cancelled : Bool)
    : (s.run ids mask positions cancelled).Replans
        ((s.replan plan calls).run ids mask positions cancelled) plan calls := by
  unfold run
  rw [bindInputs_eq, bindInputs_eq]
  dsimp only
  generalize hinputs : ((s.engine.withInput _ _).withInput _ _).withInput _ _ = engine
  have hworks : engine.plan (engine.calls + 1) = none := by
    rw [← hinputs]
    exact h
  have hreplan : ({ s.replan plan calls with
      engine := (((s.replan plan calls).engine.withInput .inputIds (.row ids)).withInput
        .attentionMask (.row mask)).withInput .positionIds (.row positions) } : Session)
        =
      ({ s with engine } : Session).replan plan calls := by
    rw [← hinputs]
    rfl
  rcases exchange_replan (s := { s with engine }) hworks h' ids.length mask.length cancelled with
    ⟨calls', hexchange, hcalls⟩
  rw [hreplan, hexchange]
  generalize ({ s with engine } : Session).exchange ids.length mask.length cancelled = outcome
    at hcalls
  rcases outcome with ⟨_ | logits, session, flag⟩
  . exact ⟨calls', by simp only [Outcome.replan, recover_replan], by simp⟩
  . exact ⟨calls', rfl, fun _ _ => hcalls logits rfl⟩

theorem decodeStep_replan (h : s.engine.plan (s.engine.calls + 1) = none)
    (h' : plan (calls + 1) = none) (id : TokenId) (cancelled : Bool)
    : (s.decodeStep id cancelled).Replans ((s.replan plan calls).decodeStep id cancelled) plan
        calls := by
  have hlength : (s.replan plan calls).sequenceLength = s.sequenceLength := rfl
  have hcheck : (s.replan plan calls).checkContext (s.sequenceLength + 1)
      = s.checkContext (s.sequenceLength + 1) := rfl
  have hmask : (s.replan plan calls).attentionMask = s.attentionMask := rfl
  have hpositions : (s.replan plan calls).positionIds = s.positionIds := rfl
  unfold decodeStep
  rw [hlength, hcheck, hmask, hpositions]
  split
  . exact ⟨calls, rfl, by simp⟩
  . cases s.checkContext (s.sequenceLength + 1) with
    | error e => exact ⟨calls, rfl, by simp⟩
    | ok _ =>
      rcases run_replan h h' [id] (s.attentionMask ++ [1]) (positionsFrom s.sequenceLength 1)
        cancelled with ⟨calls', hrun, hcalls⟩
      dsimp only
      rw [hrun]
      generalize s.run [id] (s.attentionMask ++ [1]) (positionsFrom s.sequenceLength 1) cancelled
        = outcome at hcalls
      rcases outcome with ⟨_ | logits, session, flag⟩
      . exact ⟨calls', rfl, by simp⟩
      . exact ⟨calls', rfl, fun _ _ => hcalls logits rfl⟩

theorem prefill_replan (h : s.engine.plan (s.engine.calls + 1) = none)
    (h' : plan (calls + 1) = none) (ids : List TokenId) (cancelled : Bool)
    : (s.prefill ids cancelled).Replans ((s.replan plan calls).prefill ids cancelled) plan
        calls := by
  have hcheck : (s.replan plan calls).checkContext ids.length = s.checkContext ids.length := rfl
  unfold Session.prefill
  rw [hcheck]
  split
  . exact ⟨calls, rfl, by simp⟩
  . cases s.checkContext ids.length with
    | error e => exact ⟨calls, rfl, by simp⟩
    | ok _ =>
      rcases run_replan (s := s.reset) h h' ids (List.replicate ids.length 1)
        (positionsFrom 0 ids.length) cancelled with ⟨calls', hrun, hcalls⟩
      have hreset : (s.replan plan calls).reset = s.reset.replan plan calls := rfl
      dsimp only
      rw [hreset, hrun]
      generalize s.reset.run ids (List.replicate ids.length 1) (positionsFrom 0 ids.length)
        cancelled = outcome at hcalls
      rcases outcome with ⟨_ | logits, session, flag⟩
      . exact ⟨calls', rfl, by simp⟩
      . exact ⟨calls', rfl, fun _ _ => hcalls logits rfl⟩

/-! ## Sessions that differ in their faults -/

structure Resembles (s s' : Session) : Prop where
  eq_replan : ∃ plan calls, s' = s.replan plan calls
  quiet : s.engine.IsQuiet
  quiet' : s'.engine.IsQuiet

theorem Resembles.tokens_eq (h : s.Resembles s') : s'.tokens = s.tokens := by
  rcases h.eq_replan with ⟨plan, calls, rfl⟩
  rfl

theorem Resembles.reset (h : s.Resembles s') : s.reset.Resembles s'.reset := by
  refine ⟨?_, h.quiet, h.quiet'⟩
  rcases h.eq_replan with ⟨plan, calls, rfl⟩
  exact ⟨plan, calls, rfl⟩

structure Outcome.Resembles {α : Type} (o o' : Outcome α) : Prop where
  result_eq : o'.result = o.result
  cancelled_eq : o'.cancelled = o.cancelled
  session : o.session.Resembles o'.session

theorem Outcome.Replans.resembles {o o' : Outcome (List Float32)} (h : o.Replans o' plan calls)
    (hquiet : o.session.engine.IsQuiet) (hquiet' : o'.session.engine.IsQuiet)
    : o.Resembles o' := by
  rcases h with ⟨calls', rfl, _⟩
  exact ⟨rfl, rfl, ⟨plan, calls', rfl⟩, hquiet, hquiet'⟩

theorem Resembles.decodeStep (h : s.Resembles s') (id : TokenId) (cancelled : Bool)
    : (s.decodeStep id cancelled).Resembles (s'.decodeStep id cancelled) := by
  have hafter := h.quiet.of_leadsTo (leadsTo_decodeStep s id cancelled).engine
  have hafter' := h.quiet'.of_leadsTo (leadsTo_decodeStep s' id cancelled).engine
  have hnext' := h.quiet'.next
  rcases h.eq_replan with ⟨plan, calls, rfl⟩
  exact (decodeStep_replan h.quiet.next hnext' id cancelled).resembles hafter hafter'

theorem Resembles.prefill (h : s.Resembles s') (ids : List TokenId) (cancelled : Bool)
    : (s.prefill ids cancelled).Resembles (s'.prefill ids cancelled) := by
  have hafter := h.quiet.of_leadsTo (leadsTo_prefill s ids cancelled).engine
  have hafter' := h.quiet'.of_leadsTo (leadsTo_prefill s' ids cancelled).engine
  have hnext' := h.quiet'.next
  rcases h.eq_replan with ⟨plan, calls, rfl⟩
  exact (prefill_replan h.quiet.next hnext' ids cancelled).resembles hafter hafter'

/-! ## Sessions on one model -/

structure IsWhole (s : Session) : Prop where
  cacheShape_eq : s.cache.shape = s.shape
  layerCount_eq : s.cache.layers.length = s.shape.layerCount

theorem isWhole_ofCompiled (compiled : CompiledModel) (limit : Option Nat)
    : (ofCompiled compiled limit).IsWhole := ⟨rfl, by simp [ofCompiled, Cache.ofShape]⟩

theorem IsWhole.of_leadsTo (h : s.IsWhole) (hleads : s.LeadsTo s') : s'.IsWhole where
  cacheShape_eq := by rw [hleads.cacheShape_eq, h.cacheShape_eq, hleads.shape_eq]
  layerCount_eq := by rw [hleads.layerCount_eq, h.layerCount_eq, hleads.shape_eq]

theorem IsWhole.cache_reset (h : s.IsWhole) : s.cache.reset = .ofShape s.shape := by
  unfold Cache.reset Cache.ofShape
  rw [h.cacheShape_eq, List.map_const', h.layerCount_eq]

structure SharesModel (s s' : Session) : Prop where
  model_eq : s'.engine.request.model = s.engine.request.model
  shape_eq : s'.shape = s.shape
  contextLimit_eq : s'.contextLimit = s.contextLimit
  whole : s.IsWhole
  whole' : s'.IsWhole
  quiet : s.engine.IsQuiet
  quiet' : s'.engine.IsQuiet

theorem SharesModel.resembles_reset (h : s.SharesModel s') : s.reset.Resembles s'.reset := by
  refine ⟨⟨s'.engine.plan, s'.engine.calls, ?_⟩, h.quiet, h.quiet'⟩
  unfold Session.reset replan Engine.replan Engine.reset Request.reset
  rw [h.whole.cache_reset, h.whole'.cache_reset, h.model_eq, h.shape_eq, h.contextLimit_eq]

theorem SharesModel.of_leadsTo (h : s.SharesModel s') {t t' : Session} (ht : s.LeadsTo t)
    (ht' : s'.LeadsTo t') : t.SharesModel t' where
  model_eq := by rw [ht'.engine.model_eq, h.model_eq, ht.engine.model_eq]
  shape_eq := by rw [ht'.shape_eq, h.shape_eq, ht.shape_eq]
  contextLimit_eq := by rw [ht'.contextLimit_eq, h.contextLimit_eq, ht.contextLimit_eq]
  whole := h.whole.of_leadsTo ht
  whole' := h.whole'.of_leadsTo ht'
  quiet := h.quiet.of_leadsTo ht.engine
  quiet' := h.quiet'.of_leadsTo ht'.engine

theorem prefill_reset (hids : ids ≠ [])
    (hfits : ∀ bound, s.contextLimit = some bound → ids.length ≤ bound) (cancelled : Bool)
    : s.reset.prefill ids cancelled = s.prefill ids cancelled := by
  have hreset : s.reset.reset = s.reset := by
    simp [Session.reset, Cache.reset, Engine.reset, Request.reset, Request.ofModel]
  have hcheck : s.reset.checkContext ids.length = s.checkContext ids.length := rfl
  unfold Session.prefill
  rw [hcheck, hreset]
  rcases s.checkContext_eq ids.length with ⟨hok, _⟩ | ⟨bound, hlimit, hexceeds, _⟩
  . rw [hok, if_neg (by simpa using hids), if_neg (by simpa using hids)]
  . have := hfits bound hlimit
    omega

theorem SharesModel.prefill_resembles (h : s.SharesModel s') (hids : ids ≠ [])
    (hfits : ∀ bound, s.contextLimit = some bound → ids.length ≤ bound) (cancelled : Bool)
    : (s.prefill ids cancelled).Resembles (s'.prefill ids cancelled) := by
  have hfits' : ∀ bound, s'.contextLimit = some bound → ids.length ≤ bound := by
    rw [h.contextLimit_eq]
    exact hfits
  rw [← prefill_reset hids hfits, ← prefill_reset hids hfits']
  exact h.resembles_reset.prefill ids cancelled

theorem SharesModel.prefill (h : s.SharesModel s') (ids : List TokenId) (cancelled : Bool)
    : (s'.prefill ids cancelled).result = (s.prefill ids cancelled).result
        ∧ (s'.prefill ids cancelled).cancelled = (s.prefill ids cancelled).cancelled
        ∧ (s.prefill ids cancelled).session.SharesModel (s'.prefill ids cancelled).session
        ∧ ∀ logits, (s.prefill ids cancelled).result = .ok logits →
          (s.prefill ids cancelled).session.Resembles (s'.prefill ids cancelled).session := by
  have hafter := h.of_leadsTo (leadsTo_prefill s ids cancelled) (leadsTo_prefill s' ids cancelled)
  have hcheck : s'.checkContext ids.length = s.checkContext ids.length := by
    unfold checkContext
    rw [h.contextLimit_eq]
  by_cases hids : ids = []
  . subst hids
    exact ⟨rfl, rfl, hafter, by simp [Session.prefill]⟩
  . rcases s.checkContext_eq ids.length with ⟨_, hfits⟩ | ⟨bound, _, _, hexceeds⟩
    . have hresembles := h.prefill_resembles hids hfits cancelled
      exact ⟨hresembles.result_eq, hresembles.cancelled_eq, hafter,
        fun _ _ => hresembles.session⟩
    . have hrefused {s : Session} (hs : s.checkContext ids.length
          = .error (.contextLengthExceeded bound))
          : s.prefill ids cancelled = ⟨.error (.contextLengthExceeded bound), s, cancelled⟩ := by
        unfold Session.prefill
        rw [hs, if_neg (by simpa using hids)]
      rw [hexceeds] at hcheck
      rw [hrefused hexceeds, hrefused hcheck] at hafter ⊢
      exact ⟨rfl, rfl, hafter, by simp⟩

end Session

end TextGen
