import TextGen.Proofs.Session.Independence

/-!
This module contains what a pass that is cancelled does to a session: if an operation would not fail
otherwise, then it is cancelled when its pass is, and nothing is counted but that pass.
-/

namespace TextGen

def Fault.Cancels : Fault → Prop
  | refuse error _ => error = .cancelled
  | raiseFlag => True
  | lose _ | disguise _ => False

namespace Engine

variable {e : Engine} {fault : Fault}

theorem infer_of_cancels (h : e.plan (e.calls + 1) = some fault) (hcancels : fault.Cancels)
    (cancelled : Bool)
    : (e.infer cancelled).result = .error .cancelled
        ∧ (e.infer cancelled).engine.calls = e.calls + 1 := by
  unfold infer
  simp only [h]
  cases fault with
  | refuse error keeps =>
    cases hcancels
    exact ⟨rfl, rfl⟩
  | raiseFlag => exact ⟨rfl, rfl⟩
  | lose keeps => contradiction
  | disguise changes => contradiction

theorem set_ne_cancelled (e : Engine) (name : TensorName) (tensor : Tensor)
    : e.set name tensor ≠ .error .cancelled := by
  unfold set Request.set
  dsimp only
  split
  . simp [Except.map]
  . split
    . simp [Except.map]
    . simp [Except.map]

end Engine

theorem Cache.bindLayers_ne_cancelled (shape : ModelShape) (layers : List CacheLayer) (index : Nat)
    (engine : Engine) : (bindLayers shape layers index engine).1 ≠ .error .cancelled := by
  induction layers generalizing index engine with
  | nil => simp [bindLayers]
  | cons layer layers ih =>
    have hkey := engine.set_ne_cancelled (.pastKey index) (.floats layer.key)
    unfold bindLayers
    cases hset : engine.set (.pastKey index) (.floats layer.key) with
    | error e => simpa [hset] using hkey
    | ok keyed =>
      have hvalue := keyed.set_ne_cancelled (.pastValue index) (.floats layer.value)
      dsimp only
      cases hset : keyed.set (.pastValue index) (.floats layer.value) with
      | error e => simpa [hset] using hvalue
      | ok bound => exact ih _ _

namespace Session

variable {s : Session} {plan : FaultPlan} {calls : Nat} {fault : Fault}

def Outcome.MayPass {α : Type} (o : Outcome α) : Prop :=
  ∀ e, o.result = .error e → e.isCancelled = true

structure Outcome.IsCancelled {α : Type} (o : Outcome α) (calls : Nat) : Prop where
  result_eq : o.result = .error (.backend .cancelled)
  calls_eq : o.session.engine.calls = calls + 1

theorem exchange_of_cancels {inputLength length : Nat} {cancelled : Bool}
    (h : (s.exchange inputLength length cancelled).MayPass) (hfault : plan (calls + 1) = some fault)
    (hcancels : fault.Cancels)
    : ((s.replan plan calls).exchange inputLength length cancelled).IsCancelled calls := by
  have hbind := s.cache.bind_replan s.engine plan calls
  have hnot : (s.cache.bind s.engine).1 ≠ .error .cancelled :=
    Cache.bindLayers_ne_cancelled s.cache.shape s.cache.layers 0 s.engine
  unfold exchange at h ⊢
  unfold replan
  dsimp only
  rw [hbind]
  generalize s.cache.bind s.engine = bound at h hnot ⊢
  rcases bound with ⟨e | _, cache, engine⟩
  . have hcancelled := h _ rfl
    cases e with
    | cancelled => exact absurd rfl hnot
    | _ => contradiction
  . have hpass := Engine.infer_of_cancels (e := engine.replan plan calls) hfault hcancels cancelled
    dsimp only
    generalize (engine.replan plan calls).infer cancelled = pass at hpass ⊢
    rcases pass with ⟨result, engine', flag⟩
    rcases hpass with ⟨rfl, hcalls⟩
    exact ⟨rfl, hcalls⟩

theorem run_of_cancels {ids mask positions : List Int} {cancelled : Bool}
    (h : (s.run ids mask positions cancelled).MayPass) (hfault : plan (calls + 1) = some fault)
    (hcancels : fault.Cancels)
    : ((s.replan plan calls).run ids mask positions cancelled).IsCancelled calls := by
  unfold run at h ⊢
  rw [bindInputs_eq] at h ⊢
  dsimp only at h ⊢
  generalize hinputs : ((s.engine.withInput _ _).withInput _ _).withInput _ _ = engine at h
  have hreplan : ({ s.replan plan calls with
      engine := (((s.replan plan calls).engine.withInput .inputIds (.row ids)).withInput
        .attentionMask (.row mask)).withInput .positionIds (.row positions) } : Session)
        =
      ({ s with engine } : Session).replan plan calls := by
    rw [← hinputs]
    rfl
  have hmay : (({ s with engine } : Session).exchange ids.length mask.length
      cancelled).MayPass := by
    intro e he
    exact h e (by simp [he])
  have hcancelled := exchange_of_cancels hmay hfault hcancels
  rw [hreplan]
  generalize (({ s with engine } : Session).replan plan calls).exchange ids.length mask.length
    cancelled = outcome at hcancelled ⊢
  rcases outcome with ⟨result, session, flag⟩
  rcases hcancelled with ⟨rfl, hcalls⟩
  exact ⟨rfl, session.calls_recover.trans hcalls⟩

theorem prefill_of_cancels {ids : List TokenId} {cancelled : Bool}
    (h : (s.prefill ids cancelled).MayPass) (hfault : plan (calls + 1) = some fault)
    (hcancels : fault.Cancels)
    : ((s.replan plan calls).prefill ids cancelled).IsCancelled calls := by
  have hcheck : (s.replan plan calls).checkContext ids.length = s.checkContext ids.length := rfl
  have hreset : (s.replan plan calls).reset = s.reset.replan plan calls := rfl
  unfold Session.prefill at h ⊢
  rw [hcheck, hreset]
  by_cases hids : ids.isEmpty = true
  . rw [if_pos hids] at h
    exact absurd (h _ rfl) (by simp [SessionError.isCancelled])
  . rw [if_neg hids] at h ⊢
    rcases s.checkContext_eq ids.length with ⟨hfits, _⟩ | ⟨limit, _, _, hexceeds⟩
    . rw [hfits] at h ⊢
      dsimp only at h ⊢
      have hmay : (s.reset.run ids (List.replicate ids.length 1) (positionsFrom 0 ids.length)
          cancelled).MayPass := by
        intro e he
        exact h e (by simp [he])
      have hcancelled := run_of_cancels hmay hfault hcancels
      rw [hcancelled.result_eq]
      exact hcancelled
    . rw [hexceeds] at h
      exact absurd (h _ rfl) (by simp [SessionError.isCancelled])

theorem decodeStep_of_cancels {id : TokenId} {cancelled : Bool}
    (h : (s.decodeStep id cancelled).MayPass) (hfault : plan (calls + 1) = some fault)
    (hcancels : fault.Cancels)
    : ((s.replan plan calls).decodeStep id cancelled).IsCancelled calls := by
  have hlength : (s.replan plan calls).sequenceLength = s.sequenceLength := rfl
  have hcheck : (s.replan plan calls).checkContext (s.sequenceLength + 1)
      = s.checkContext (s.sequenceLength + 1) := rfl
  have hmask : (s.replan plan calls).attentionMask = s.attentionMask := rfl
  unfold decodeStep at h ⊢
  rw [hlength, hcheck, hmask]
  by_cases hempty : s.sequenceLength = 0
  . rw [if_pos hempty] at h
    exact absurd (h _ rfl) (by simp [SessionError.isCancelled])
  . rw [if_neg hempty] at h ⊢
    rcases s.checkContext_eq (s.sequenceLength + 1) with ⟨hfits, _⟩ | ⟨limit, _, _, hexceeds⟩
    . rw [hfits] at h ⊢
      dsimp only at h ⊢
      have hmay : (s.run [id] (s.attentionMask ++ [1]) (positionsFrom s.sequenceLength 1)
          cancelled).MayPass := by
        intro e he
        exact h e (by simp [he])
      have hcancelled := run_of_cancels hmay hfault hcancels
      rw [hcancelled.result_eq]
      exact hcancelled
    . rw [hexceeds] at h
      exact absurd (h _ rfl) (by simp [SessionError.isCancelled])

end Session

end TextGen
