import TextGen.Proofs.Session.Working

/-!
This module contains what prefilling and decoding answer as long as nothing goes wrong: the scores
of the model after the whole sequence, or the reason for which the call is refused.
-/

namespace TextGen

def BigramModel.prefillAnswer (model : BigramModel) (limit : Option Nat) (ids : List TokenId)
    : Except SessionError (List Float32) :=
  if ids = [] then .error .emptyPrompt
  else
    match limit.filter (· < ids.length) with
    | some bound => .error (.contextLengthExceeded bound)
    | none =>
      match ids.find? (!model.inVocabulary ·) with
      | some token => .error (.backend (.invalidInput (.outsideVocabulary token)))
      | none => .ok (model.scoresAfter ids)

namespace Session

variable {s : Session} {model : BigramModel} {plan : FaultPlan} {limit : Option Nat}
variable {tokens ids : List TokenId} {id : TokenId}

structure Serves (s : Session) (model : BigramModel) (plan : FaultPlan) (limit : Option Nat)
    : Prop where
  runs : s.RunsOn model plan limit
  works : ∀ call, s.engine.calls < call → plan call = none

theorem Serves.worksNext (h : s.Serves model plan limit) : s.WorksNext := by
  unfold WorksNext
  rw [h.runs.plan_eq]
  exact h.works _ (Nat.lt_succ_self _)

theorem Serves.of_runsOn {s' : Session} (h : s.Serves model plan limit)
    (hruns : s'.RunsOn model plan limit) (hcalls : s.engine.calls ≤ s'.engine.calls)
    : s'.Serves model plan limit :=
  ⟨hruns, fun call hcall => h.works call (Nat.lt_of_le_of_lt hcalls hcall)⟩

theorem Serves.reset (h : s.Serves model plan limit) : s.reset.Serves model plan limit :=
  h.of_runsOn h.runs.reset (Nat.le_refl _)

theorem serves_ofCompiled (model : BigramModel) (threads limit : Option Nat)
    : (ofCompiled (model.compile threads) limit).Serves model .none limit :=
  ⟨runsOn_ofCompiled model threads limit FaultPlan.isDetectable_none, fun _ _ => rfl⟩

theorem filter_limit_eq_some {length bound : Nat} (hlimit : limit = some bound)
    (hexceeds : bound < length) : limit.filter (· < length) = some bound := by
  simp [hlimit, hexceeds]

theorem filter_limit_eq_none {length : Nat} (hfits : ∀ bound, limit = some bound → length ≤ bound)
    : limit.filter (· < length) = none := by
  cases limit with
  | none => rfl
  | some bound =>
    have := hfits bound rfl
    simp
    omega

theorem filter_limit_mono {limit' : Option Nat} {length : Nat}
    (hle : ∀ bound, limit' = some bound → ∃ least, limit = some least ∧ least ≤ bound)
    (hfits : limit.filter (· < length) = none) : limit'.filter (· < length) = none := by
  apply filter_limit_eq_none
  intro bound hbound
  rcases hle bound hbound with ⟨least, hleast, hle⟩
  rw [Option.filter_eq_none_iff] at hfits
  have := hfits least hleast
  simp only [decide_eq_true_eq] at this
  omega

theorem prefill_of_serves (h : s.Serves model plan limit) (hpositive : model.shape.IsPositive)
    (ids : List TokenId)
    : (s.prefill ids false).result = model.prefillAnswer limit ids
        ∧ (s.prefill ids false).cancelled = false
        ∧ (s.prefill ids false).session.Serves model plan limit
        ∧ ∀ logits, (s.prefill ids false).result = .ok logits →
          (s.prefill ids false).session.engine.calls = s.engine.calls + 1 := by
  have hlimit := h.runs.contextLimit_eq
  have hempty : s.reset.state = .ofTokens model.shape [] := by
    rw [h.runs.state_reset, SessionState.ofTokens_nil]
  unfold BigramModel.prefillAnswer
  rcases s.prefill_eq ids false with
    ⟨hids, heq⟩ | ⟨hids, bound, hbound, hexceeds, heq⟩ | ⟨hids, hfits, heq⟩
  . rw [heq, if_pos hids]
    exact ⟨rfl, rfl, h, by simp⟩
  . rw [hlimit] at hbound
    rw [heq, if_neg hids, filter_limit_eq_some hbound hexceeds]
    exact ⟨rfl, rfl, h, by simp⟩
  . rw [hlimit] at hfits
    rw [if_neg hids, filter_limit_eq_none hfits]
    have hrun := h.reset.runs.run ids (List.replicate ids.length 1) (positionsFrom 0 ids.length)
      false
    have hserves : (s.prefillRun ids false).session.Serves model plan limit :=
      h.of_runsOn hrun.1 (by rw [prefillRun, hrun.2]; exact Nat.le_succ _)
    have hflag : (s.prefillRun ids false).cancelled = false :=
      cancelled_run h.reset.runs h.reset.worksNext
    cases hvocabulary : ids.find? (!model.inVocabulary ·) with
    | some token =>
      have hresult : (s.prefillRun ids false).result = _ :=
        (run_of_not_vocabulary h.reset.runs hpositive h.reset.worksNext hempty hids hvocabulary
          (by simp) (by simp)).1
      rw [heq, hresult]
      exact ⟨hresult, hflag, hserves, by simp [hresult]⟩
    | none =>
      have hresult : (s.prefillRun ids false).result = _ :=
        run_of_vocabulary h.reset.runs hpositive h.reset.worksNext hempty hids hvocabulary
          (by simp) (by simp)
      rw [heq, hresult]
      exact ⟨hresult, hflag,
        hserves.of_runsOn (hserves.runs.commit _ _ _) (Nat.le_refl _), fun _ _ => hrun.2⟩

theorem prefill_of_vocabulary (h : s.Serves model plan limit) (hpositive : model.shape.IsPositive)
    (hids : ids ≠ []) (hfits : limit.filter (· < ids.length) = none)
    (hvocabulary : ids.find? (!model.inVocabulary ·) = none)
    : (s.prefill ids false).result = .ok (model.scoresAfter ids)
        ∧ (s.prefill ids false).cancelled = false
        ∧ (s.prefill ids false).session.Serves model plan limit
        ∧ (s.prefill ids false).session.state = .ofTokens model.shape ids
        ∧ (s.prefill ids false).session.engine.calls = s.engine.calls + 1 := by
  have hanswer : model.prefillAnswer limit ids = .ok (model.scoresAfter ids) := by
    rw [BigramModel.prefillAnswer, if_neg hids, hfits, hvocabulary]
  rcases prefill_of_serves h hpositive ids with ⟨hresult, hflag, hafter, hcalls⟩
  rw [hanswer] at hresult
  exact ⟨hresult, hflag, hafter, (prefill_ok h.runs hpositive hresult).2.2, hcalls _ hresult⟩

theorem decodeStep_of_worksNext (h : s.RunsOn model plan limit) (hworks : s.WorksNext)
    (hpositive : model.shape.IsPositive) (hstate : s.state = .ofTokens model.shape tokens)
    (htokens : tokens ≠ []) (hid : model.inVocabulary id = true)
    : match limit.filter (· < tokens.length + 1) with
      | some bound => s.decodeStep id false = ⟨.error (.contextLengthExceeded bound), s, false⟩
      | none =>
        (s.decodeStep id false).result = .ok (model.scoresAfter (tokens ++ [id]))
          ∧ (s.decodeStep id false).cancelled = false
          ∧ (s.decodeStep id false).session.state = .ofTokens model.shape (tokens ++ [id])
          ∧ (s.decodeStep id false).session.engine.calls = s.engine.calls + 1 := by
  have hlimit := h.contextLimit_eq
  have hlength := sequenceLength_of_state hstate
  have hmask := attentionMask_of_state hstate
  have hpresent : tokens.length ≠ 0 := by simpa using htokens
  rcases s.decodeStep_eq id false with
    ⟨hzero, heq⟩ | ⟨_, bound, hbound, hexceeds, heq⟩ | ⟨_, hfits, heq⟩
  . rw [hlength] at hzero
    contradiction
  . rw [hlimit] at hbound
    rw [hlength] at hexceeds
    rw [heq, filter_limit_eq_some hbound hexceeds]
  . rw [hlimit, hlength] at hfits
    rw [filter_limit_eq_none hfits]
    dsimp only
    have hrun := h.run [id] (s.attentionMask ++ [1]) (positionsFrom s.sequenceLength 1) false
    have hresult : (s.stepRun id false).result = .ok (model.scoresAfter (tokens ++ [id])) :=
      run_of_vocabulary h hpositive hworks hstate (by simp) (by simp [hid])
        (by simp [hmask, List.replicate_succ']) (by simp [hlength])
    have hflag : (s.stepRun id false).cancelled = false := cancelled_run h hworks
    have hok : (s.decodeStep id false).result = .ok (model.scoresAfter (tokens ++ [id])) := by
      rw [heq, hresult]
      exact hresult
    refine ⟨hok, ?_, (decodeStep_ok h hpositive hstate hok).2.2, ?_⟩
    . rw [heq, hresult]
      exact hflag
    . rw [heq, hresult]
      exact hrun.2

theorem decodeStep_of_serves (h : s.Serves model plan limit) (hpositive : model.shape.IsPositive)
    (hstate : s.state = .ofTokens model.shape tokens) (htokens : tokens ≠ [])
    (hid : model.inVocabulary id = true)
    : (∃ bound, limit.filter (· < tokens.length + 1) = some bound
        ∧ s.decodeStep id false = ⟨.error (.contextLengthExceeded bound), s, false⟩)
        ∨
      (limit.filter (· < tokens.length + 1) = none
        ∧ (s.decodeStep id false).result = .ok (model.scoresAfter (tokens ++ [id]))
        ∧ (s.decodeStep id false).cancelled = false
        ∧ (s.decodeStep id false).session.Serves model plan limit
        ∧ (s.decodeStep id false).session.state = .ofTokens model.shape (tokens ++ [id])
        ∧ (s.decodeStep id false).session.engine.calls = s.engine.calls + 1) := by
  have hstep := decodeStep_of_worksNext h.runs h.worksNext hpositive hstate htokens hid
  cases hexceeds : limit.filter (· < tokens.length + 1) with
  | some bound =>
    left
    simp only [hexceeds] at hstep
    exact ⟨bound, rfl, hstep⟩
  | none =>
    right
    simp only [hexceeds] at hstep
    rcases hstep with ⟨hresult, hflag, hafter, hcalls⟩
    refine ⟨rfl, hresult, hflag, ?_, hafter, hcalls⟩
    apply h.of_runsOn (h.runs.decodeStep id false)
    rw [hcalls]
    exact Nat.le_succ _

end Session

end TextGen
