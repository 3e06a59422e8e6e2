import TextGen.Proofs.Session.Answers
import TextGen.Proofs.Session.Invariant

/-!
This module contains what a call that fails leaves behind: a token that could not be fed leaves the
session as it was, unless the request has lost the cache, and then the session is empty. A token
that is fed again is answered as if the failure had not happened.
-/

namespace TextGen

namespace Session

inductive Reachable (compiled : CompiledModel) (limit : Option Nat) : Session → Prop
  | opened : Reachable compiled limit (ofCompiled compiled limit)
  | performed {s : Session} (call : SessionCall) (h : Reachable compiled limit s)
    : Reachable compiled limit (s.perform call)
  | absorbed {s : Session} (length : Nat) (h : Reachable compiled limit s)
    : Reachable compiled limit (s.absorbPresent length).2

variable {s : Session} {model : BigramModel} {plan : FaultPlan} {limit : Option Nat}

theorem RunsOn.perform (h : s.RunsOn model plan limit) (call : SessionCall)
    : (s.perform call).RunsOn model plan limit := by
  cases call with
  | prefill ids cancelled => exact h.prefill ids cancelled
  | decodeStep id cancelled => exact h.decodeStep id cancelled
  | reset => exact h.reset

theorem Reachable.runsOn {threads : Option Nat} (hplan : plan.IsDetectable)
    (h : s.Reachable ⟨model, model.shape, plan, threads⟩ limit) : s.RunsOn model plan limit := by
  induction h with
  | opened => exact runsOn_ofCompiled model threads limit hplan
  | performed call _ ih => exact ih.perform call
  | absorbed length _ ih => exact ih.absorbPresent length

def repaired (s : Session) : Session := { s with engine.plan := .none }

theorem RunsOn.repaired (h : s.RunsOn model plan limit) : s.repaired.RunsOn model .none limit :=
  ⟨h.model_eq, rfl, FaultPlan.isDetectable_none, h.separated, h.shape_eq, h.cacheShape_eq,
    h.layerCount_eq, h.contextLimit_eq⟩

/--
What every call that fails leaves of a session.
-/
structure FailsAtomically (s : Session) (model : BigramModel) (plan : FaultPlan)
    (limit : Option Nat) : Prop where
  decodeStep_refused : ∀ id cancelled e, (s.decodeStep id cancelled).result = .error e →
    ¬e.IsOfPass → (s.decodeStep id cancelled).session = s
  decodeStep_kept : ∀ id cancelled e, (s.decodeStep id cancelled).result = .error e →
    e.IsOfPass → (s.stepped id cancelled).HoldsPast model.shape.layerCount →
      (s.decodeStep id cancelled).session.state = s.state
  decodeStep_lost : ∀ id cancelled e, (s.decodeStep id cancelled).result = .error e →
    e.IsOfPass → ¬(s.stepped id cancelled).HoldsPast model.shape.layerCount →
      (s.decodeStep id cancelled).session.state = .empty model.shape
  prefill_refused : ∀ ids cancelled e, (s.prefill ids cancelled).result = .error e →
    (e = .emptyPrompt ∨ ∃ bound, e = .contextLengthExceeded bound) →
      (s.prefill ids cancelled).session = s
  prefill_failed : ∀ ids cancelled e, (s.prefill ids cancelled).result = .error e →
    ¬(e = .emptyPrompt ∨ ∃ bound, e = .contextLengthExceeded bound) →
      (s.prefill ids cancelled).session.state = .empty model.shape
  retry : ∀ id cancelled e, (s.decodeStep id cancelled).result = .error e →
    (s.decodeStep id cancelled).session.state = s.state →
    (s.decodeStep id cancelled).session.WorksNext →
      ((s.decodeStep id cancelled).session.decodeStep id false).result
          =
        (s.repaired.decodeStep id false).result
      ∧ ((s.decodeStep id cancelled).session.decodeStep id false).session.state
          =
        (s.repaired.decodeStep id false).session.state
  retry_answers : ∀ threads calls,
    s = (ofCompiled ⟨model, model.shape, plan, threads⟩ limit).performAll calls →
    ∀ id cancelled e, (s.decodeStep id cancelled).result = .error e → e.IsOfPass →
    (s.decodeStep id cancelled).session.state = s.state →
    (s.decodeStep id cancelled).session.WorksNext → model.inVocabulary id = true →
      ((s.decodeStep id cancelled).session.decodeStep id false).result
          =
        .ok (model.scoresAfter (s.tokens ++ [id]))
      ∧ ((s.decodeStep id cancelled).session.decodeStep id false).session.state
          =
        .ofTokens model.shape (s.tokens ++ [id])

theorem not_isOfPass_of_refused {e : SessionError}
    (h : e = .notPrefilled ∨ ∃ bound, e = .contextLengthExceeded bound) : ¬e.IsOfPass := by
  rcases h with rfl | ⟨_, rfl⟩
  . exact fun hpass => hpass
  . exact fun hpass => hpass

theorem RunsOn.failsAtomically (h : s.RunsOn model plan limit) (hpositive : model.shape.IsPositive)
    : s.FailsAtomically model plan limit where
  decodeStep_refused := by
    intro id cancelled e hresult hpass
    rcases decodeStep_error h hresult with ⟨_, hsession⟩ | ⟨hof, _, _⟩
    . exact hsession
    . contradiction
  decodeStep_kept := by
    intro id cancelled e hresult hpass hholds
    rcases decodeStep_error h hresult with ⟨hrefused, _⟩ | ⟨_, hkept, _⟩
    . exact absurd hpass (not_isOfPass_of_refused hrefused)
    . exact hkept hholds
  decodeStep_lost := by
    intro id cancelled e hresult hpass hholds
    rcases decodeStep_error h hresult with ⟨hrefused, _⟩ | ⟨_, _, hlost⟩
    . exact absurd hpass (not_isOfPass_of_refused hrefused)
    . exact hlost hholds
  prefill_refused := by
    intro ids cancelled e hresult hrefused
    rcases prefill_error h hresult with ⟨_, hsession⟩ | ⟨hpass, _⟩
    . exact hsession
    . rcases hrefused with rfl | ⟨_, rfl⟩
      . exact hpass.elim
      . exact hpass.elim
  prefill_failed := by
    intro ids cancelled e hresult hfailed
    rcases prefill_error h hresult with ⟨hrefused, _⟩ | ⟨_, hstate⟩
    . contradiction
    . exact hstate
  retry := by
    intro id cancelled e hresult hstate hworks
    exact decodeStep_congr (h.decodeStep id cancelled) h.repaired hpositive hworks rfl hstate id
      false
  retry_answers := by
    intro threads calls hcalls id cancelled e hresult hpass hstate hworks hid
    have hsettled : s.IsSettled model plan limit := by
      rw [hcalls]
      exact (isSettled_ofCompiled model threads limit h.detectable).performAll hpositive calls
    -- A pass has failed, so that the session was neither empty nor full.
    rcases decodeStep_of_isOfPass hresult hpass with ⟨hlength, hfits⟩
    rw [sequenceLength_of_state hsettled.state_eq] at hlength hfits
    rw [h.contextLimit_eq] at hfits
    have htokens : s.tokens ≠ [] := by simpa using hlength
    have hretry := decodeStep_of_worksNext (h.decodeStep id cancelled) hworks hpositive
      (hstate.trans hsettled.state_eq) htokens hid
    rw [filter_limit_eq_none hfits] at hretry
    exact ⟨hretry.1, hretry.2.2.1⟩

theorem failsAtomically_of_reachable {threads : Option Nat} (hvalid : model.validate = .ok ())
    (hplan : plan.IsDetectable) (h : s.Reachable ⟨model, model.shape, plan, threads⟩ limit)
    : s.FailsAtomically model plan limit :=
  (h.runsOn hplan).failsAtomically (BigramModel.isPositive_of_validate hvalid)

theorem failsAtomically_of_lost_inputs
    : ((ofCompiled ⟨.ofShape ⟨2, 2, 3, 5⟩, ⟨2, 2, 3, 5⟩, .once 2 .loseInputs, none⟩
          (some 3)).perform (.prefill [1, 4] false)).FailsAtomically
        (.ofShape ⟨2, 2, 3, 5⟩) (.once 2 .loseInputs) (some 3) := by
  have hvalid : (BigramModel.ofShape ⟨2, 2, 3, 5⟩).validate = .ok () := rfl
  have hplan : (FaultPlan.once 2 .loseInputs).IsDetectable := by
    apply FaultPlan.isDetectable_once
    intro changes hchanges
    contradiction
  exact failsAtomically_of_reachable hvalid hplan (.performed (.prefill [1, 4] false) .opened)

end Session

end TextGen
