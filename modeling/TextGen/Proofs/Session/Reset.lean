import TextGen.Proofs.Session.Answers
import TextGen.Proofs.Session.Independence
import TextGen.Proofs.Session.Invariant

/-!
This module contains that a prompt starts a session over: whatever has been called before, and
however it has failed, a prompt that is run is answered as on a new session, and so is every token
that is fed after it.
-/

namespace TextGen

namespace Session

variable {s s' : Session} {model : BigramModel} {plan : FaultPlan} {ids : List TokenId}

theorem leadsTo_perform (s : Session) (call : SessionCall) : s.LeadsTo (s.perform call) := by
  cases call with
  | prefill ids cancelled => exact leadsTo_prefill s ids cancelled
  | decodeStep id cancelled => exact leadsTo_decodeStep s id cancelled
  | reset => exact leadsTo_reset s

theorem leadsTo_performAll (s : Session) (calls : List SessionCall)
    : s.LeadsTo (s.performAll calls) := by
  induction calls generalizing s with
  | nil => exact .refl s
  | cons call calls ih => exact (leadsTo_perform s call).trans (ih _)

def decodeAll (s : Session)
    : List (TokenId × Bool) → List (Except SessionError (List Float32)) × Session
  | [] => ([], s)
  | (id, cancelled) :: steps =>
    let outcome := s.decodeStep id cancelled
    let (results, s) := outcome.session.decodeAll steps
    (outcome.result :: results, s)

theorem Resembles.state_eq (h : s.Resembles s') : s'.state = s.state := by
  rcases h.eq_replan with ⟨plan, calls, rfl⟩
  rfl

theorem Resembles.decodeAll (h : s.Resembles s') (steps : List (TokenId × Bool))
    : (s'.decodeAll steps).1 = (s.decodeAll steps).1
        ∧ (s.decodeAll steps).2.Resembles (s'.decodeAll steps).2 := by
  induction steps generalizing s s' with
  | nil => exact ⟨rfl, h⟩
  | cons step steps ih =>
    rcases step with ⟨id, cancelled⟩
    have hstep := h.decodeStep id cancelled
    rcases ih hstep.session with ⟨hresults, hafter⟩
    unfold Session.decodeAll
    dsimp only
    rw [hstep.result_eq, hresults]
    exact ⟨rfl, hafter⟩

theorem sharesModel_performAll (model : BigramModel) {plan : FaultPlan}
    (threads threads' limit : Option Nat) (calls : List SessionCall)
    (hquiet : ((ofCompiled ⟨model, model.shape, plan, threads⟩ limit).performAll
      calls).engine.IsQuiet)
    : (ofCompiled (model.compile threads') limit).SharesModel
        ((ofCompiled ⟨model, model.shape, plan, threads⟩ limit).performAll calls) := by
  have hleads := leadsTo_performAll (ofCompiled ⟨model, model.shape, plan, threads⟩ limit) calls
  constructor
  . exact hleads.engine.model_eq
  . exact hleads.shape_eq
  . exact hleads.contextLimit_eq
  . exact isWhole_ofCompiled _ _
  . exact (isWhole_ofCompiled _ _).of_leadsTo hleads
  . exact fun _ _ => rfl
  . exact hquiet

/--
After any calls, whatever has gone wrong in their passes, a prompt that is run is answered as on a
new session and leaves the state that it leaves there, and all tokens fed after it are answered as
they are there. A prompt of the vocabulary is answered with the scores after it.
-/
theorem prefill_performAll_eq_prefill (hvalid : model.validate = .ok ())
    (threads threads' : Option Nat) {limit : Option Nat} (calls : List SessionCall)
    (hquiet : ((ofCompiled ⟨model, model.shape, plan, threads⟩ limit).performAll
      calls).engine.IsQuiet)
    (hids : ids ≠ []) (hfits : ∀ bound, limit = some bound → ids.length ≤ bound)
    : let used := (ofCompiled ⟨model, model.shape, plan, threads⟩ limit).performAll calls
      let fresh := ofCompiled (model.compile threads') limit
      let again := used.prefill ids false
      let first := fresh.prefill ids false
      again.result = first.result
        ∧ again.session.state = first.session.state
        ∧ (∀ steps, (again.session.decodeAll steps).1 = (first.session.decodeAll steps).1
          ∧ (again.session.decodeAll steps).2.state = (first.session.decodeAll steps).2.state)
        ∧ ((∀ id ∈ ids, model.inVocabulary id = true) →
          first.result = .ok (model.scoresAfter ids)) := by
  intro used fresh again first
  have hresembles := (sharesModel_performAll model threads threads' limit calls
    hquiet).prefill_resembles hids hfits false
  refine ⟨hresembles.result_eq, hresembles.session.state_eq, ?_, ?_⟩
  . intro steps
    have hdecoded := hresembles.session.decodeAll steps
    exact ⟨hdecoded.1, hdecoded.2.state_eq⟩
  . intro hvocabulary
    have hfind : ids.find? (!model.inVocabulary ·) = none := by simpa using hvocabulary
    exact (prefill_of_vocabulary (serves_ofCompiled model threads' limit)
      (BigramModel.isPositive_of_validate hvalid) hids (filter_limit_eq_none hfits) hfind).1

theorem prefill_eq_prefill_of_lost_inputs
    : let calls := [.prefill [1, 4] false, .decodeStep 3 false, .decodeStep 2 true]
      let used := (ofCompiled ⟨.ofShape ⟨2, 2, 3, 5⟩, ⟨2, 2, 3, 5⟩, .once 2 .loseInputs, none⟩
        (some 3)).performAll calls
      let fresh := ofCompiled ((BigramModel.ofShape ⟨2, 2, 3, 5⟩).compile none) (some 3)
      used.engine.IsQuiet
        ∧ (used.prefill [2, 0] false).result = (fresh.prefill [2, 0] false).result
        ∧ (used.prefill [2, 0] false).session.state = (fresh.prefill [2, 0] false).session.state := by
  intro calls used fresh
  have hvalid : (BigramModel.ofShape ⟨2, 2, 3, 5⟩).validate = .ok () := rfl
  have hcalls : used.engine.calls = 2 := rfl
  have hquiet : used.engine.IsQuiet := by
    intro call hcall
    rw [hcalls] at hcall
    exact if_neg (Nat.ne_of_gt hcall)
  have hfits : ∀ bound, some 3 = some bound → [2, 0].length ≤ bound := by
    rintro _ ⟨⟩
    decide
  have hids : ([2, 0] : List TokenId) ≠ [] := by simp
  have hagain := prefill_performAll_eq_prefill hvalid none none calls hquiet hids hfits
  exact ⟨hquiet, hagain.1, hagain.2.1⟩

end Session

end TextGen
