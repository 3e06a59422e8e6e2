import TextGen.Proofs.Session.Sequence

/-!
This module contains what prefilling and decoding can do to a session: a call is turned away, its
pass fails, or the session holds the longer sequence.
-/

namespace TextGen

namespace Session

variable {s : Session} {model : BigramModel} {plan : FaultPlan} {limit : Option Nat}
variable {tokens ids : List TokenId} {id : TokenId} {cancelled : Bool}

theorem checkContext_eq (s : Session) (length : Nat)
    : s.checkContext length = .ok () ∧ (∀ bound, s.contextLimit = some bound → length ≤ bound)
        ∨
      ∃ bound, s.contextLimit = some bound ∧ bound < length
        ∧ s.checkContext length = .error (.contextLengthExceeded bound) := by
  unfold checkContext
  cases s.contextLimit with
  | none =>
    left
    simp
  | some bound =>
    dsimp only
    split
    . next hexceeds =>
      right
      exact ⟨bound, rfl, hexceeds, rfl⟩
    . next hfits =>
      left
      refine ⟨rfl, ?_⟩
      intro other hother
      cases hother
      omega

theorem RunsOn.commit (h : s.RunsOn model plan limit) (ids mask positions : List Int)
    : (s.commit ids mask positions).RunsOn model plan limit :=
  ⟨h.model_eq, h.plan_eq, h.detectable, h.separated, h.shape_eq, h.cacheShape_eq, h.layerCount_eq,
    h.contextLimit_eq⟩

def prefillRun (s : Session) (ids : List TokenId) (cancelled : Bool) : Outcome (List Float32) :=
  s.reset.run ids (List.replicate ids.length 1) (positionsFrom 0 ids.length) cancelled

theorem prefill_eq (s : Session) (ids : List TokenId) (cancelled : Bool)
    : (ids = [] ∧ s.prefill ids cancelled = ⟨.error .emptyPrompt, s, cancelled⟩)
        ∨
      (ids ≠ [] ∧ ∃ bound, s.contextLimit = some bound ∧ bound < ids.length
        ∧ s.prefill ids cancelled = ⟨.error (.contextLengthExceeded bound), s, cancelled⟩)
        ∨
      (ids ≠ [] ∧ (∀ bound, s.contextLimit = some bound → ids.length ≤ bound)
        ∧ s.prefill ids cancelled
            =
          match (s.prefillRun ids cancelled).result with
          | .ok _ =>
            { s.prefillRun ids cancelled with
              session := (s.prefillRun ids cancelled).session.commit ids
                (List.replicate ids.length 1) (positionsFrom 0 ids.length) }
          | .error _ => s.prefillRun ids cancelled) := by
  unfold prefill
  by_cases hids : ids = []
  . left
    simp [hids]
  . have hempty : ids.isEmpty = false := by simpa using hids
    right
    rw [hempty]
    rcases s.checkContext_eq ids.length with ⟨hcheck, hfits⟩ | ⟨bound, hlimit, hexceeds, hcheck⟩
    . right
      rw [hcheck]
      exact ⟨hids, hfits, rfl⟩
    . left
      rw [hcheck]
      exact ⟨hids, bound, hlimit, hexceeds, rfl⟩

def stepRun (s : Session) (id : TokenId) (cancelled : Bool) : Outcome (List Float32) :=
  s.run [id] (s.attentionMask ++ [1]) (positionsFrom s.sequenceLength 1) cancelled

theorem decodeStep_eq (s : Session) (id : TokenId) (cancelled : Bool)
    : (s.sequenceLength = 0 ∧ s.decodeStep id cancelled = ⟨.error .notPrefilled, s, cancelled⟩)
        ∨
      (s.sequenceLength ≠ 0 ∧ ∃ bound, s.contextLimit = some bound ∧ bound < s.sequenceLength + 1
        ∧ s.decodeStep id cancelled = ⟨.error (.contextLengthExceeded bound), s, cancelled⟩)
        ∨
      (s.sequenceLength ≠ 0 ∧ (∀ bound, s.contextLimit = some bound → s.sequenceLength + 1 ≤ bound)
        ∧ s.decodeStep id cancelled
            =
          match (s.stepRun id cancelled).result with
          | .ok _ =>
            { s.stepRun id cancelled with
              session := (s.stepRun id cancelled).session.commit [id] (s.attentionMask ++ [1])
                (s.positionIds ++ positionsFrom s.sequenceLength 1) }
          | .error _ => s.stepRun id cancelled) := by
  unfold decodeStep
  by_cases hlength : s.sequenceLength = 0
  . left
    simp [hlength]
  . right
    rw [if_neg hlength]
    rcases s.checkContext_eq (s.sequenceLength + 1) with
      ⟨hcheck, hfits⟩ | ⟨bound, hlimit, hexceeds, hcheck⟩
    . right
      rw [hcheck]
      exact ⟨hlength, hfits, rfl⟩
    . left
      rw [hcheck]
      exact ⟨hlength, bound, hlimit, hexceeds, rfl⟩

theorem RunsOn.prefill (h : s.RunsOn model plan limit) (ids : List TokenId) (cancelled : Bool)
    : (s.prefill ids cancelled).session.RunsOn model plan limit := by
  rcases s.prefill_eq ids cancelled with ⟨_, heq⟩ | ⟨_, _, _, _, heq⟩ | ⟨_, _, heq⟩
  . rw [heq]
    exact h
  . rw [heq]
    exact h
  . have hrun : (s.prefillRun ids cancelled).session.RunsOn model plan limit :=
      (h.reset.run ids _ _ cancelled).1
    rw [heq]
    split
    . exact hrun.commit _ _ _
    . exact hrun

theorem RunsOn.decodeStep (h : s.RunsOn model plan limit) (id : TokenId) (cancelled : Bool)
    : (s.decodeStep id cancelled).session.RunsOn model plan limit := by
  rcases s.decodeStep_eq id cancelled with ⟨_, heq⟩ | ⟨_, _, _, _, heq⟩ | ⟨_, _, heq⟩
  . rw [heq]
    exact h
  . rw [heq]
    exact h
  . have hrun : (s.stepRun id cancelled).session.RunsOn model plan limit :=
      (h.run _ _ _ cancelled).1
    rw [heq]
    split
    . exact hrun.commit _ _ _
    . exact hrun

theorem RunsOn.absorbPresent (h : s.RunsOn model plan limit) (length : Nat)
    : (s.absorbPresent length).2.RunsOn model plan limit := by
  unfold Session.absorbPresent
  rcases s.cache.absorb_cases s.engine length with ⟨e, _, heq⟩ | ⟨found, _, hlength, _, heq⟩
  . rw [heq]
    exact h
  . have hsame := Engine.SameRun.removeLayers .presentKey .presentValue found.length 0 s.engine
    rw [heq]
    exact h.replace hsame.model hsame.plan (hsame.separated h.separated) rfl hlength

/-! ## Errors -/

theorem prefill_error (h : s.RunsOn model plan limit) {e : SessionError}
    (hresult : (s.prefill ids cancelled).result = .error e)
    : ((e = .emptyPrompt ∨ ∃ bound, e = .contextLengthExceeded bound)
        ∧ (s.prefill ids cancelled).session = s)
        ∨
      (e.IsOfPass ∧ (s.prefill ids cancelled).session.state = .empty model.shape) := by
  rcases s.prefill_eq ids cancelled with ⟨_, heq⟩ | ⟨_, _, _, _, heq⟩ | ⟨_, _, heq⟩
  . left
    rw [heq] at hresult ⊢
    cases hresult
    exact ⟨.inl rfl, rfl⟩
  . left
    rw [heq] at hresult ⊢
    cases hresult
    exact ⟨.inr ⟨_, rfl⟩, rfl⟩
  . right
    rw [heq] at hresult ⊢
    cases hrun : (s.prefillRun ids cancelled).result with
    | ok logits => simp [hrun] at hresult
    | error other =>
      simp only [hrun] at hresult ⊢
      cases hresult
      rcases run_error h.reset hrun with ⟨hpass, hkept, hlost⟩
      refine ⟨hpass, ?_⟩
      by_cases hholds : (s.reset.passed ids (List.replicate ids.length 1)
          (positionsFrom 0 ids.length) cancelled).engine.HoldsPast model.shape.layerCount
      . exact (hkept hholds).trans h.state_reset
      . exact hlost hholds

def stepped (s : Session) (id : TokenId) (cancelled : Bool) : Engine :=
  (s.passed [id] (s.attentionMask ++ [1]) (positionsFrom s.sequenceLength 1) cancelled).engine

theorem decodeStep_error (h : s.RunsOn model plan limit) {e : SessionError}
    (hresult : (s.decodeStep id cancelled).result = .error e)
    : ((e = .notPrefilled ∨ ∃ bound, e = .contextLengthExceeded bound)
        ∧ (s.decodeStep id cancelled).session = s)
        ∨
      (e.IsOfPass
        ∧ ((s.stepped id cancelled).HoldsPast model.shape.layerCount →
          (s.decodeStep id cancelled).session.state = s.state)
        ∧ (¬(s.stepped id cancelled).HoldsPast model.shape.layerCount →
          (s.decodeStep id cancelled).session.state = .empty model.shape)) := by
  rcases s.decodeStep_eq id cancelled with ⟨_, heq⟩ | ⟨_, _, _, _, heq⟩ | ⟨_, _, heq⟩
  . left
    rw [heq] at hresult ⊢
    cases hresult
    exact ⟨.inl rfl, rfl⟩
  . left
    rw [heq] at hresult ⊢
    cases hresult
    exact ⟨.inr ⟨_, rfl⟩, rfl⟩
  . right
    rw [heq] at hresult ⊢
    cases hrun : (s.stepRun id cancelled).result with
    | ok logits => simp [hrun] at hresult
    | error other =>
      simp only [hrun] at hresult ⊢
      cases hresult
      exact run_error h hrun

theorem decodeStep_of_isOfPass {e : SessionError}
    (hresult : (s.decodeStep id cancelled).result = .error e) (hpass : e.IsOfPass)
    : s.sequenceLength ≠ 0
        ∧ ∀ bound, s.contextLimit = some bound → s.sequenceLength + 1 ≤ bound := by
  rcases s.decodeStep_eq id cancelled with ⟨_, heq⟩ | ⟨_, _, _, _, heq⟩ | ⟨hlength, hfits, _⟩
  . rw [heq] at hresult
    cases hresult
    contradiction
  . rw [heq] at hresult
    cases hresult
    contradiction
  . exact ⟨hlength, hfits⟩

/-! ## Successes -/

theorem prefill_ok (h : s.RunsOn model plan limit) (hpositive : model.shape.IsPositive)
    {logits : List Float32} (hresult : (s.prefill ids cancelled).result = .ok logits)
    : (∀ bound, limit = some bound → ids.length ≤ bound)
        ∧ logits = model.scoresAfter ids
        ∧ (s.prefill ids cancelled).session.state = .ofTokens model.shape ids := by
  have hempty : s.reset.state = .ofTokens model.shape [] := by
    rw [h.state_reset, SessionState.ofTokens_nil]
  rcases s.prefill_eq ids cancelled with ⟨_, heq⟩ | ⟨_, _, _, _, heq⟩ | ⟨hids, hfits, heq⟩
  . rw [heq] at hresult
    contradiction
  . rw [heq] at hresult
    contradiction
  . rw [h.contextLimit_eq] at hfits
    rw [heq] at hresult ⊢
    cases hrun : (s.prefillRun ids cancelled).result with
    | error e => simp [hrun] at hresult
    | ok scores =>
      simp only [hrun] at hresult ⊢
      cases hresult
      exact ⟨hfits, run_ok h.reset hpositive hempty hids (by simp) (by simp) hrun⟩

theorem decodeStep_ok (h : s.RunsOn model plan limit) (hpositive : model.shape.IsPositive)
    (hstate : s.state = .ofTokens model.shape tokens) {logits : List Float32}
    (hresult : (s.decodeStep id cancelled).result = .ok logits)
    : (∀ bound, limit = some bound → (tokens ++ [id]).length ≤ bound)
        ∧ logits = model.scoresAfter (tokens ++ [id])
        ∧ (s.decodeStep id cancelled).session.state = .ofTokens model.shape (tokens ++ [id]) := by
  have hlength := sequenceLength_of_state hstate
  have hmask := attentionMask_of_state hstate
  rcases s.decodeStep_eq id cancelled with ⟨_, heq⟩ | ⟨_, _, _, _, heq⟩ | ⟨hids, hfits, heq⟩
  . rw [heq] at hresult
    contradiction
  . rw [heq] at hresult
    contradiction
  . rw [h.contextLimit_eq, hlength] at hfits
    rw [heq] at hresult ⊢
    cases hrun : (s.stepRun id cancelled).result with
    | error e => simp [hrun] at hresult
    | ok scores =>
      simp only [hrun] at hresult ⊢
      cases hresult
      constructor
      . simpa using hfits
      . exact run_ok h hpositive hstate (by simp) (by simp [hmask, List.replicate_succ'])
          (by simp [hlength]) hrun

end Session

end TextGen
