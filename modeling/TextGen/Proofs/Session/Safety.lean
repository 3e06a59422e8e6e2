import TextGen.Proofs.Backend.Reads
import TextGen.Proofs.Session.Interruption
import TextGen.Proofs.Session.Invariant
import TextGen.Proofs.Session.Working

/-!
This module contains what a valid model is safe from. Whatever is called on a session over it,
nothing is read that is not there, and the errors are those that the caller asked for: an empty or
missing prompt, too many tokens, a token outside of the vocabulary, and a cancellation.
-/

namespace TextGen

theorem BigramModel.validate_of_load {storage : Storage} {path : String} {model : BigramModel}
    (h : load storage path = .ok model) : model.validate = .ok () := by
  unfold load at h
  split at h
  . contradiction
  . contradiction
  . next found hload =>
    cases h
    unfold load? at hload
    split at hload
    . cases hload
    . cases hload
    . rcases bind_eq_ok_iff.mp (Option.some.inj hload) with ⟨read, _, hread⟩
      rcases bind_eq_ok_iff.mp hread with ⟨_, hflaw, hpure⟩
      cases hpure
      cases hvalidate : model.validate with
      | error flaw =>
        rw [hvalidate] at hflaw
        cases hflaw
      | ok _ => rfl

def FaultPlan.Cancels (plan : FaultPlan) : Prop :=
  ∀ call fault, plan call = some fault → fault.Cancels

theorem FaultPlan.Cancels.isDetectable {plan : FaultPlan} (h : plan.Cancels)
    : plan.IsDetectable := by
  intro call changes hchanges
  exact absurd (h call _ hchanges) id

namespace Session

/-! ## Safe sessions -/

def IsInterrupted (s : Session) (cancelled : Bool) : Prop :=
  cancelled = true ∨ s.engine.plan (s.engine.calls + 1) ≠ none

inductive PassError (s : Session) (ids : List TokenId) (cancelled : Bool) : SessionError → Prop
  | outsideVocabulary (token : TokenId) (hmem : token ∈ ids)
      (houtside : s.engine.request.model.inVocabulary token = false) :
      PassError s ids cancelled (.backend (.invalidInput (.outsideVocabulary token)))
  | cancelled (h : s.IsInterrupted cancelled) : PassError s ids cancelled (.backend .cancelled)

inductive PrefillError (s : Session) (ids : List TokenId) (cancelled : Bool) : SessionError → Prop
  | emptyPrompt (h : ids = []) : PrefillError s ids cancelled .emptyPrompt
  | contextLengthExceeded (limit : Nat) (hlimit : s.contextLimit = some limit)
      (h : limit < ids.length) : PrefillError s ids cancelled (.contextLengthExceeded limit)
  | pass {e : SessionError} (h : s.PassError ids cancelled e) : PrefillError s ids cancelled e

inductive StepError (s : Session) (id : TokenId) (cancelled : Bool) : SessionError → Prop
  | notPrefilled (h : s.sequenceLength = 0) : StepError s id cancelled .notPrefilled
  | contextLengthExceeded (limit : Nat) (hlimit : s.contextLimit = some limit)
      (h : limit < s.sequenceLength + 1) : StepError s id cancelled (.contextLengthExceeded limit)
  | pass {e : SessionError} (h : s.PassError [id] cancelled e) : StepError s id cancelled e

/--
All that a pass over new tokens reads is there: in the forward pass once its inputs are accepted,
and in the last row of the scores that it answers.
-/
structure ReadsInRange (s : Session) (ids mask positions : List Int) (cancelled : Bool) : Prop where
  pass : ∀ outputs, (s.bound ids mask positions).request.compute false = .ok outputs →
    Request.readOutputs? s.engine.request.model s.sequenceLength ids.length ids
      (s.cache.layers.map fun layer => (layer.key, layer.value)) = some outputs
  lastRow : ∀ logits,
    lastLogits (s.passed ids mask positions cancelled).engine s.shape ids.length = .ok logits →
      ∃ grid, (s.passed ids mask positions cancelled).engine.get? .logits = some (.floats grid)
        ∧ Request.readLastRow? grid ids.length s.shape.vocabSize = some logits

structure IsSafe (s : Session) : Prop where
  prefill_reads : ∀ ids cancelled, ids ≠ [] →
    s.reset.ReadsInRange ids (List.replicate ids.length 1) (positionsFrom 0 ids.length) cancelled
  prefill_error : ∀ ids cancelled e, (s.prefill ids cancelled).result = .error e →
    s.PrefillError ids cancelled e
  step_reads : ∀ id cancelled,
    s.ReadsInRange [id] (s.attentionMask ++ [1]) (positionsFrom s.sequenceLength 1) cancelled
  step_error : ∀ id cancelled e, (s.decodeStep id cancelled).result = .error e →
    s.StepError id cancelled e

variable {s : Session} {model : BigramModel} {plan : FaultPlan} {limit : Option Nat}
variable {tokens ids : List TokenId} {mask positions : List Int} {cancelled : Bool}

/-! ## Passes -/

theorem readsInRange (h : s.RunsOn model plan limit) (hvalid : model.validate = .ok ())
    (hstate : s.state = .ofTokens model.shape tokens) (hids : ids ≠ [])
    (hmask : mask = List.replicate (tokens.length + ids.length) 1)
    (hpositions : positions = positionsFrom tokens.length ids.length) (cancelled : Bool)
    : s.ReadsInRange ids mask positions cancelled := by
  have hpositive := BigramModel.isPositive_of_validate hvalid
  have hmodel := h.model_bound ids mask positions
  have hcontinues := continues_bound h hstate hmask hpositions
  constructor
  . intro outputs hcompute
    have hlayers := hpositive.layerCount
    have hcached : s.cache.layers.map (fun layer => (layer.key, layer.value))
        = List.replicate model.shape.layerCount
          (model.shape.keys tokens, model.shape.values tokens.length) := by
      rw [layers_of_state hstate, List.map_replicate]
    rw [← hmodel] at hlayers
    rw [Request.compute_of_continues hcontinues hids hlayers] at hcompute
    rw [if_neg Bool.false_ne_true] at hcompute
    split at hcompute
    . contradiction
    . next hfind =>
      cases hcompute
      have hvocabulary : ∀ token ∈ ids,
          (s.bound ids mask positions).request.model.inVocabulary token = true := by
        simpa using hfind
      have haccepts := Request.accepts_of_continues hcontinues hids hvocabulary
      have hread := Request.readOutputs?_eq_some haccepts (hmodel ▸ hvalid) Nat.one_pos
      rw [sequenceLength_of_state hstate, hcached, h.model_eq]
      rw [hmodel] at hread ⊢
      exact hread
  . intro logits hlogits
    rcases lastLogits_eq_ok hlogits with ⟨grid, hshown, hshape, rfl⟩
    refine ⟨grid, hshown, ?_⟩
    apply Request.readLastRow?_eq_some _ hshape
    exact List.length_pos_iff.mpr hids

theorem passError_of_run (h : s.RunsOn model plan limit) (hplan : plan.Cancels)
    (hpositive : model.shape.IsPositive) (hstate : s.state = .ofTokens model.shape tokens)
    (hids : ids ≠ []) (hmask : mask = List.replicate (tokens.length + ids.length) 1)
    (hpositions : positions = positionsFrom tokens.length ids.length) {e : SessionError}
    (hresult : (s.run ids mask positions cancelled).result = .error e)
    : s.PassError ids cancelled e := by
  have hmodel := h.model_bound ids mask positions
  have hcontinues := continues_bound h hstate hmask hpositions
  have hlayers := hpositive.layerCount
  rw [← hmodel] at hlayers
  have hcompute := Request.compute_of_continues hcontinues hids hlayers cancelled
  rw [hmodel] at hcompute
  cases hfault : s.engine.plan (s.engine.calls + 1) with
  | some fault =>
    have hcancels : fault.Cancels := by
      apply hplan (s.engine.calls + 1)
      rw [← h.plan_eq]
      exact hfault
    have hpass : (s.passed ids mask positions cancelled).result = .error .cancelled :=
      ((s.bound ids mask positions).infer_of_cancels hfault hcancels cancelled).1
    rw [run_eq h] at hresult
    generalize s.passed ids mask positions cancelled = pass at hpass hresult
    rcases pass with ⟨result, engine, flag⟩
    cases hpass
    cases hresult
    exact .cancelled (.inr (by simp [hfault]))
  | none =>
    cases cancelled with
    | true =>
      have herror := (run_of_compute_error h hfault hcompute).1
      rw [herror] at hresult
      cases hresult
      exact .cancelled (.inl rfl)
    | false =>
      rw [if_neg Bool.false_ne_true] at hcompute
      cases hfind : ids.find? (!model.inVocabulary ·) with
      | some token =>
        rw [hfind] at hcompute
        have herror := (run_of_compute_error h hfault hcompute).1
        rw [herror] at hresult
        cases hresult
        have houtside := List.find?_some hfind
        rw [← h.model_eq] at houtside
        exact .outsideVocabulary token (List.mem_of_find?_eq_some hfind) (by simpa using houtside)
      | none =>
        rw [run_of_vocabulary h hpositive hfault hstate hids hfind hmask hpositions] at hresult
        contradiction

/-! ## Operations -/

theorem IsSettled.isSafe (h : s.IsSettled model plan limit) (hvalid : model.validate = .ok ())
    (hplan : plan.Cancels) : s.IsSafe := by
  have hpositive := BigramModel.isPositive_of_validate hvalid
  have hempty : s.reset.state = .ofTokens model.shape [] := by
    rw [h.runs.state_reset, SessionState.ofTokens_nil]
  have hlength := sequenceLength_of_state h.state_eq
  have hmask := attentionMask_of_state h.state_eq
  constructor
  . intro ids cancelled hids
    exact readsInRange h.runs.reset hvalid hempty hids (by simp) (by simp) cancelled
  . intro ids cancelled e hresult
    rcases s.prefill_eq ids cancelled with
      ⟨hids, heq⟩ | ⟨_, bound, hlimit, hexceeds, heq⟩ | ⟨hids, _, heq⟩
    . rw [heq] at hresult
      cases hresult
      exact .emptyPrompt hids
    . rw [heq] at hresult
      cases hresult
      exact .contextLengthExceeded bound hlimit hexceeds
    . rw [heq] at hresult
      cases hrun : (s.prefillRun ids cancelled).result with
      | ok logits => simp [hrun] at hresult
      | error other =>
        simp only [hrun] at hresult
        cases hresult
        -- Resetting a session changes neither its model nor the number of its passes.
        have herror := passError_of_run h.runs.reset hplan hpositive hempty hids (by simp) (by simp)
          hrun
        apply PrefillError.pass
        cases herror with
        | outsideVocabulary token hmem houtside => exact .outsideVocabulary token hmem houtside
        | cancelled hinterrupted => exact .cancelled hinterrupted
  . intro id cancelled
    apply readsInRange h.runs hvalid h.state_eq (by simp)
    . simp [hmask, List.replicate_succ']
    . simp [hlength]
  . intro id cancelled e hresult
    rcases s.decodeStep_eq id cancelled with
      ⟨hlength, heq⟩ | ⟨_, bound, hlimit, hexceeds, heq⟩ | ⟨_, _, heq⟩
    . rw [heq] at hresult
      cases hresult
      exact .notPrefilled hlength
    . rw [heq] at hresult
      cases hresult
      exact .contextLengthExceeded bound hlimit hexceeds
    . rw [heq] at hresult
      cases hrun : (s.stepRun id cancelled).result with
      | ok logits => simp [hrun] at hresult
      | error other =>
        simp only [hrun] at hresult
        cases hresult
        apply StepError.pass
        apply passError_of_run h.runs hplan hpositive h.state_eq (by simp) _ _ hrun
        . simp [hmask, List.replicate_succ']
        . simp [hlength]

theorem isSafe_performAll {plan : FaultPlan}
    (hmodel : model.validate = .ok ()
      ∨ ∃ storage path, BigramModel.load storage path = .ok model)
    (hplan : plan.Cancels) (threads limit : Option Nat) (calls : List SessionCall)
    : ((ofCompiled ⟨model, model.shape, plan, threads⟩ limit).performAll calls).IsSafe := by
  have hvalid : model.validate = .ok () := by
    rcases hmodel with hvalid | ⟨storage, path, hload⟩
    . exact hvalid
    . exact BigramModel.validate_of_load hload
  have hsettled := (isSettled_ofCompiled model threads limit hplan.isDetectable).performAll
    (BigramModel.isPositive_of_validate hvalid) calls
  exact hsettled.isSafe hvalid hplan

theorem isSafe_of_cancelled_step
    : let model := (BigramModel.ofShape ⟨1, 2, 1, 2⟩).transition 0 1 1
      let s := ofCompiled ⟨model, model.shape, .once 2 .cancel, none⟩ (some 3)
      let calls := [.prefill [0, 1] false, .decodeStep 1 false, .decodeStep 7 false]
      (s.performAll calls).IsSafe := by
  intro model s calls
  have hplan : (FaultPlan.once 2 .cancel).Cancels := by
    intro call fault hfault
    unfold FaultPlan.once at hfault
    split at hfault
    . cases hfault
      rfl
    . contradiction
  exact isSafe_performAll (.inl (by decide +kernel)) hplan none (some 3) _

end Session

end TextGen
