import TextGen.Proofs.Session.Answers

/-!
This module contains why the cache is worth growing: a prompt followed by tokens that are fed one
after the other is answered like the whole sequence as one prompt, and leaves the same state.
-/

namespace TextGen

namespace Session

def Outcome.feed (o : Outcome (List Float32)) : List TokenId → Outcome (List Float32)
  | [] => o
  | id :: ids =>
    match o.result with
    | .error _ => o
    | .ok _ => (o.session.decodeStep id o.cancelled).feed ids

structure Outcome.Answers (o : Outcome (List Float32)) (model : BigramModel) (plan : FaultPlan)
    (limit : Option Nat) (tokens : List TokenId) : Prop where
  result_eq : o.result = .ok (model.scoresAfter tokens)
  cancelled_eq : o.cancelled = false
  serves : o.session.Serves model plan limit
  state_eq : o.session.state = .ofTokens model.shape tokens

variable {s : Session} {o : Outcome (List Float32)} {model : BigramModel} {plan : FaultPlan}
variable {tokens ids : List TokenId}

theorem answers_prefill (h : s.Serves model plan none) (hpositive : model.shape.IsPositive)
    (hids : ids ≠ []) (hvocabulary : ∀ id ∈ ids, model.inVocabulary id = true)
    : (s.prefill ids false).Answers model plan none ids := by
  have hfind : ids.find? (!model.inVocabulary ·) = none := by simpa using hvocabulary
  rcases prefill_of_vocabulary h hpositive hids rfl hfind with
    ⟨hresult, hflag, hserves, hstate, _⟩
  exact ⟨hresult, hflag, hserves, hstate⟩

theorem Outcome.Answers.decodeStep {id : TokenId} (h : o.Answers model plan none tokens)
    (hpositive : model.shape.IsPositive) (htokens : tokens ≠ [])
    (hid : model.inVocabulary id = true)
    : (o.session.decodeStep id o.cancelled).Answers model plan none (tokens ++ [id]) := by
  rw [h.cancelled_eq]
  rcases decodeStep_of_serves h.serves hpositive h.state_eq htokens hid with
    ⟨_, hexceeds, _⟩ | ⟨_, hresult, hflag, hserves, hstate, _⟩
  . contradiction
  . exact ⟨hresult, hflag, hserves, hstate⟩

theorem Outcome.Answers.feed (h : o.Answers model plan none tokens)
    (hpositive : model.shape.IsPositive) (htokens : tokens ≠ [])
    (hvocabulary : ∀ id ∈ ids, model.inVocabulary id = true)
    : (o.feed ids).Answers model plan none (tokens ++ ids) := by
  induction ids generalizing o tokens with
  | nil =>
    rw [List.append_nil]
    exact h
  | cons id ids ih =>
    have hstep := h.decodeStep hpositive htokens (hvocabulary id List.mem_cons_self)
    have hrest := ih hstep (by simp) fun other hother =>
      hvocabulary other (List.mem_cons_of_mem _ hother)
    unfold Outcome.feed
    rw [h.result_eq]
    simpa using hrest

/--
A new session that runs a prompt and is then fed tokens answers with the scores that another new
session gives for the whole sequence as its prompt, and both end in the same state.
-/
theorem feed_prefill_eq_prefill_append (hvalid : model.validate = .ok ())
    (threads threads' : Option Nat) {prompt : List TokenId} (hprompt : prompt ≠ [])
    (hvocabulary : ∀ id ∈ prompt ++ ids, model.inVocabulary id = true)
    : let fed := ((ofCompiled (model.compile threads) none).prefill prompt false).feed ids
      let whole := (ofCompiled (model.compile threads') none).prefill (prompt ++ ids) false
      ∃ logits, logits.length = model.shape.vocabSize
        ∧ fed.result = .ok logits
        ∧ whole.result = .ok logits
        ∧ fed.session.state = whole.session.state
        ∧ fed.session.tokens = prompt ++ ids := by
  have hpositive := BigramModel.isPositive_of_validate hvalid
  have hstart := answers_prefill (serves_ofCompiled model threads none) hpositive hprompt
    fun id hid => hvocabulary id (List.mem_append_left _ hid)
  have hfed := hstart.feed hpositive hprompt fun id hid =>
    hvocabulary id (List.mem_append_right _ hid)
  have hwhole := answers_prefill (serves_ofCompiled model threads' none) hpositive
    (List.append_ne_nil_of_left_ne_nil hprompt ids) hvocabulary
  exact ⟨_, model.length_scoresAfter _, hfed.result_eq, hwhole.result_eq,
    hfed.state_eq.trans hwhole.state_eq.symm, tokens_of_state hfed.state_eq⟩

theorem feed_prefill_repeating
    : let model : BigramModel := ⟨⟨2, 2, 3, 5⟩, 0, 1, [(1, [⟨4, 2⟩]), (4, [⟨3, 5⟩, ⟨3, 1⟩])]⟩
      let fed := ((ofCompiled (model.compile none) none).prefill [1, 4] false).feed [3, 1, 4]
      let whole := (ofCompiled (model.compile (some 2)) none).prefill [1, 4, 3, 1, 4] false
      model.validate = .ok ()
        ∧ fed.session.state = whole.session.state
        ∧ ∃ logits, fed.result = .ok logits ∧ whole.result = .ok logits := by
  intro model fed whole
  have hvalid : model.validate = .ok () := by
    have hclosed : model.transitions.find? (!model.isClosed ·) = none := by decide +kernel
    unfold BigramModel.validate
    rw [hclosed]
    rfl
  have hvocabulary : ∀ id ∈ [1, 4] ++ [3, 1, 4], model.inVocabulary id = true := by decide
  rcases feed_prefill_eq_prefill_append hvalid none (some 2) (by simp) hvocabulary with
    ⟨logits, _, hfed, hwhole, hstate, _⟩
  exact ⟨hvalid, hstate, logits, hfed, hwhole⟩

end Session

end TextGen
