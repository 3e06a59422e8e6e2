import TextGen.Proofs.Generation.Steps
import TextGen.Proofs.Session.Interruption

/-!
This module contains what interrupts a generation: a request to stop, which takes effect before the
next token, and a pass that is cancelled. Either ends the generation, and neither changes the tokens
that have come before.
-/

namespace TextGen

namespace Generation

variable {g g' : Generation} {handle handle' : StopHandle} {event : StreamEvent}

/-! ## Steps -/

inductive Moves (g : Generation) (handle : StopHandle)
    (item : Option (Except GenerationError StreamEvent)) (g' : Generation) (handle' : StopHandle)
    : Prop
  | ended (hended : g.isRunning = false) (hitem : item = none) (hsame : g' = g)
    (hhandle : handle' = handle)
  | finished {reason : FinishReason} (hrunning : g.isRunning = true)
    (hreason : g.stopReason? handle = some reason) (hitem : item = none)
    (hfinish : g' = g.finish reason) (hhandle : handle' = handle)
  | scored {logits : List Float32} {result : Except GenerationError StreamEvent}
    (hphase : g.phase = .scored logits) (hreason : g.stopReason? handle = none)
    (hitem : item = some result) (hchoose : g.choose logits = (result, g'))
    (hhandle : handle' = handle)
  | fed {token : TokenId} {logits : List Float32} {session : Session} {flag : Bool}
    {result : Except GenerationError StreamEvent} (hphase : g.phase = .pending token)
    (hreason : g.stopReason? handle = none)
    (hstep : g.session.decodeStep token handle.cancelled = ⟨.ok logits, session, flag⟩)
    (hitem : item = some result)
    (hchoose : { g with session, feedbacks := g.feedbacks + 1 }.choose logits = (result, g'))
    (hhandle : handle' = { handle with cancelled := flag })
  | refused {e : SessionError} {session : Session} {reason : FinishReason}
    (hrunning : g.isRunning = true) (hreason : e.finishReason? = some reason) (hitem : item = none)
    (hfinish : g' = { g with session }.finish reason)
  | failed {e : SessionError} (hrunning : g.isRunning = true)
    (hitem : item = some (.error (.session e))) (hfailed : g'.phase = .failed)

theorem moves_next {item : Option (Except GenerationError StreamEvent)}
    (h : g.next handle = (item, g', handle')) : g.Moves handle item g' handle' := by
  cases hrunning : g.isRunning with
  | false =>
    rw [next_of_ended hrunning] at h
    cases h
    exact .ended hrunning rfl rfl rfl
  | true =>
    cases hreason : g.stopReason? handle with
    | some reason =>
      rw [next_of_stopReason? hrunning hreason] at h
      cases h
      exact .finished hrunning hreason rfl rfl rfl
    | none =>
      unfold next at h
      rw [hreason] at h
      cases hphase : g.phase with
      | finished reason => simp [isRunning, hphase] at hrunning
      | failed => simp [isRunning, hphase] at hrunning
      | scored logits =>
        simp only [hphase, Prod.mk.injEq] at h
        exact .scored hphase hreason h.1.symm (Prod.ext rfl h.2.1) h.2.2.symm
      | pending token =>
        simp only [hphase] at h
        rcases hstep : g.session.decodeStep token handle.cancelled with
          ⟨e | logits, session, flag⟩
        . simp only [hstep] at h
          split at h
          . next hfinish =>
            simp only [Prod.mk.injEq] at h
            exact .refused hrunning hfinish h.1.symm h.2.1.symm
          . simp only [Prod.mk.injEq] at h
            exact .failed hrunning h.1.symm (h.2.1 ▸ rfl)
        . simp only [hstep, Prod.mk.injEq] at h
          exact .fed hphase hreason hstep h.1.symm (Prod.ext rfl h.2.1) h.2.2.symm

/-! ## Events -/

inductive Gives (g : Generation) (handle : StopHandle) (event : StreamEvent) (g' : Generation)
    (handle' : StopHandle) : Prop
  | scored {logits : List Float32} (hphase : g.phase = .scored logits)
    (hchoose : g.choose logits = (.ok event, g')) (hhandle : handle' = handle)
  | fed {token : TokenId} {logits : List Float32} {session : Session} {flag : Bool}
    (hphase : g.phase = .pending token)
    (hstep : g.session.decodeStep token handle.cancelled = ⟨.ok logits, session, flag⟩)
    (hchoose : { g with session, feedbacks := g.feedbacks + 1 }.choose logits = (.ok event, g'))
    (hhandle : handle' = { handle with cancelled := flag })

theorem next_eq_event (h : g.next handle = (some (.ok event), g', handle'))
    : g.stopReason? handle = none ∧ g.Gives handle event g' handle' := by
  rcases moves_next h with ⟨_, hitem⟩ | ⟨_, _, hitem⟩ | ⟨hphase, hreason, hitem, hchoose, hhandle⟩ |
    ⟨hphase, hreason, hstep, hitem, hchoose, hhandle⟩ | ⟨_, _, hitem⟩ | ⟨_, hitem⟩
  . cases hitem
  . cases hitem
  . cases hitem
    exact ⟨hreason, .scored hphase hchoose hhandle⟩
  . cases hitem
    exact ⟨hreason, .fed hphase hstep hchoose hhandle⟩
  . cases hitem
  . cases hitem

structure HasChosen (g g' : Generation) (event : StreamEvent) : Prop where
  tokens_eq : g'.tokens = g.tokens ++ [event.token]
  config_eq : g'.config = g.config
  phase_cases : g'.phase = .pending event.token ∨ g'.phase = .finished .stop

theorem hasChosen_of_choose {logits : List Float32} (h : g.choose logits = (.ok event, g'))
    : g.HasChosen g' event := by
  unfold choose at h
  generalize g.sampler.select logits g.session.tokens g.config = choice at h
  dsimp only at h
  split at h
  . cases h
    exact ⟨rfl, rfl, .inr rfl⟩
  . split at h
    . cases h
    . cases h
      exact ⟨rfl, rfl, .inl rfl⟩

theorem Gives.hasChosen (h : g.Gives handle event g' handle') : g.HasChosen g' event := by
  cases h with
  | scored _ hchoose _ => exact hasChosen_of_choose hchoose
  | fed _ _ hchoose _ =>
    have hchosen := hasChosen_of_choose hchoose
    exact ⟨hchosen.tokens_eq, hchosen.config_eq, hchosen.phase_cases⟩

theorem Gives.isRunning (h : g.Gives handle event g' handle') : g.isRunning = true := by
  cases h with
  | scored hphase _ _ => simp [Generation.isRunning, hphase]
  | fed hphase _ _ _ => simp [Generation.isRunning, hphase]

theorem length_lt_of_stopReason? (h : g.stopReason? handle = none)
    : g.tokens.length < g.config.maxNewTokens := by
  unfold stopReason? at h
  split at h
  . contradiction
  . split at h
    . contradiction
    . next hmax => exact Nat.lt_of_not_le hmax

theorem budget_of_next (h : g.next handle = (some (.ok event), g', handle'))
    : g.budget = g'.budget + 1 := by
  rcases next_eq_event h with ⟨hreason, hgives⟩
  have hlength := length_lt_of_stopReason? hreason
  unfold budget
  rw [hgives.hasChosen.tokens_eq, hgives.hasChosen.config_eq, List.length_append,
    List.length_singleton]
  omega

/-! ## Requests to stop -/

theorem next_of_stopped (hrunning : g.isRunning = true) (hstopped : handle.stopped = true)
    : g.next handle = (none, g.finish .cancelled, handle) :=
  next_of_stopReason? hrunning (if_pos hstopped)

theorem stopReason?_ne_stop (g : Generation) (handle : StopHandle)
    : g.stopReason? handle ≠ some .stop := by
  unfold stopReason?
  split
  . simp
  . split <;> simp

theorem finishReason?_ne_stop (e : SessionError) : e.finishReason? ≠ some .stop := by
  unfold SessionError.finishReason?
  split <;> simp

theorem phase_of_next_none (hrunning : g.isRunning = true)
    (h : g.next handle = (none, g', handle'))
    : ∃ reason, g'.phase = .finished reason ∧ reason ≠ .stop := by
  rcases moves_next h with ⟨hended⟩ | ⟨_, hreason, _, rfl⟩ | ⟨_, _, hitem⟩ | ⟨_, _, _, hitem⟩ |
    ⟨_, hreason, _, rfl⟩ | ⟨_, hitem⟩
  . simp [hrunning] at hended
  . refine ⟨_, rfl, ?_⟩
    rintro rfl
    exact g.stopReason?_ne_stop handle hreason
  . cases hitem
  . cases hitem
  . refine ⟨_, rfl, ?_⟩
    rintro rfl
    exact finishReason?_ne_stop _ hreason
  . cases hitem

/-! ## Cancelled passes -/

variable {plan : FaultPlan} {calls : Nat} {fault : Fault}

def replan (g : Generation) (plan : FaultPlan) (calls : Nat) : Generation :=
  { g with session := g.session.replan plan calls }

theorem choose_replan {logits : List Float32} (h : g.choose logits = (.ok event, g'))
    (plan : FaultPlan) (calls : Nat)
    : (g.replan plan calls).choose logits = (.ok event, g'.replan plan calls) := by
  have htokens : (g.replan plan calls).session.tokens = g.session.tokens := rfl
  unfold choose at h ⊢
  rw [htokens]
  unfold replan
  dsimp only at h ⊢
  generalize g.sampler.select logits g.session.tokens g.config = choice at h ⊢
  split at h
  . next heos =>
    rw [if_pos heos]
    cases h
    rfl
  . next heos =>
    rw [if_neg heos]
    split at h
    . cases h
    . next hput =>
      cases h
      rfl

theorem next_of_gives (hreason : g.stopReason? handle = none)
    (h : g.Gives handle event g' handle') : g.next handle = (some (.ok event), g', handle') := by
  unfold next
  rw [hreason]
  cases h with
  | scored hphase hchoose hhandle => simp only [hphase, hchoose, hhandle]
  | fed hphase hstep hchoose hhandle =>
    rw [hphase] at hchoose
    simp only [hphase, hstep, hchoose, hhandle]

theorem next_replan_of_scored {logits : List Float32} (hphase : g.phase = .scored logits)
    (h : g.next handle = (some (.ok event), g', handle')) (plan : FaultPlan) (calls : Nat)
    : (g.replan plan calls).next handle = (some (.ok event), g'.replan plan calls, handle') := by
  rcases next_eq_event h with ⟨hreason, hgives⟩
  apply next_of_gives (g := g.replan plan calls) hreason
  cases hgives with
  | scored hphase hchoose hhandle => exact .scored hphase (choose_replan hchoose plan calls) hhandle
  | fed hpending _ _ _ => simp [hphase] at hpending

theorem next_replan_of_pending {token : TokenId} (hphase : g.phase = .pending token)
    (h : g.next handle = (some (.ok event), g', handle'))
    (hclear : g.session.engine.plan (g.session.engine.calls + 1) = none)
    (hclear' : plan (calls + 1) = none)
    : (g.replan plan calls).next handle
        =
      (some (.ok event), g'.replan plan (calls + 1), handle') := by
  rcases next_eq_event h with ⟨hreason, hgives⟩
  apply next_of_gives (g := g.replan plan calls) hreason
  cases hgives with
  | scored hscored _ _ => simp [hphase] at hscored
  | @fed token logits session flag hphase hstep hchoose hhandle =>
    rcases Session.decodeStep_replan hclear hclear' token handle.cancelled with
      ⟨calls', hreplan, hcalls⟩
    rw [hstep] at hreplan hcalls
    rw [hcalls logits rfl] at hreplan
    exact .fed hphase hreplan (choose_replan hchoose plan (calls + 1)) hhandle

theorem next_of_cancels {token : TokenId} (hphase : g.phase = .pending token)
    (h : g.next handle = (some (.ok event), g', handle')) (hfault : plan (calls + 1) = some fault)
    (hcancels : fault.Cancels)
    : ∃ after handle'', (g.replan plan calls).next handle = (none, after, handle'')
        ∧ after.phase = .finished .cancelled
        ∧ after.session.engine.calls = calls + 1 := by
  rcases next_eq_event h with ⟨hreason, hgives⟩
  cases hgives with
  | scored hscored _ _ => simp [hphase] at hscored
  | @fed token logits _ _ hphase hstep hchoose hhandle =>
    have hmay : (g.session.decodeStep token handle.cancelled).MayPass := by
      rw [hstep]
      rintro e ⟨⟩
    have hcancelled := Session.decodeStep_of_cancels hmay hfault hcancels
    have hreason' : (g.replan plan calls).stopReason? handle = none := hreason
    have hphase' : (g.replan plan calls).phase = .pending token := hphase
    have hsession : (g.replan plan calls).session = g.session.replan plan calls := rfl
    unfold next
    rw [hreason', hphase', hsession]
    dsimp only
    rw [hcancelled.result_eq]
    exact ⟨_, _, rfl, rfl, hcancelled.calls_eq⟩

/-! ## Starts -/

variable {session : Session} {codec : Codec} {config : SamplingConfig} {sampler : Sampler}
variable {prompt : List TokenId} {cancelled flag : Bool}

theorem phase_of_start
    (h : start session codec config sampler prompt cancelled = (.ok (), g, flag))
    : (∃ logits, g.phase = .scored logits) ∨ g.phase = .finished .cancelled := by
  unfold start at h
  dsimp only at h
  split at h
  . cases h
    exact .inl ⟨_, rfl⟩
  . split at h
    . cases h
      exact .inr rfl
    . cases h

theorem mayPass_of_start
    (h : start session codec config sampler prompt cancelled = (.ok (), g, flag))
    : (session.prefill prompt cancelled).MayPass := by
  intro e he
  unfold start at h
  dsimp only at h
  rw [he] at h
  dsimp only at h
  split at h
  . assumption
  . cases h

theorem start_of_cancels
    (h : start session codec config sampler prompt cancelled = (.ok (), g, flag))
    (hfault : plan (calls + 1) = some fault) (hcancels : fault.Cancels)
    : ∃ after flag', start (session.replan plan calls) codec config sampler prompt cancelled
          = (.ok (), after, flag')
        ∧ after.phase = .finished .cancelled
        ∧ after.session.engine.calls = calls + 1 := by
  have hcancelled := Session.prefill_of_cancels (mayPass_of_start h) hfault hcancels
  unfold start
  dsimp only
  rw [hcancelled.result_eq]
  exact ⟨_, _, rfl, rfl, hcancelled.calls_eq⟩

theorem start_replan {logits : List Float32}
    (h : start session codec config sampler prompt cancelled = (.ok (), g, flag))
    (hphase : g.phase = .scored logits)
    (hclear : session.engine.plan (session.engine.calls + 1) = none)
    (hclear' : plan (calls + 1) = none)
    : start (session.replan plan calls) codec config sampler prompt cancelled
        =
      (.ok (), g.replan plan (calls + 1), flag) := by
  rcases Session.prefill_replan hclear hclear' prompt cancelled with ⟨calls', hreplan, hcalls⟩
  unfold start at h ⊢
  rw [hreplan]
  rcases hprefill : session.prefill prompt cancelled with ⟨e | logits, after, flag'⟩
  . rw [hprefill] at h
    dsimp only at h
    split at h
    . cases h
      contradiction
    . cases h
  . rw [hprefill] at h hcalls
    cases h
    rw [hcalls logits rfl]
    rfl

end Generation

end TextGen
