import TextGen.Proofs.Controller.Independence
import TextGen.Proofs.Generation.Interruption

/-!
This module contains runs of a token stream: the events that it shows one after the other, what a
request to stop leaves of them, and what the stream leaves of its controller.
-/

namespace TextGen

open StreamEvent

structure Session.IsOf (s : Session) (model : BigramModel) (shape : ModelShape)
    (limit : Option Nat) : Prop where
  model_eq : s.engine.request.model = model
  shape_eq : s.shape = shape
  contextLimit_eq : s.contextLimit = limit
  isWhole : s.IsWhole

theorem Session.IsOf.of_leadsTo {s s' : Session} {model : BigramModel} {shape : ModelShape}
    {limit : Option Nat} (h : s.IsOf model shape limit) (hleads : s.LeadsTo s')
    : s'.IsOf model shape limit where
  model_eq := hleads.engine.model_eq.trans h.model_eq
  shape_eq := hleads.shape_eq.trans h.shape_eq
  contextLimit_eq := hleads.contextLimit_eq.trans h.contextLimit_eq
  isWhole := h.isWhole.of_leadsTo hleads

namespace TokenStream

/-! ## Runs -/

inductive Shows : TokenStream → List StreamEvent → TokenStream → Prop
  | done (s : TokenStream) : Shows s [] s
  | event {s s' s'' : TokenStream} {event : StreamEvent} {events : List StreamEvent}
    (hnext : s.next = (some (.ok event), s')) (hrest : Shows s' events s'')
    : Shows s (event :: events) s''

variable {s s' : TokenStream} {events : List StreamEvent} {event : StreamEvent}
variable {stopsAt : List StreamEvent → Bool} {limit : Nat} {seen : List StreamEvent}

theorem Shows.split (h : s.Shows events s') (count : Nat)
    : ∃ mid, s.Shows (events.take count) mid ∧ mid.Shows (events.drop count) s' := by
  induction h generalizing count with
  | done s =>
    rw [List.take_nil, List.drop_nil]
    exact ⟨s, .done s, .done s⟩
  | event hnext hrest ih =>
    cases count with
    | zero => exact ⟨_, .done _, .event hnext hrest⟩
    | succ count =>
      rcases ih count with ⟨mid, hbefore, hafter⟩
      exact ⟨mid, .event hnext hbefore, hafter⟩

theorem generation_of_next {answer : StreamAnswer} (h : s.next = (answer, s'))
    : s.generation.next s.controller.stopHandle
        =
      (answer, s'.generation, s'.controller.stopHandle) := by
  unfold TokenStream.next at h
  rcases hstep : s.generation.next s.controller.stopHandle with ⟨item, g, handle⟩
  rw [hstep] at h
  cases h
  simp [advance]

theorem Shows.budget_eq (h : s.Shows events s')
    : s.generation.budget = s'.generation.budget + events.length := by
  induction h with
  | done s => rfl
  | event hnext hrest ih =>
    have := Generation.budget_of_next (generation_of_next hnext)
    rw [List.length_cons]
    omega

theorem Shows.performAll_eq (h : s.Shows events s') (calls : List StreamCall)
    : s.performAll (List.replicate events.length .next ++ calls)
        =
      (events.map (fun event => some (.ok event)) ++ (s'.performAll calls).1,
        (s'.performAll calls).2) := by
  induction h with
  | done s => rfl
  | event hnext hrest ih =>
    rw [List.length_cons, List.replicate_succ, List.cons_append, performAll, hnext]
    dsimp only
    rw [ih]
    rfl

theorem drain_of_shows (h : s.Shows events s') (hne : events ≠ [])
    (hstops : ∀ count, 1 ≤ count → count < events.length →
      stopsAt ((events.take count).reverse ++ seen) = false)
    : s.drain stopsAt (limit + events.length) seen
        =
      (if stopsAt (events.reverse ++ seen) then s'.stop else s').drain stopsAt limit
        (events.reverse ++ seen) := by
  induction h generalizing seen with
  | done s => contradiction
  | @event s s' s'' event events hnext hrest ih =>
    rw [List.length_cons, ← Nat.add_assoc, drain, hnext]
    dsimp only
    cases hrest with
    | done => rfl
    | @event _ mid _ second later hnext' hrest' =>
      -- The first event is not the last one, so that nobody asks to stop after it.
      have hfirst : stopsAt (event :: seen) = false := hstops 1 (Nat.le_refl _) (by simp)
      rw [hfirst, if_neg Bool.false_ne_true, ih (by simp)]
      . simp
      . intro count hpos hcount
        have := hstops (count + 1) (by omega) (by simpa using hcount)
        simpa using this

theorem drain_of_next_none (h : s.next = (none, s'))
    : s.drain stopsAt (limit + 1) seen = (seen.reverse, none, s') := by
  rw [drain, h]

theorem shows_of_drain {shown : List StreamEvent}
    (h : s.drain (fun _ => false) limit seen = (shown, none, s'))
    (hlimit : s.generation.budget < limit)
    : ∃ events mid, shown = seen.reverse ++ events ∧ s.Shows events mid
        ∧ mid.next = (none, s') := by
  induction limit generalizing s seen with
  | zero => contradiction
  | succ limit ih =>
    unfold drain at h
    rcases hnext : s.next with ⟨_ | (e | event), after⟩
    . rw [hnext] at h
      cases h
      exact ⟨[], s, by simp, .done s, hnext⟩
    . rw [hnext] at h
      cases h
    . rw [hnext] at h
      dsimp only at h
      rw [if_neg Bool.false_ne_true] at h
      have hbudget := Generation.budget_of_next (generation_of_next hnext)
      rcases ih h (by omega) with ⟨events, mid, hshown, hshows, hend⟩
      exact ⟨event :: events, mid, by simp [hshown], .event hnext hshows, hend⟩

theorem Shows.drain_eq {last : TokenStream} (h : s.Shows events s') (hnext : s'.next = (none, last))
    (hlimit : events.length < limit)
    : s.drain (fun _ => false) limit seen = (seen.reverse ++ events, none, last) := by
  induction h generalizing limit seen with
  | done s =>
    cases limit with
    | zero => contradiction
    | succ limit => rw [drain_of_next_none hnext, List.append_nil]
  | event hevent hrest ih =>
    cases limit with
    | zero => contradiction
    | succ limit =>
      rw [drain, hevent]
      dsimp only
      rw [if_neg Bool.false_ne_true, ih hnext (Nat.lt_of_succ_lt_succ hlimit)]
      simp

/-! ## Stopped streams -/

variable {c : Controller} {codec : Codec} {config : SamplingConfig} {prompt : List TokenId}
variable {answers : List StreamAnswer}

theorem next_of_raised (h : s.IsAfter c codec config prompt answers)
    (hraised : s.controller.stopHandle = .raised) : s.next = (none, s.close) := by
  cases hrunning : s.generation.isRunning with
  | false => rw [h.next_of_ended hrunning, close_of_ended hrunning]
  | true =>
    unfold TokenStream.next close
    rw [hrunning, Generation.next_of_stopped hrunning (by rw [hraised]; rfl)]
    rfl

theorem stopHandle_close (s : TokenStream)
    : s.close.controller.stopHandle = s.controller.stopHandle := by
  unfold close
  split
  . exact Controller.stopHandle_follow _ _
  . rfl

theorem performAll_of_raised (h : s.IsAfter c codec config prompt answers)
    (hraised : s.controller.stopHandle = .raised) (calls : List StreamCall)
    : (s.performAll calls).1 = List.replicate (calls.count .next) none
        ∧ (s.performAll calls).2.intoOutput = s.intoOutput := by
  induction calls generalizing s with
  | nil => exact ⟨rfl, rfl⟩
  | cons call calls ih =>
    cases call with
    | next =>
      rcases ih h.close (s.stopHandle_close.trans hraised) with ⟨hanswers, houtput⟩
      unfold performAll
      rw [next_of_raised h hraised]
      dsimp only
      rw [hanswers, houtput, intoOutput_close]
      simp [List.replicate_succ]
    | stop =>
      have hstop : s.stop = s := by
        unfold TokenStream.stop
        rw [← hraised]
      unfold performAll
      rw [hstop]
      simpa using ih h hraised

def StandsAtEvent (s : TokenStream) : Prop :=
  s.generation.isRunning = true ∨ s.generation.phase = .finished .stop
    ∨ s.generation.phase = .finished .cancelled

theorem standsAtEvent_of_next (h : s.next = (some (.ok event), s')) : s'.StandsAtEvent := by
  rcases Generation.next_eq_event (generation_of_next h) with ⟨_, hgives⟩
  rcases hgives.hasChosen.phase_cases with hpending | hstop
  . exact .inl (by simp [Generation.isRunning, hpending])
  . exact .inr (.inl hstop)

theorem Shows.standsAtEvent (h : s.Shows events s') (hs : s.StandsAtEvent)
    : s'.StandsAtEvent := by
  induction h with
  | done s => exact hs
  | event hnext hrest ih => exact ih (standsAtEvent_of_next hnext)

theorem Shows.isAfter (h : s.Shows events s') (hs : s.IsAfter c codec config prompt answers)
    : s'.IsAfter c codec config prompt (answers ++ events.map fun event => some (.ok event)) := by
  have hperformed := hs.performAll (List.replicate events.length .next ++ [])
  rw [h.performAll_eq []] at hperformed
  simpa [performAll] using hperformed

theorem Shows.isOn {session : Session} (h : s.Shows events s') (hs : s.IsOn session)
    : s'.IsOn session := by
  induction h with
  | done s => exact hs
  | event hnext hrest ih =>
    apply ih
    have hafter := hs.next
    rw [hnext] at hafter
    exact hafter

theorem generation_of_start {session : Session} {sampler : Sampler}
    (h : TokenStream.start c session codec prompt config sampler = .ok s)
    : ∃ flag, Generation.start session codec config sampler prompt false
          = (.ok (), s.generation, flag)
        ∧ s.controller.stopHandle = { StopHandle.lowered with cancelled := flag } := by
  unfold TokenStream.start at h
  rcases hstart : Generation.start session codec config sampler prompt false with ⟨_ | _, g, flag⟩
  . rw [hstart] at h
    cases h
  . rw [hstart] at h
    cases h
    exact ⟨flag, rfl, Controller.stopHandle_follow _ _⟩

theorem standsAtEvent_start {session : Session} {sampler : Sampler}
    (h : TokenStream.start c session codec prompt config sampler = .ok s)
    : s.StandsAtEvent := by
  rcases generation_of_start h with ⟨flag, hstart, _⟩
  rcases Generation.phase_of_start hstart with ⟨logits, hscored⟩ | hcancelled
  . exact .inl (by simp [Generation.isRunning, hscored])
  . exact .inr (.inr hcancelled)

theorem finishReason_of_finished {reason : FinishReason}
    (hphase : s.generation.phase = .finished reason) : s.intoOutput.1.finishReason = reason := by
  unfold intoOutput
  rw [close_of_ended (by simp [Generation.isRunning, hphase])]
  simp [Generation.finishReason?, hphase]

theorem finishReason_stop (h : s.StandsAtEvent)
    : s.stop.intoOutput.1.finishReason
        =
      if s.generation.phase = .finished .stop then .stop else .cancelled := by
  rcases h with hrunning | hstop | hcancelled
  . have hphase : ¬s.generation.phase = .finished .stop := by
      intro hphase
      simp [Generation.isRunning, hphase] at hrunning
    have hclose : s.stop.close = s.stop.advance (s.generation.finish .cancelled) := if_pos hrunning
    rw [if_neg hphase, ← intoOutput_close, hclose]
    exact finishReason_of_finished rfl
  . rw [if_pos hstop]
    exact finishReason_of_finished hstop
  . rw [hcancelled, if_neg (by simp)]
    exact finishReason_of_finished hcancelled

theorem finishReason_eq_stop_iff (hs : s.IsAfter c codec config prompt answers)
    (hstands : s.StandsAtEvent) (hnext : s.next = (none, s'))
    : s'.intoOutput.1.finishReason = .stop ↔ s.generation.phase = .finished .stop := by
  rcases hstands with hrunning | hended
  . rcases Generation.phase_of_next_none hrunning (generation_of_next hnext) with
      ⟨reason, hphase, hne⟩
    rw [finishReason_of_finished hphase]
    refine ⟨fun heq => absurd heq hne, fun heq => ?_⟩
    simp [Generation.isRunning, heq] at hrunning
  . have hnot : s.generation.isRunning = false := by
      rcases hended with hstop | hcancelled
      . simp [Generation.isRunning, hstop]
      . simp [Generation.isRunning, hcancelled]
    have hsame : s' = s := by
      rw [hs.next_of_ended hnot] at hnext
      exact (Prod.mk.inj hnext).2.symm
    rw [hsame]
    rcases hended with hstop | hcancelled
    . simp [finishReason_of_finished hstop, hstop]
    . simp [finishReason_of_finished hcancelled, hcancelled]

/-! ## What an ended stream leaves -/

variable {session : Session} {model : BigramModel} {shape : ModelShape} {limit : Option Nat}

theorem eventsOf_events (events : List StreamEvent)
    : eventsOf (events.map fun event => some (.ok event)) = events := by
  simp [eventsOf, List.filterMap_map, Function.comp_def, Except.toOption]

theorem errorOf?_events (events : List StreamEvent)
    : errorOf? (events.map fun event => some (.ok event)) = none := by
  simp [errorOf?, List.findSome?_map, Function.comp_def]

theorem IsAfter.offers (h : s.IsAfter c codec config prompt answers) (hcodec : c.codec = some codec)
    (hon : s.IsOn session) (hsession : session.IsOf model shape limit)
    (hquiet : s.close.generation.session.engine.IsQuiet)
    : s.intoOutput.2.Offers model shape limit codec := by
  have hof := hsession.of_leadsTo hon.close.leadsTo
  have hstatus := (h.close.hasEnded_of_ended hcodec s.isRunning_close).status_eq
  rw [intoOutput_close] at hstatus
  constructor
  . exact ⟨_, hon.close.session_eq, hof.model_eq, hof.shape_eq, hof.contextLimit_eq, hquiet⟩
  . show s.close.controller.codec = some codec
    rw [h.close.controller_eq]
    exact (Controller.codec_follow _ _).trans hcodec
  . rw [hstatus]
    split <;> rfl

theorem IsOn.isWhole (hon : s.IsOn session) (hsession : session.IsOf model shape limit)
    : s.intoOutput.2.IsWhole := by
  intro other hother
  cases (show _ = some _ from hon.close.session_eq).symm.trans hother
  exact hsession.isWhole.of_leadsTo hon.close.leadsTo

end TokenStream

end TextGen
