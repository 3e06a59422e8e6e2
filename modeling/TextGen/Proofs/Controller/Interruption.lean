import TextGen.Proofs.Controller.Runs

/-!
This module contains that interrupting a generation truncates it and does nothing else: whether it
is told to stop between two tokens or one of its passes is cancelled, the events up to there are
those of the whole generation, and what is generated next is what would have been generated anyway.
-/

namespace TextGen

open StreamEvent

namespace Controller

open TokenStream

variable {c c' whole : Controller} {model : BigramModel} {shape : ModelShape} {limit : Option Nat}
variable {codec : Codec} {config : SamplingConfig} {freshSeed : UInt64}

theorem generateWith_of_offers (h : c.Offers model shape limit codec)
    (h' : c'.Offers model shape limit codec) (hwhole : c.IsWhole) (hwhole' : c'.IsWhole)
    (hseed : config.doSample = false ∨ ∃ value, config.seed = .fixed value) (prompt : String)
    (freshSeed freshSeed' : UInt64) (stopsAt : List StreamEvent → Bool)
    : let run := c.generateWith prompt config freshSeed stopsAt
      let run' := c'.generateWith prompt config freshSeed' stopsAt
      run'.1 = run.1 ∧ run'.2.1 = run.2.1 := by
  rcases h.sharesModel h' hwhole hwhole' with ⟨session, session', hready, hready', hshares⟩
  exact generateWith_of_sharesModel hready hready' hshares hseed prompt freshSeed freshSeed' stopsAt

/--
A generation has been cut off after some events: its output is what they make up, with the text that
was held back, and what the controller generates next is what another one generates, whose
generation was not cut off.
-/
structure CutsOff (whole : Controller) (codec : Codec) (config : SamplingConfig)
    (shown : List StreamEvent) (reason : FinishReason) (output : Output) (after : Controller)
    : Prop where
  tokens_eq : output.tokens = shown.map (·.token)
  text_eq : ∃ t, IncrementalText.empty.putAll codec (shownTokens config shown)
        = (.ok (shownText shown), t)
    ∧ output.text = shownText shown ++ t.tail codec
  finishReason_eq : output.finishReason = reason
  status_eq : after.status = if reason = .cancelled then .stopped else .ready
  follows : ∀ prompt (config : SamplingConfig) freshSeed freshSeed' stopsAt,
    (config.doSample = false ∨ ∃ value, config.seed = .fixed value) →
      (after.generateWith prompt config freshSeed' stopsAt).1
          = (whole.generateWith prompt config freshSeed stopsAt).1
        ∧ (after.generateWith prompt config freshSeed' stopsAt).2.1
          = (whole.generateWith prompt config freshSeed stopsAt).2.1

variable {s s' mid last : TokenStream} {session : Session} {ids : List TokenId} {sampler : Sampler}
variable {shown events : List StreamEvent} {answers : List StreamAnswer} {prompt : String}
variable {output : Output} {reason : FinishReason}

theorem cutsOff_intoOutput (h : s.IsAfter c codec config ids answers)
    (hcodec : c.codec = some codec) (hevents : eventsOf answers = shown)
    (herror : errorOf? answers = none) (hreason : s.intoOutput.1.finishReason = reason)
    (hon : s.IsOn session) (hsession : session.IsOf model shape limit)
    (hquiet : s.close.generation.session.engine.IsQuiet)
    (hoffers : whole.Offers model shape limit codec) (hwhole : whole.IsWhole)
    : whole.CutsOff codec config shown reason s.intoOutput.1 s.intoOutput.2 := by
  have hended := h.close.hasEnded_of_ended hcodec s.isRunning_close
  rw [intoOutput_close] at hended
  have htokens := hended.tokens_eq herror
  have htext := hended.text_eq herror
  have hstatus := hended.status_eq
  rw [hevents] at htokens htext
  rw [hreason] at hstatus
  constructor
  . exact htokens
  . exact htext
  . exact hreason
  . simpa [herror] using hstatus
  . intro prompt config freshSeed freshSeed' stopsAt hseed
    have hoffers' := h.offers hcodec hon hsession hquiet
    exact generateWith_of_offers hoffers hoffers' hwhole (hon.isWhole hsession) hseed prompt
      freshSeed freshSeed' stopsAt

/-! ## Whole generations -/

def RunsAs (prompt : String) (config : SamplingConfig) (freshSeed : UInt64) (codec : Codec)
    (ids : List TokenId) : Prop :=
  ∀ (c : Controller) (session : Session), c.checkReady = .ok (session, codec) →
    c.stream prompt config freshSeed
        =
      TokenStream.start c session codec ids config (.ofSeed (config.seed.resolve freshSeed))

theorem exists_runsAs (hready : c.checkReady = .ok (session, codec))
    (h : c.stream prompt config freshSeed = .ok s)
    : ∃ ids, RunsAs prompt config freshSeed codec ids := by
  rcases exists_of_bind h with ⟨_, hprepare, _⟩
  rcases exists_of_bind (eq_ok_of_mapError hprepare) with ⟨_, hvalid, hprepare⟩
  rcases exists_of_bind hprepare with ⟨_, hready', hprepare⟩
  cases hready.symm.trans hready'
  rcases exists_of_bind hprepare with ⟨ids, hencode, _⟩
  refine ⟨ids, fun c session hready => ?_⟩
  unfold stream stream.prepare
  simp only [hvalid, hready, hencode, bind, Except.bind, pure, Except.pure, mapError_ok]

structure RunsThrough (c : Controller) (session : Session) (codec : Codec) (ids : List TokenId)
    (config : SamplingConfig) (sampler : Sampler) (events : List StreamEvent)
    (s mid last : TokenStream) : Prop where
  start_eq : TokenStream.start c session codec ids config sampler = .ok s
  shows_events : s.Shows events mid
  next_eq : mid.next = (none, last)

theorem exists_runsThrough (hready : c.checkReady = .ok (session, codec))
    (h : c.generateWith prompt config freshSeed (fun _ => false) = (events, .ok output, whole))
    : ∃ ids s mid last, RunsAs prompt config freshSeed codec ids
        ∧ c.RunsThrough session codec ids config (.ofSeed (config.seed.resolve freshSeed)) events
          s mid last
        ∧ last.intoOutput = (output, whole) := by
  unfold generateWith at h
  rcases hstream : c.stream prompt config freshSeed with ⟨e, c'⟩ | s
  . rw [hstream] at h
    cases h
  . rw [hstream] at h
    dsimp only at h
    rcases exists_runsAs hready hstream with ⟨ids, hruns⟩
    rw [hruns c session hready] at hstream
    rcases hdrain : s.drain (fun _ => false) (s.generation.budget + 1) [] with
      ⟨shown, _ | e, last⟩
    . rw [hdrain] at h
      cases h
      rcases shows_of_drain hdrain (Nat.lt_succ_self _) with ⟨events, mid, hshown, hshows, hnext⟩
      cases hshown
      exact ⟨ids, s, mid, last, hruns, ⟨hstream, hshows, hnext⟩, rfl⟩
    . rw [hdrain] at h
      cases h

theorem RunsThrough.offers (h : c.RunsThrough session codec ids config sampler events s mid last)
    (hcodec : c.codec = some codec) (hsession : session.IsOf model shape limit)
    (hquiet : session.engine.IsQuiet)
    : last.intoOutput.2.Offers model shape limit codec ∧ last.intoOutput.2.IsWhole := by
  have hlast := (h.shows_events.isAfter (isAfter_start h.start_eq)).next
  have hon := (h.shows_events.isOn (isOn_start h.start_eq)).next
  rw [h.next_eq] at hlast hon
  have hquiet := hquiet.of_leadsTo hon.close.leadsTo.engine
  exact ⟨hlast.offers hcodec hon hsession hquiet, hon.isWhole hsession⟩

/-! ## Requests to stop -/

theorem RunsThrough.cutsOff_stop
    (h : c.RunsThrough session codec ids config sampler events s mid last)
    (hcodec : c.codec = some codec) (hsession : session.IsOf model shape limit)
    (hquiet : session.engine.IsQuiet) (hoffers : whole.Offers model shape limit codec)
    (hwhole : whole.IsWhole) {count : Nat} (hcount : count ≤ events.length)
    : ∃ cut, s.Shows (events.take count) cut
        ∧ cut.IsAfter c codec config ids ((events.take count).map fun event => some (.ok event))
        ∧ whole.CutsOff codec config (events.take count)
          (if count = events.length ∧ last.intoOutput.1.finishReason = .stop then .stop
            else .cancelled)
          cut.stop.intoOutput.1 cut.stop.intoOutput.2 := by
  rcases h.shows_events.split count with ⟨cut, hbefore, hrest⟩
  have hcut := hbefore.isAfter (isAfter_start h.start_eq)
  have hon := (hbefore.isOn (isOn_start h.start_eq)).stop
  have hstands := hbefore.standsAtEvent (standsAtEvent_start h.start_eq)
  have hiff : cut.generation.phase = .finished .stop
      ↔ count = events.length ∧ last.intoOutput.1.finishReason = .stop := by
    rcases Nat.lt_or_eq_of_le hcount with hlt | heq
    -- Another event is to come, so that the generation has not ended.
    . rw [List.drop_eq_getElem_cons hlt] at hrest
      rcases hrest with _ | ⟨hnext, _⟩
      have hrunning := (Generation.next_eq_event (generation_of_next hnext)).2.isRunning
      constructor
      . intro hphase
        simp [Generation.isRunning, hphase] at hrunning
      . rintro ⟨heq, _⟩
        omega
    . rw [List.drop_of_length_le (Nat.le_of_eq heq.symm)] at hrest
      rcases hrest
      rw [finishReason_eq_stop_iff hcut hstands h.next_eq]
      simp [heq]
  have hreason := finishReason_stop hstands
  simp only [hiff] at hreason
  exact ⟨cut, hbefore, hcut, cutsOff_intoOutput hcut.stop hcodec (eventsOf_events _)
    (errorOf?_events _) hreason hon hsession (hquiet.of_leadsTo hon.close.leadsTo.engine) hoffers
    hwhole⟩

def StopsAfter (stopsAt : List StreamEvent → Bool) (events : List StreamEvent) (count : Nat)
    : Prop :=
  (∀ earlier, 1 ≤ earlier → earlier < count → stopsAt (events.take earlier).reverse = false)
    ∧ stopsAt (events.take count).reverse = true

theorem generateWith_of_stopsAfter {stopsAt : List StreamEvent → Bool} {count : Nat}
    (hstream : c.stream prompt config freshSeed = .ok s)
    (h : c.RunsThrough session codec ids config sampler events s mid last)
    (hshows : s.Shows (events.take count) s')
    (hs' : s'.IsAfter c codec config ids ((events.take count).map fun event => some (.ok event)))
    (hpos : 1 ≤ count) (hcount : count ≤ events.length) (hstops : StopsAfter stopsAt events count)
    : c.generateWith prompt config freshSeed stopsAt
        =
      (events.take count, .ok s'.stop.intoOutput.1, s'.stop.intoOutput.2) := by
  have hlength : (events.take count).length = count := by
    rw [List.length_take]
    omega
  have hbudget := h.shows_events.budget_eq
  have hlimit : s.generation.budget + 1
      = (s.generation.budget - count + 1) + (events.take count).length := by
    rw [hlength]
    omega
  have hne : events.take count ≠ [] := by
    rw [← List.length_pos_iff, hlength]
    exact hpos
  have hearlier : ∀ earlier, 1 ≤ earlier → earlier < (events.take count).length →
      stopsAt (((events.take count).take earlier).reverse ++ []) = false := by
    intro earlier hle hlt
    rw [hlength] at hlt
    rw [List.take_take, Nat.min_eq_left (Nat.le_of_lt hlt), List.append_nil]
    exact hstops.1 earlier hle hlt
  unfold generateWith
  rw [hstream]
  dsimp only
  rw [hlimit, drain_of_shows hshows hne hearlier, List.append_nil, hstops.2, if_pos rfl,
    drain_of_next_none (next_of_raised hs'.stop rfl), List.reverse_reverse]
  dsimp only
  rw [intoOutput_close]

theorem performAll_stop (hshows : s.Shows shown s') (hs' : s'.IsAfter c codec config ids answers)
    (later : List StreamCall)
    : let run := s.performAll (List.replicate shown.length .next ++ .stop :: later)
      run.1 = shown.map (fun event => some (.ok event))
            ++ List.replicate (later.count .next) none
        ∧ run.2.intoOutput = s'.stop.intoOutput := by
  have hstop : s'.performAll (.stop :: later) = s'.stop.performAll later := rfl
  rcases performAll_of_raised hs'.stop rfl later with ⟨hanswers, houtput⟩
  dsimp only
  rw [hshows.performAll_eq, hstop, hanswers, houtput]
  exact ⟨rfl, rfl⟩

/-! ## Cancelled passes -/

end Controller

def Session.withFault (s : Session) (pass : Nat) (fault : Fault) : Session :=
  s.replan (.once (s.engine.calls + pass) fault) s.engine.calls

theorem Session.IsOf.withFault {s : Session} {model : BigramModel} {shape : ModelShape}
    {limit : Option Nat} (h : s.IsOf model shape limit) (pass : Nat) (fault : Fault)
    : (s.withFault pass fault).IsOf model shape limit :=
  ⟨h.model_eq, h.shape_eq, h.contextLimit_eq, h.isWhole.cacheShape_eq, h.isWhole.layerCount_eq⟩

def Controller.withFault (c : Controller) (pass : Nat) (fault : Fault) : Controller :=
  { c with session := c.session.map (·.withFault pass fault) }

namespace TokenStream

variable {s s' t : TokenStream} {events : List StreamEvent} {plan : FaultPlan}
variable {calls pass target : Nat} {fault : Fault} {token : TokenId} {event : StreamEvent}

theorem exists_next {answer : StreamAnswer} {g : Generation} {handle : StopHandle}
    (h : s.generation.next s.controller.stopHandle = (answer, g, handle))
    : ∃ s', s.next = (answer, s') ∧ s'.generation = g ∧ s'.controller.stopHandle = handle := by
  unfold TokenStream.next
  rw [h]
  exact ⟨_, rfl, rfl, Controller.stopHandle_follow _ _⟩

structure Replans (s t : TokenStream) (plan : FaultPlan) (calls : Nat) : Prop where
  generation_eq : t.generation = s.generation.replan plan calls
  stopHandle_eq : t.controller.stopHandle = s.controller.stopHandle

theorem Replans.next_of_scored {logits : List Float32} (h : s.Replans t plan calls)
    (hphase : s.generation.phase = .scored logits) (hnext : s.next = (some (.ok event), s'))
    : ∃ t', t.next = (some (.ok event), t') ∧ s'.Replans t' plan calls := by
  have hstep := Generation.next_replan_of_scored hphase (generation_of_next hnext) plan calls
  rw [← h.generation_eq, ← h.stopHandle_eq] at hstep
  rcases exists_next hstep with ⟨t', hanswer, hgeneration, hhandle⟩
  exact ⟨t', hanswer, hgeneration, hhandle⟩

theorem Replans.next_of_pending (h : s.Replans t plan calls)
    (hphase : s.generation.phase = .pending token) (hnext : s.next = (some (.ok event), s'))
    (hquiet : s.generation.session.engine.IsQuiet) (hclear : plan (calls + 1) = none)
    : ∃ t', t.next = (some (.ok event), t') ∧ s'.Replans t' plan (calls + 1) := by
  have hstep := Generation.next_replan_of_pending hphase (generation_of_next hnext) hquiet.next
    hclear
  rw [← h.generation_eq, ← h.stopHandle_eq] at hstep
  rcases exists_next hstep with ⟨t', hanswer, hgeneration, hhandle⟩
  exact ⟨t', hanswer, hgeneration, hhandle⟩

structure EndsCancelled (t : TokenStream) (shown : List StreamEvent) (target : Nat)
    (cut ended : TokenStream) : Prop where
  shows_events : t.Shows shown cut
  next_eq : cut.next = (none, ended)
  phase_eq : ended.generation.phase = .finished .cancelled
  calls_eq : ended.generation.session.engine.calls = target

theorem EndsCancelled.of_next {cut ended : TokenStream} {events : List StreamEvent}
    (hnext : s.next = (some (.ok event), s')) (h : s'.EndsCancelled events target cut ended)
    : s.EndsCancelled (event :: events) target cut ended :=
  ⟨.event hnext h.shows_events, h.next_eq, h.phase_eq, h.calls_eq⟩

theorem Replans.endsCancelled (h : s.Replans t plan calls)
    (hphase : s.generation.phase = .pending token) (hnext : s.next = (some (.ok event), s'))
    (hfault : plan (calls + 1) = some fault) (hcancels : fault.Cancels)
    : ∃ ended, t.EndsCancelled [] (calls + 1) t ended := by
  rcases Generation.next_of_cancels hphase (generation_of_next hnext) hfault hcancels with
    ⟨after, handle, hcancelled, hended, hcalls⟩
  rw [← h.generation_eq, ← h.stopHandle_eq] at hcancelled
  rcases exists_next hcancelled with ⟨ended, hanswer, rfl, _⟩
  exact ⟨ended, .done t, hanswer, hended, hcalls⟩

theorem phase_of_shows {later : List StreamEvent} {last : TokenStream}
    (hnext : s.next = (some (.ok event), s')) (hrest : s'.Shows later last) (hne : later ≠ [])
    : s'.generation.phase = .pending event.token := by
  rcases (Generation.next_eq_event (generation_of_next hnext)).2.hasChosen.phase_cases with
    hpending | hstop
  . exact hpending
  . cases hrest with
    | done => contradiction
    | event hnext' _ =>
      have hrunning := (Generation.next_eq_event (generation_of_next hnext')).2.isRunning
      simp [Generation.isRunning, hstop] at hrunning

theorem Shows.endsCancelled {last : TokenStream} (h : s.Shows events last)
    (hphase : s.generation.phase = .pending token) (hquiet : s.generation.session.engine.IsQuiet)
    (hreplans : s.Replans t (.once (calls + pass) fault) calls) (hcancels : fault.Cancels)
    (hpos : 1 ≤ pass) (hle : pass ≤ events.length)
    : ∃ cut ended, t.EndsCancelled (events.take (pass - 1)) (calls + pass) cut ended := by
  -- by induction on the events; the pass that is at fault comes one nearer with each of them
  induction h generalizing t calls pass token with
  | done s =>
    rw [List.length_nil] at hle
    omega
  | @event s s' last event later hnext hrest ih =>
    rcases pass with _ | _ | pass
    . contradiction
    . exact ⟨t, hreplans.endsCancelled hphase hnext (if_pos rfl) hcancels⟩
    . have hclear : FaultPlan.once (calls + (pass + 2)) fault (calls + 1) = none :=
        if_neg (by omega)
      rcases hreplans.next_of_pending hphase hnext hquiet hclear with ⟨t', hanswer, hreplans'⟩
      have hleads := Generation.leadsTo_next s.generation s.controller.stopHandle
      rw [generation_of_next hnext] at hleads
      have hcalls : calls + (pass + 2) = calls + 1 + (pass + 1) := by omega
      rw [List.length_cons] at hle
      have hne : later ≠ [] := by
        rw [← List.length_pos_iff]
        omega
      rw [hcalls] at hreplans' ⊢
      rcases ih (phase_of_shows hnext hrest hne) (hquiet.of_leadsTo hleads.engine) hreplans'
        (by omega) (by omega) with ⟨cut, ended, hends⟩
      exact ⟨cut, ended, hends.of_next hanswer⟩

variable {c c' : Controller} {session : Session} {codec : Codec} {config : SamplingConfig}
variable {ids : List TokenId} {sampler : Sampler}

theorem exists_start (c : Controller) {g : Generation} {flag : Bool}
    (h : Generation.start session codec config sampler ids false = (.ok (), g, flag))
    : ∃ s, TokenStream.start c session codec ids config sampler = .ok s ∧ s.generation = g
        ∧ s.controller.stopHandle = { StopHandle.lowered with cancelled := flag } := by
  unfold TokenStream.start
  rw [h]
  exact ⟨_, rfl, rfl, Controller.stopHandle_follow _ _⟩

theorem endsCancelled_start (h : TokenStream.start c session codec ids config sampler = .ok s)
    (hcancels : fault.Cancels) (c' : Controller)
    : ∃ t, TokenStream.start c' (session.withFault 1 fault) codec ids config sampler = .ok t
        ∧ t.EndsCancelled [] (session.engine.calls + 1) t t := by
  rcases generation_of_start h with ⟨flag, hstart, _⟩
  have hfault : FaultPlan.once (session.engine.calls + 1) fault (session.engine.calls + 1)
      = some fault := if_pos rfl
  rcases Generation.start_of_cancels hstart hfault hcancels with
    ⟨g, flag', hcancelled, hphase, hcalls⟩
  rcases exists_start c' hcancelled with ⟨t, ht, rfl, _⟩
  have hended : t.generation.isRunning = false := by simp [Generation.isRunning, hphase]
  exact ⟨t, ht, .done t, (isAfter_start ht).next_of_ended hended, hphase, hcalls⟩

theorem replans_start (h : TokenStream.start c session codec ids config sampler = .ok s)
    (hnext : s.next = (some (.ok event), s')) (hquiet : session.engine.IsQuiet)
    (hclear : plan (session.engine.calls + 1) = none) (c' : Controller)
    : ∃ t t', TokenStream.start c' (session.replan plan session.engine.calls) codec ids config
          sampler = .ok t
        ∧ t.next = (some (.ok event), t')
        ∧ s'.Replans t' plan (session.engine.calls + 1) := by
  rcases generation_of_start h with ⟨flag, hstart, hhandle⟩
  have hrunning := (Generation.next_eq_event (generation_of_next hnext)).2.isRunning
  rcases Generation.phase_of_start hstart with ⟨logits, hscored⟩ | hcancelled
  . have hstart' := Generation.start_replan hstart hscored hquiet.next hclear
    rcases exists_start c' hstart' with ⟨t, ht, hgeneration, hhandle'⟩
    have hreplans : s.Replans t plan (session.engine.calls + 1) :=
      ⟨hgeneration, hhandle'.trans hhandle.symm⟩
    rcases hreplans.next_of_scored hscored hnext with ⟨t', hnext', hreplans'⟩
    exact ⟨t, t', ht, hnext', hreplans'⟩
  . simp [Generation.isRunning, hcancelled] at hrunning

theorem EndsCancelled.drain_eq {shown : List StreamEvent} {cut ended : TokenStream}
    (h : t.EndsCancelled shown target cut ended)
    : t.drain (fun _ => false) (t.generation.budget + 1) [] = (shown, none, ended) := by
  have hbudget := h.shows_events.budget_eq
  exact h.shows_events.drain_eq h.next_eq (by omega)

end TokenStream

namespace Controller

open TokenStream

variable {c c' whole : Controller} {model : BigramModel} {shape : ModelShape} {limit : Option Nat}
variable {codec : Codec} {config : SamplingConfig} {freshSeed : UInt64} {session : Session}
variable {s mid last t cut ended : TokenStream} {ids : List TokenId} {sampler : Sampler}
variable {shown events : List StreamEvent} {prompt : String} {output : Output} {pass : Nat}
variable {fault : Fault}

theorem RunsThrough.endsCancelled
    (h : c.RunsThrough session codec ids config sampler events s mid last)
    (hquiet : session.engine.IsQuiet) (hcancels : fault.Cancels) (hpos : 1 ≤ pass)
    (hle : pass ≤ max 1 events.length) (c' : Controller)
    : ∃ t cut ended, TokenStream.start c' (session.withFault pass fault) codec ids config sampler
          = .ok t
        ∧ t.EndsCancelled (events.take (pass - 1)) (session.engine.calls + pass) cut ended := by
  rcases pass with _ | _ | pass
  . contradiction
  . rcases endsCancelled_start h.start_eq hcancels c' with ⟨t, ht, hends⟩
    exact ⟨t, t, t, ht, hends⟩
  . have hcalls : session.engine.calls + (pass + 2) = session.engine.calls + 1 + (pass + 1) := by
      omega
    cases h.shows_events with
    | done =>
      rw [List.length_nil] at hle
      omega
    | @event _ s' _ event later hnext hrest =>
      have hclear : FaultPlan.once (session.engine.calls + 1 + (pass + 1)) fault
          (session.engine.calls + 1) = none := if_neg (by omega)
      rcases replans_start h.start_eq hnext hquiet hclear c' with ⟨t, t', ht, hnext', hreplans⟩
      have hleads := (isOn_start h.start_eq).next.leadsTo
      rw [hnext] at hleads
      rw [List.length_cons] at hle
      have hne : later ≠ [] := by
        rw [← List.length_pos_iff]
        omega
      rcases hrest.endsCancelled (phase_of_shows hnext hrest hne)
        (hquiet.of_leadsTo hleads.engine) hreplans hcancels (by omega) (by omega) with
        ⟨cut, ended, hends⟩
      rw [Session.withFault, hcalls]
      exact ⟨t, cut, ended, ht, hends.of_next hnext'⟩

theorem cutsOff_of_endsCancelled
    (ht : TokenStream.start c (session.withFault pass fault) codec ids config sampler = .ok t)
    (h : t.EndsCancelled shown (session.engine.calls + pass) cut ended)
    (hcodec : c.codec = some codec) (hsession : session.IsOf model shape limit)
    (hoffers : whole.Offers model shape limit codec) (hwhole : whole.IsWhole)
    : whole.CutsOff codec config shown .cancelled ended.intoOutput.1 ended.intoOutput.2 := by
  have hafter := (h.shows_events.isAfter (isAfter_start ht)).next
  have hon := (h.shows_events.isOn (isOn_start ht)).next
  rw [h.next_eq] at hafter hon
  have hevents : eventsOf ((shown.map fun event => some (.ok event)) ++ [none]) = shown := by
    rw [eventsOf_concat, eventsOf_events]
    exact List.append_nil shown
  have herror : errorOf? ((shown.map fun event => some (.ok event)) ++ [none]) = none := by
    have := errorOf?_events shown
    unfold errorOf? at this ⊢
    rw [List.findSome?_append, this]
    rfl
  -- The one pass that is at fault has been counted.
  have hquiet : ended.close.generation.session.engine.IsQuiet := by
    intro call hcall
    rw [close_of_ended (by simp [Generation.isRunning, h.phase_eq]), h.calls_eq] at hcall
    rw [hon.close.leadsTo.engine.plan_eq]
    exact if_neg (Nat.ne_of_gt hcall)
  exact cutsOff_intoOutput hafter hcodec hevents herror (finishReason_of_finished h.phase_eq) hon
    (hsession.withFault pass fault) hquiet hoffers hwhole

theorem generateWith_of_endsCancelled {target : Nat}
    (hstream : c.stream prompt config freshSeed = .ok t)
    (h : t.EndsCancelled shown target cut ended)
    : c.generateWith prompt config freshSeed (fun _ => false)
        =
      (shown, .ok ended.intoOutput.1, ended.intoOutput.2) := by
  unfold generateWith
  rw [hstream]
  dsimp only
  rw [h.drain_eq]

theorem Offers.isOf (h : c.Offers model shape limit codec) (hwhole : c.IsWhole)
    : ∃ session, c.checkReady = .ok (session, codec) ∧ session.IsOf model shape limit
        ∧ session.engine.IsQuiet ∧ ∀ pass fault,
          (c.withFault pass fault).checkReady = .ok (session.withFault pass fault, codec) := by
  rcases h.session with ⟨session, hsession, hmodel, hshape, hlimit, hquiet⟩
  refine ⟨session, h.checkReady hsession, ⟨hmodel, hshape, hlimit, hwhole session hsession⟩, hquiet,
    fun pass fault => ?_⟩
  simp [Controller.checkReady, withFault, hsession, h.codec_eq, h.canGenerate]

/-! ## Interruptions -/

/--
Whatever interrupts a generation of these events cuts it off: a callback, a stop handle between two
tokens, or a pass that is cancelled. After the event that ends the generation it is too late for a
request to stop.
-/
structure Truncates (c : Controller) (codec : Codec) (prompt : String) (config : SamplingConfig)
    (freshSeed : UInt64) (events : List StreamEvent) (reason : FinishReason) (whole : Controller)
    : Prop where
  of_callback : ∀ stopsAt count, 1 ≤ count → count ≤ events.length →
    StopsAfter stopsAt events count →
      ∃ output after, c.generateWith prompt config freshSeed stopsAt
            = (events.take count, .ok output, after)
        ∧ whole.CutsOff codec config (events.take count)
          (if count = events.length ∧ reason = .stop then .stop else .cancelled) output after
  of_handle : ∃ s, c.stream prompt config freshSeed = .ok s
    ∧ ∀ count later, count ≤ events.length →
      let run := s.performAll (List.replicate count .next ++ .stop :: later)
      run.1 = (events.take count).map (fun event => some (.ok event))
            ++ List.replicate (later.count .next) none
        ∧ whole.CutsOff codec config (events.take count)
          (if count = events.length ∧ reason = .stop then .stop else .cancelled)
          run.2.intoOutput.1 run.2.intoOutput.2
  of_fault : ∀ fault pass, fault.Cancels → 1 ≤ pass → pass ≤ max 1 events.length →
    ∃ output after, (c.withFault pass fault).generateWith prompt config freshSeed (fun _ => false)
          = (events.take (pass - 1), .ok output, after)
      ∧ whole.CutsOff codec config (events.take (pass - 1)) .cancelled output after

theorem truncates_of_generateWith {first : ControllerConfig} {calls : List ControllerCall}
    (h : ((ofConfig first).performAll calls).Offers model shape limit codec)
    (hseed : config.doSample = false ∨ ∃ value, config.seed = .fixed value)
    (hrun : ((ofConfig first).performAll calls).generateWith prompt config freshSeed
        (fun _ => false)
      =
    (events, .ok output, whole)) (freshSeed' : UInt64)
    : ((ofConfig first).performAll calls).Truncates codec prompt config freshSeed' events
        output.finishReason whole := by
  have hwhole := isWhole_performAll first calls
  generalize (ofConfig first).performAll calls = c at h hrun hwhole ⊢
  rcases h.isOf hwhole with ⟨session, hready, hof, hquiet, hfaulty⟩
  rcases exists_runsThrough hready hrun with ⟨_, _, _, _, _, hthrough, hlast⟩
  have hafter := hthrough.offers h.codec_eq hof hquiet
  rw [hlast] at hafter
  -- The seed that is fresh for the interrupted generation makes no difference.
  rcases generateWith_of_offers h h hwhole hwhole hseed prompt freshSeed freshSeed'
    (fun _ => false) with ⟨hevents, houtput⟩
  rw [hrun] at hevents houtput
  have hrun' : c.generateWith prompt config freshSeed' (fun _ => false)
      = (events, .ok output, (c.generateWith prompt config freshSeed' fun _ => false).2.2) :=
    Prod.ext hevents (Prod.ext houtput rfl)
  rcases exists_runsThrough hready hrun' with ⟨ids, s, mid, last, hruns, hthrough', hlast'⟩
  have hstream := (hruns c session hready).trans hthrough'.start_eq
  have hcut (count : Nat) (hcount : count ≤ events.length) := hthrough'.cutsOff_stop h.codec_eq hof
    hquiet hafter.1 hafter.2 hcount
  rw [hlast'] at hcut
  constructor
  . intro stopsAt count hpos hcount hstops
    rcases hcut count hcount with ⟨cut, hshows, hisAfter, hcutsOff⟩
    exact ⟨_, _, generateWith_of_stopsAfter hstream hthrough' hshows hisAfter hpos hcount hstops,
      hcutsOff⟩
  . refine ⟨s, hstream, fun count later hcount => ?_⟩
    rcases hcut count hcount with ⟨cut, hshows, hisAfter, hcutsOff⟩
    have hperformed := performAll_stop hshows hisAfter later
    rw [List.length_take, Nat.min_eq_left hcount] at hperformed
    exact ⟨hperformed.1, hperformed.2 ▸ hcutsOff⟩
  . intro fault pass hcancels hpos hle
    rcases hthrough'.endsCancelled hquiet hcancels hpos hle (c.withFault pass fault) with
      ⟨t, cut, ended, ht, hends⟩
    exact ⟨_, _, generateWith_of_endsCancelled ((hruns _ _ (hfaulty pass fault)).trans ht) hends,
      cutsOff_of_endsCancelled ht hends h.codec_eq hof hafter.1 hafter.2⟩

theorem truncates_interrupted
    : let c := (ofConfig {}).performAll (interrupted .none)
      let codec := (PieceTable.ofPieces [(0, [104])]).codec
      let config := { SamplingConfig.greedy with maxNewTokens := 3 }
      let events := List.replicate 3 ⟨0, "h"⟩
      ∃ output whole, c.generateWith "h" config 0 (fun _ => false) = (events, .ok output, whole)
        ∧ output.finishReason = .length
        ∧ c.Truncates codec "h" config 1 events output.finishReason whole := by
  intro c codec config events
  have hoffers : c.Offers (.ofShape ⟨1, 1, 1, 1⟩) ⟨1, 1, 1, 1⟩ none codec := by
    refine ⟨⟨_, (Option.some_get (show _ = true from rfl)).symm, rfl, rfl, rfl, ?_⟩, rfl, rfl⟩
    exact fun _ _ => rfl
  have hevents : (c.generateWith "h" config 0 fun _ => false).1 = events := by decide +kernel
  have hreason : (c.generateWith "h" config 0 fun _ => false).2.1.toOption.map (·.finishReason)
      = some .length := by decide +kernel
  rcases hrun : c.generateWith "h" config 0 (fun _ => false) with ⟨shown, _ | output, whole⟩
  . rw [hrun] at hreason
    cases hreason
  . rw [hrun] at hevents hreason
    subst hevents
    exact ⟨output, whole, rfl, Option.some_inj.mp hreason,
      truncates_of_generateWith hoffers (.inl rfl) hrun 1⟩

end Controller

end TextGen
