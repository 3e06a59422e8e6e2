import TextGen.Proofs.Controller.Lifecycle

/-!
This module contains what the status of a controller tells: whatever has been called, it says what
is loaded, and it says that a generation is running only if a stream has been leaked.
-/

namespace TextGen

/-! ## Errors of a run -/

def GenerationError.IsOfRun (e : GenerationError) : Prop :=
  (∃ error, e = .codec error) ∨ ∃ error, e = .session error

namespace Generation

variable {g : Generation} {e : GenerationError}

theorem isOfRun_of_choose {logits : List Float32} (h : (g.choose logits).1 = .error e)
    : e.IsOfRun := by
  unfold choose at h
  generalize g.sampler.select logits g.session.tokens g.config = choice at h
  dsimp only at h
  split at h
  . contradiction
  . split at h
    . cases h
      exact .inl ⟨_, rfl⟩
    . contradiction

theorem isOfRun_of_next {handle : StopHandle} (h : (g.next handle).1 = some (.error e))
    : e.IsOfRun := by
  unfold next at h
  split at h
  . contradiction
  . contradiction
  . contradiction
  . exact isOfRun_of_choose (Option.some.inj h)
  . dsimp only at h
    split at h
    . exact isOfRun_of_choose (Option.some.inj h)
    . split at h
      . contradiction
      . cases h
        exact .inr ⟨_, rfl⟩

end Generation

/-! ## Calls -/

inductive StreamEnd
  | output
  | drop
  | leak
  deriving DecidableEq, Repr

def TokenStream.letGo (s : TokenStream) : StreamEnd → Controller
  | .output => s.intoOutput.2
  | .drop => s.close.controller
  | .leak => s.controller

inductive ControllerCall
  | loadModel (backend : Backend) (path : String) (threadCount : Option Nat) (validate : Bool)
  | loadTokenizer (storage : Storage) (path : String)
  | setTokenizer (codec : Codec)
  | unloadModel
  | unloadTokenizer
  | stop
  | reset
  | generate (prompt : String) (config : SamplingConfig) (freshSeed : UInt64)
    (stopsAt : List StreamEvent → Bool)
  | stream (prompt : String) (config : SamplingConfig) (freshSeed : UInt64)
    (calls : List StreamCall) (ending : StreamEnd)

namespace Controller

def perform (c : Controller) : ControllerCall → Controller
  | .loadModel backend path threadCount validate =>
    (c.loadModel backend path threadCount validate).2
  | .loadTokenizer storage path => (c.loadTokenizer storage path).2
  | .setTokenizer codec => c.setTokenizer codec
  | .unloadModel => c.unloadModel
  | .unloadTokenizer => c.unloadTokenizer
  | .stop => c.stop
  | .reset => c.reset
  | .generate prompt config freshSeed stopsAt =>
    (c.generateWith prompt config freshSeed stopsAt).2.2
  | .stream prompt config freshSeed calls ending =>
    match c.stream prompt config freshSeed with
    | .error (_, c) => c
    | .ok s => (s.performAll calls).2.letGo ending

def performAll (c : Controller) (calls : List ControllerCall) : Controller := calls.foldl perform c

end Controller

def ControllerCall.Leaks (call : ControllerCall) (c : Controller) : Prop :=
  ∃ prompt config freshSeed calls s, call = .stream prompt config freshSeed calls .leak
    ∧ c.stream prompt config freshSeed = .ok s
    ∧ (s.performAll calls).2.generation.isRunning = true

/-! ## What the status tells -/

namespace Controller

def IsDone (c : Controller) : Prop :=
  c.status = c.restStatus
    ∨ c.session.isSome = true ∧ c.codec.isSome = true ∧ c.status = .stopped

def TellsLoaded (c : Controller) : Prop :=
  c.IsDone
    ∨ c.session.isSome = false ∧ c.status = .unloaded
    ∨ c.session.isSome = true ∧ c.codec.isSome = true ∧ c.status = .generating

inductive Becomes (c : Controller) (call : ControllerCall) (c' : Controller) : Prop
  | same (hsession : c'.session.isSome = c.session.isSome)
    (hcodec : c'.codec.isSome = c.codec.isSome) (hstatus : c'.status = c.status)
  | done (h : c'.IsDone)
  | unloaded (hsession : c'.session = none) (hstatus : c'.status = .unloaded)
  | stillUnloaded (hsession : c'.session = c.session) (hbefore : c.status = .unloaded)
    (hstatus : c'.status = .unloaded)
  | leaked (hsession : c'.session.isSome = true) (hcodec : c'.codec.isSome = true)
    (hstatus : c'.status = .generating) (hleaks : call.Leaks c)

variable {c : Controller} {codec : Codec} {g : Generation}

theorem restStatus_ne_unloaded (c : Controller) : c.restStatus ≠ .unloaded := by
  unfold restStatus
  cases c.session.isSome <;> cases c.codec.isSome <;> simp [ControllerStatus.ofLoaded]

theorem restStatus_ne_generating (c : Controller) : c.restStatus ≠ .generating := by
  unfold restStatus
  cases c.session.isSome <;> cases c.codec.isSome <;> simp [ControllerStatus.ofLoaded]

theorem IsDone.status_ne_unloaded (h : c.IsDone) : c.status ≠ .unloaded := by
  rcases h with hrest | ⟨_, _, hstopped⟩
  . rw [hrest]
    exact c.restStatus_ne_unloaded
  . simp [hstopped]

theorem IsDone.status_ne_generating (h : c.IsDone) : c.status ≠ .generating := by
  rcases h with hrest | ⟨_, _, hstopped⟩
  . rw [hrest]
    exact c.restStatus_ne_generating
  . simp [hstopped]

theorem tellsLoaded_ofConfig (config : ControllerConfig) : (ofConfig config).TellsLoaded :=
  .inl (.inl rfl)

theorem TellsLoaded.session_of_unloaded (h : c.TellsLoaded) (hstatus : c.status = .unloaded)
    : c.session.isSome = false := by
  rcases h with hdone | ⟨hsession, _⟩ | ⟨_, _, hgenerating⟩
  . exact absurd hstatus hdone.status_ne_unloaded
  . exact hsession
  . simp [hstatus] at hgenerating

theorem TellsLoaded.becomes {call : ControllerCall} {c' : Controller} (h : c.TellsLoaded)
    (hcall : c.Becomes call c') : c'.TellsLoaded := by
  cases hcall with
  | same hsession hcodec hstatus =>
    unfold TellsLoaded IsDone restStatus at h ⊢
    rw [hsession, hcodec, hstatus]
    exact h
  | done hdone => exact .inl hdone
  | unloaded hsession hstatus => exact .inr (.inl ⟨by simp [hsession], hstatus⟩)
  | stillUnloaded hsession hbefore hstatus =>
    have hnone := h.session_of_unloaded hbefore
    rw [← hsession] at hnone
    exact .inr (.inl ⟨hnone, hstatus⟩)
  | leaked hsession hcodec hstatus _ => exact .inr (.inr ⟨hsession, hcodec, hstatus⟩)

theorem Becomes.generating {call : ControllerCall} {c' : Controller} (h : c.Becomes call c')
    (hstatus : c'.status = .generating) : c.status = .generating ∨ call.Leaks c := by
  cases h with
  | same _ _ hsame => exact .inl (hsame.symm.trans hstatus)
  | done hdone => exact absurd hstatus hdone.status_ne_generating
  | unloaded _ hunloaded => simp [hstatus] at hunloaded
  | stillUnloaded _ _ hunloaded => simp [hstatus] at hunloaded
  | leaked _ _ _ hleaks => exact .inr hleaks

/-! ## Streams -/

theorem isDone_follow (hcodec : c.codec = some codec) (hended : g.isRunning = false)
    : (c.follow g).IsDone := by
  cases hphase : g.phase with
  | scored logits => simp [Generation.isRunning, hphase] at hended
  | pending token => simp [Generation.isRunning, hphase] at hended
  | finished reason =>
    rw [follow_of_finished hcodec hphase]
    by_cases hreason : reason = .cancelled
    . exact .inr ⟨rfl, by simp [hcodec], if_pos hreason⟩
    . exact .inl (by simp [restStatus, ControllerStatus.ofLoaded, hreason, hcodec])
  | failed =>
    rw [follow_of_failed hcodec hphase]
    exact .inl (by simp [restStatus, ControllerStatus.ofLoaded, hcodec])

end Controller

namespace TokenStream

variable {s : TokenStream} {c : Controller} {codec : Codec} {config : SamplingConfig}
variable {prompt : List TokenId} {answers : List StreamAnswer}

theorem IsAfter.isDone (h : s.IsAfter c codec config prompt answers)
    (hcodec : c.codec = some codec) (hended : s.generation.isRunning = false)
    : s.controller.IsDone := by
  rw [h.controller_eq]
  exact Controller.isDone_follow hcodec hended

theorem letGo_of_ne_leak {ending : StreamEnd} (hending : ending ≠ .leak)
    : s.letGo ending = s.close.controller := by
  cases ending with
  | output => rfl
  | drop => rfl
  | leak => contradiction

theorem drain_keeps {P : TokenStream → Prop} (hnext : ∀ s, P s → P s.next.2)
    (hstop : ∀ s, P s → P s.stop) (h : P s) (stopsAt : List StreamEvent → Bool) (limit : Nat)
    (seen : List StreamEvent)
    : let drained := s.drain stopsAt limit seen
      P drained.2.2
        ∧ ∀ e, drained.2.1 = some e →
          ∃ s', P s' ∧ s'.next = (some (.error e), drained.2.2) := by
  induction limit generalizing s seen with
  | zero => exact ⟨h, by simp [TokenStream.drain]⟩
  | succ limit ih =>
    have hafter := hnext s h
    unfold TokenStream.drain
    rcases hstep : s.next with ⟨_ | (e | event), after⟩
    . rw [hstep] at hafter
      exact ⟨hafter, by simp⟩
    . rw [hstep] at hafter
      refine ⟨hafter, ?_⟩
      rintro _ ⟨⟩
      exact ⟨s, h, hstep⟩
    . rw [hstep] at hafter
      dsimp only at hafter ⊢
      by_cases hstops : stopsAt (event :: seen) = true
      . rw [if_pos hstops]
        exact ih (hstop after hafter) _
      . rw [if_neg hstops]
        exact ih hafter _

theorem IsAfter.ended_of_error (h : s.IsAfter c codec config prompt answers) {e : GenerationError}
    {s' : TokenStream} (herror : s.next = (some (.error e), s'))
    : s'.generation.isRunning = false ∧ e.IsOfRun := by
  have hnext := h.next
  have hrun : s.next.1 = some (.error e) → e.IsOfRun := Generation.isOfRun_of_next
  rw [herror] at hnext hrun
  refine ⟨?_, hrun rfl⟩
  rw [← Bool.not_eq_true]
  intro hrunning
  rcases hnext.isEvent hrunning _ (List.mem_append_right _ (List.mem_singleton.mpr rfl)) with
    ⟨event, hevent⟩
  simp at hevent

theorem IsAfter.drain (h : s.IsAfter c codec config prompt answers)
    (stopsAt : List StreamEvent → Bool) (limit : Nat) (seen : List StreamEvent)
    : ∃ answers', (s.drain stopsAt limit seen).2.2.IsAfter c codec config prompt answers'
        ∧ ∀ e, (s.drain stopsAt limit seen).2.1 = some e →
          (s.drain stopsAt limit seen).2.2.generation.isRunning = false ∧ e.IsOfRun := by
  have hnext (s : TokenStream) (h : ∃ answers, s.IsAfter c codec config prompt answers)
      : ∃ answers, s.next.2.IsAfter c codec config prompt answers := by
    rcases h with ⟨answers, h⟩
    exact ⟨_, h.next⟩
  have hstop (s : TokenStream) (h : ∃ answers, s.IsAfter c codec config prompt answers)
      : ∃ answers, s.stop.IsAfter c codec config prompt answers := by
    rcases h with ⟨answers, h⟩
    exact ⟨answers, h.stop⟩
  rcases drain_keeps hnext hstop ⟨answers, h⟩ stopsAt limit seen with ⟨⟨answers', hafter⟩, herror⟩
  refine ⟨answers', hafter, ?_⟩
  intro e he
  rcases herror e he with ⟨s', ⟨earlier, hearlier⟩, hlast⟩
  exact hearlier.ended_of_error hlast

end TokenStream

namespace Controller

open TokenStream

variable {c : Controller} {prompt : String} {config : SamplingConfig} {freshSeed : UInt64}
variable {s : TokenStream} {e : GenerationError} {stopsAt : List StreamEvent → Bool}

theorem isAfter_of_stream (h : c.stream prompt config freshSeed = .ok s)
    : ∃ codec ids, c.codec = some codec ∧ s.IsAfter c codec config ids [] := by
  rcases exists_start_of_stream h with ⟨_, codec, ids, _, hcodec, _, hstart⟩
  exact ⟨codec, ids, hcodec, isAfter_start hstart⟩

theorem start_error {session : Session} {codec : Codec} {ids : List TokenId} {sampler : Sampler}
    {c' : Controller} (hcodec : c.codec = some codec)
    (h : start c session codec ids config sampler = .error (e, c')) : c'.IsDone ∧ e.IsOfRun := by
  unfold start Generation.start at h
  generalize session.prefill ids false = outcome at h
  dsimp only at h
  cases hresult : outcome.result with
  | ok logits => simp [hresult] at h
  | error error =>
    rw [hresult] at h
    cases hcancelled : error.isCancelled with
    | true => simp [hcancelled] at h
    | false =>
      simp only [hcancelled, Bool.false_eq_true, if_false, Except.error.injEq, Prod.mk.injEq] at h
      rcases h with ⟨rfl, rfl⟩
      exact ⟨isDone_follow (show _ = some codec from hcodec) rfl, .inr ⟨error, rfl⟩⟩

theorem stream_of_checkReady_error (hconfig : config.validate = .ok ())
    (h : c.checkReady = .error e) : c.stream prompt config freshSeed = .error (e, c) := by
  unfold stream stream.prepare
  rw [hconfig, h]
  rfl

theorem stream_cases (c : Controller) (prompt : String) (config : SamplingConfig)
    (freshSeed : UInt64)
    : (∃ e, c.stream prompt config freshSeed = .error (e, c)
          ∧ (config.validate = .ok () → ∀ loaded, c.checkReady = .ok loaded → e.IsOfRun))
        ∨ ∃ session codec ids, c.checkReady = .ok (session, codec)
          ∧ c.stream prompt config freshSeed
              =
            TokenStream.start c session codec ids config
              (.ofSeed (config.seed.resolve freshSeed)) := by
  unfold stream stream.prepare
  cases config.validate with
  | error invalid => exact .inl ⟨_, rfl, by simp⟩
  | ok _ =>
    cases hready : c.checkReady with
    | error refused => exact .inl ⟨_, rfl, by simp⟩
    | ok loaded =>
      rcases loaded with ⟨session, codec⟩
      cases hencode : codec.encode prompt with
      | error error =>
        simp only [hencode, bind, Except.bind, mapError_ok, mapError_error]
        exact .inl ⟨_, rfl, fun _ _ _ => .inl ⟨error, rfl⟩⟩
      | ok ids =>
        simp only [hencode, bind, Except.bind, pure, Except.pure, mapError_ok]
        exact .inr ⟨session, codec, ids, rfl, rfl⟩

theorem stream_error {c' : Controller} (h : c.stream prompt config freshSeed = .error (e, c'))
    : (c' = c ∨ c'.IsDone)
        ∧ (config.validate = .ok () → ∀ loaded, c.checkReady = .ok loaded → e.IsOfRun) := by
  rcases stream_cases c prompt config freshSeed with
    ⟨refused, hstream, hrun⟩ | ⟨session, codec, ids, hready, hstream⟩
  . rw [hstream] at h
    cases h
    exact ⟨.inl rfl, hrun⟩
  . rw [hstream] at h
    have hfailed := start_error (codec_of_checkReady hready) h
    exact ⟨.inr hfailed.1, fun _ _ _ => hfailed.2⟩

theorem generateWith_cases (c : Controller) (prompt : String) (config : SamplingConfig)
    (freshSeed : UInt64) (stopsAt : List StreamEvent → Bool)
    : let run := c.generateWith prompt config freshSeed stopsAt
      (run.2.2 = c ∨ run.2.2.IsDone)
        ∧ (config.validate = .ok () → ∀ loaded, c.checkReady = .ok loaded →
          ∀ e, run.2.1 = .error e → e.IsOfRun) := by
  intro run
  unfold run generateWith
  rcases hstream : c.stream prompt config freshSeed with ⟨e, c'⟩ | s
  . rcases stream_error hstream with ⟨hcontroller, hrun⟩
    refine ⟨hcontroller, ?_⟩
    rintro hconfig loaded hready _ ⟨⟩
    exact hrun hconfig loaded hready
  . rcases isAfter_of_stream hstream with ⟨codec, ids, hcodec, hs⟩
    rcases hs.drain stopsAt (s.generation.budget + 1) [] with ⟨answers, hdrained, herror⟩
    dsimp only
    generalize s.drain stopsAt (s.generation.budget + 1) [] = drained at hdrained herror
    rcases drained with ⟨events, _ | e, s'⟩
    . exact ⟨.inr (hdrained.close.isDone hcodec s'.isRunning_close), by simp⟩
    . rcases herror e rfl with ⟨hended, hrun⟩
      refine ⟨.inr (hdrained.isDone hcodec hended), ?_⟩
      rintro _ _ _ _ ⟨⟩
      exact hrun

/-! ## Any calls -/

theorem becomes_stream (c : Controller) (prompt : String) (config : SamplingConfig)
    (freshSeed : UInt64) (calls : List StreamCall) (ending : StreamEnd)
    : c.Becomes (.stream prompt config freshSeed calls ending)
        (c.perform (.stream prompt config freshSeed calls ending)) := by
  simp only [Controller.perform]
  rcases hstream : c.stream prompt config freshSeed with ⟨e, c'⟩ | s
  . rcases (stream_error hstream).1 with rfl | hdone
    . exact .same rfl rfl rfl
    . exact .done hdone
  . rcases isAfter_of_stream hstream with ⟨codec, ids, hcodec, hs⟩
    have hcalled := hs.performAll calls
    by_cases hleak : ending = .leak
    . subst hleak
      by_cases hrunning : (s.performAll calls).2.generation.isRunning = true
      . refine .leaked ?_ ?_ ?_ ⟨prompt, config, freshSeed, calls, s, rfl, hstream, hrunning⟩
        all_goals
          dsimp only [letGo]
          rw [hcalled.controller_eq, follow_of_running c hrunning]
        . rfl
        . simp [hcodec]
      . rw [Bool.not_eq_true] at hrunning
        exact .done (hcalled.isDone hcodec hrunning)
    . dsimp only
      rw [letGo_of_ne_leak hleak]
      exact .done (hcalled.close.isDone hcodec (isRunning_close _))

theorem becomes_perform (c : Controller) (call : ControllerCall)
    : c.Becomes call (c.perform call) := by
  cases call with
  | loadModel backend path threadCount validate =>
    simp only [Controller.perform, loadModel]
    split
    . exact .same rfl rfl rfl
    . exact .done (.inl rfl)
  | loadTokenizer storage path =>
    simp only [Controller.perform, loadTokenizer]
    split
    . exact .same rfl rfl rfl
    . exact .done (.inl rfl)
  | setTokenizer codec => exact .done (.inl rfl)
  | unloadModel => exact .unloaded rfl rfl
  | unloadTokenizer =>
    simp only [Controller.perform, unloadTokenizer]
    split
    . next hunloaded => exact .stillUnloaded rfl hunloaded hunloaded
    . exact .done (.inl rfl)
  | stop => exact .same rfl rfl rfl
  | reset =>
    by_cases hstopped : c.status = .stopped
    . have hrest : c.reset.restStatus = c.restStatus := by
        simp [restStatus, Controller.reset]
      exact .done (.inl ((if_pos hstopped).trans hrest.symm))
    . exact .same Option.isSome_map rfl (if_neg hstopped)
  | generate prompt config freshSeed stopsAt =>
    simp only [Controller.perform]
    rcases (generateWith_cases c prompt config freshSeed stopsAt).1 with hsame | hdone
    . rw [hsame]
      exact .same rfl rfl rfl
    . exact .done hdone
  | stream prompt config freshSeed calls ending => exact becomes_stream c _ _ _ _ _

theorem TellsLoaded.performAll (h : c.TellsLoaded) (calls : List ControllerCall)
    : (c.performAll calls).TellsLoaded := by
  induction calls generalizing c with
  | nil => exact h
  | cons call calls ih => exact ih (h.becomes (c.becomes_perform call))

theorem generating_of_performAll {calls : List ControllerCall}
    (h : (c.performAll calls).status = .generating)
    : c.status = .generating
        ∨ ∃ earlier call later, calls = earlier ++ call :: later
          ∧ call.Leaks (c.performAll earlier) := by
  induction calls generalizing c with
  | nil => exact .inl h
  | cons call calls ih =>
    rcases ih h with hstatus | ⟨earlier, leaking, later, hsplit, hleaks⟩
    . rcases (c.becomes_perform call).generating hstatus with hstart | hleaks
      . exact .inl hstart
      . exact .inr ⟨[], call, calls, rfl, hleaks⟩
    . refine .inr ⟨call :: earlier, leaking, later, ?_, hleaks⟩
      rw [hsplit]
      rfl

/-! ## Generations -/

theorem generate_of_checkReady_error (hconfig : config.validate = .ok ())
    (h : c.checkReady = .error e) : (c.generate prompt config freshSeed).1 = .error e := by
  unfold generate generateWith
  rw [stream_of_checkReady_error hconfig h]

theorem isOfRun_of_generate {loaded : Session × Codec} (hconfig : config.validate = .ok ())
    (hready : c.checkReady = .ok loaded) (h : (c.generate prompt config freshSeed).1 = .error e)
    : e.IsOfRun :=
  (generateWith_cases c prompt config freshSeed fun _ => false).2 hconfig loaded hready e h

theorem generate_eq_error_iff (hconfig : config.validate = .ok ()) (he : ¬e.IsOfRun)
    : (c.generate prompt config freshSeed).1 = .error e ↔ c.checkReady = .error e := by
  constructor
  . intro h
    cases hready : c.checkReady with
    | error refused =>
      rw [generate_of_checkReady_error hconfig hready] at h
      cases h
      rfl
    | ok loaded => exact absurd (isOfRun_of_generate hconfig hready h) he
  . exact generate_of_checkReady_error hconfig

theorem checkReady_eq_modelNotLoaded_iff (c : Controller)
    : c.checkReady = .error .modelNotLoaded ↔ c.session = none := by
  unfold checkReady
  cases c.session with
  | none => simp
  | some session =>
    cases c.codec with
    | none => simp
    | some codec => cases c.status.canGenerate <;> simp

theorem checkReady_eq_tokenizerNotLoaded_iff (c : Controller)
    : c.checkReady = .error .tokenizerNotLoaded ↔ c.session.isSome ∧ c.codec = none := by
  unfold checkReady
  cases c.session with
  | none => simp
  | some session =>
    cases c.codec with
    | none => simp
    | some codec => cases c.status.canGenerate <;> simp

theorem TellsLoaded.status_of_both (h : c.TellsLoaded) (hsession : c.session.isSome = true)
    (hcodec : c.codec.isSome = true)
    : c.status = .ready ∨ c.status = .stopped ∨ c.status = .generating := by
  rcases h with (hrest | ⟨_, _, hstopped⟩) | ⟨hnone, _⟩ | ⟨_, _, hgenerating⟩
  . left
    rw [hrest, restStatus, hsession, hcodec]
    rfl
  . exact .inr (.inl hstopped)
  . simp [hsession] at hnone
  . exact .inr (.inr hgenerating)

theorem TellsLoaded.status_of_modelOnly (h : c.TellsLoaded) (hsession : c.session.isSome = true)
    (hcodec : c.codec = none) : c.status = .modelLoaded := by
  rcases h with (hrest | ⟨_, hsome, _⟩) | ⟨hnone, _⟩ | ⟨_, hsome, _⟩
  . rw [hrest, restStatus, hsession, hcodec]
    rfl
  . simp [hcodec] at hsome
  . simp [hsession] at hnone
  . simp [hcodec] at hsome

theorem TellsLoaded.status_of_noModel (h : c.TellsLoaded) (hsession : c.session = none)
    : c.status = .unloaded
        ∨ c.status = if c.codec.isSome then .tokenizerLoaded else .uninitialized := by
  rcases h with (hrest | ⟨hsome, _, _⟩) | ⟨_, hunloaded⟩ | ⟨hsome, _, _⟩
  . right
    rw [hrest, restStatus, hsession]
    cases c.codec <;> rfl
  . simp [hsession] at hsome
  . exact .inl hunloaded
  . simp [hsession] at hsome

theorem TellsLoaded.generating_of_invalidState (h : c.TellsLoaded) {status : ControllerStatus}
    (hcheck : c.checkReady = .error (.invalidState status)) : c.status = .generating := by
  unfold checkReady at hcheck
  split at hcheck
  . simp at hcheck
  . simp at hcheck
  . next session codec hsession hcodec =>
    split at hcheck
    . contradiction
    . next hcannot =>
      rcases h.status_of_both (by simp [hsession]) (by simp [hcodec]) with
        hready | hstopped | hgenerating
      . simp [hready, ControllerStatus.canGenerate] at hcannot
      . simp [hstopped, ControllerStatus.canGenerate] at hcannot
      . exact hgenerating

/--
The status tells what is loaded, and with it whether a generation is let in. Only after a leak may
it tell that a generation is running.
-/
structure StatusIsExact (c : Controller) (hasLeaked : Prop) : Prop where
  both_iff : c.session.isSome ∧ c.codec.isSome ↔
    c.status = .ready ∨ c.status = .stopped ∨ c.status = .generating
  leaked_of_generating : c.status = .generating → hasLeaked
  modelOnly_iff : c.session.isSome ∧ c.codec = none ↔ c.status = .modelLoaded
  status_of_noModel : c.session = none →
    c.status = .unloaded
      ∨ c.status = if c.codec.isSome then .tokenizerLoaded else .uninitialized
  modelNotLoaded_iff : ∀ prompt config freshSeed, config.validate = .ok () →
    ((c.generate prompt config freshSeed).1 = .error .modelNotLoaded ↔ c.session = none)
  tokenizerNotLoaded_iff : ∀ prompt config freshSeed, config.validate = .ok () →
    ((c.generate prompt config freshSeed).1 = .error .tokenizerNotLoaded
      ↔ c.session.isSome ∧ c.codec = none)
  leaked_of_invalidState : ∀ prompt config freshSeed status, config.validate = .ok () →
    (c.generate prompt config freshSeed).1 = .error (.invalidState status) → hasLeaked

theorem TellsLoaded.statusIsExact (h : c.TellsLoaded) {hasLeaked : Prop}
    (hleaked : c.status = .generating → hasLeaked) : c.StatusIsExact hasLeaked := by
  have hnot {e : GenerationError} (hcodec : ∀ error, e ≠ .codec error)
      (hsession : ∀ error, e ≠ .session error) : ¬e.IsOfRun := by
    rintro (⟨error, rfl⟩ | ⟨error, rfl⟩)
    . exact hcodec error rfl
    . exact hsession error rfl
  -- Every status belongs to one row of what can be loaded, so that it tells the row.
  constructor
  . constructor
    . exact fun hboth => h.status_of_both hboth.1 hboth.2
    . intro hstatus
      cases hsession : c.session with
      | none =>
        have := h.status_of_noModel hsession
        grind
      | some session =>
        cases hcodec : c.codec with
        | none =>
          have := h.status_of_modelOnly (by simp [hsession]) hcodec
          simp [this] at hstatus
        | some codec => exact ⟨rfl, rfl⟩
  . exact hleaked
  . constructor
    . exact fun honly => h.status_of_modelOnly honly.1 honly.2
    . intro hstatus
      cases hsession : c.session with
      | none =>
        have := h.status_of_noModel hsession
        grind
      | some session =>
        cases hcodec : c.codec with
        | none => exact ⟨rfl, rfl⟩
        | some codec =>
          have := h.status_of_both (by simp [hsession]) (by simp [hcodec])
          simp [hstatus] at this
  . exact h.status_of_noModel
  . intro prompt config freshSeed hconfig
    rw [generate_eq_error_iff hconfig (hnot (by simp) (by simp))]
    exact c.checkReady_eq_modelNotLoaded_iff
  . intro prompt config freshSeed hconfig
    rw [generate_eq_error_iff hconfig (hnot (by simp) (by simp))]
    exact c.checkReady_eq_tokenizerNotLoaded_iff
  . intro prompt config freshSeed status hconfig herror
    rw [generate_eq_error_iff hconfig (hnot (by simp) (by simp))] at herror
    exact hleaked (h.generating_of_invalidState herror)

theorem statusIsExact_performAll (config : ControllerConfig) (calls : List ControllerCall)
    : ((ofConfig config).performAll calls).StatusIsExact
        (∃ earlier call later, calls = earlier ++ call :: later
          ∧ call.Leaks ((ofConfig config).performAll earlier)) := by
  apply ((tellsLoaded_ofConfig config).performAll calls).statusIsExact
  intro hgenerating
  rcases generating_of_performAll hgenerating with hstart | hleaks
  . contradiction
  . exact hleaks

example
    : let model := BigramModel.ofShape ⟨1, 1, 1, 1⟩
      let c := (ofConfig {}).performAll
        [.loadModel (fun _ options => .ok (model.compile options.threadCount)) "model" none false,
          .setTokenizer (PieceTable.ofPieces [(0, [104])]).codec,
          .stream "h" .greedy 0 [.next] .leak]
      c.status = .generating := rfl

end Controller

end TextGen
