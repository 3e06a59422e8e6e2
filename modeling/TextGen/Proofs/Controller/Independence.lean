import TextGen.Proofs.Controller.Status
import TextGen.Proofs.Session.Independence

/-!
This module contains that a generation does not depend on what came before it: two controllers with
the same model and the same tokenizer generate the same, whatever calls they have had.
-/

namespace TextGen

/-! ## Generations that differ in their sessions -/

theorem Sampler.select_congr {sampler sampler' : Sampler} {config : SamplingConfig}
    (h : config.doSample = false ∨ sampler' = sampler) (logits : List Float32)
    (history : List TokenId)
    : (sampler'.select logits history config).1 = (sampler.select logits history config).1
        ∧ (config.doSample = false
          ∨ (sampler'.select logits history config).2
              = (sampler.select logits history config).2) := by
  rcases h with hgreedy | rfl
  . unfold select
    rw [if_neg (by simp [hgreedy]), if_neg (by simp [hgreedy])]
    exact ⟨rfl, .inl hgreedy⟩
  . exact ⟨rfl, .inr rfl⟩

namespace Generation

variable {g g' : Generation}

theorem leadsTo_choose (g : Generation) (logits : List Float32)
    : g.session.LeadsTo (g.choose logits).2.session := by
  unfold choose
  dsimp only
  split
  . exact Session.leadsTo_reset _
  . split
    . exact Session.leadsTo_reset _
    . exact .refl _

theorem leadsTo_next (g : Generation) (handle : StopHandle)
    : g.session.LeadsTo (g.next handle).2.1.session := by
  unfold next
  split
  . exact .refl _
  . exact .refl _
  . exact Session.leadsTo_reset _
  . exact g.leadsTo_choose _
  . next token _ _ =>
    have hstep := Session.leadsTo_decodeStep g.session token handle.cancelled
    dsimp only
    split
    . apply hstep.trans
      exact leadsTo_choose { g with session := _, feedbacks := _ } _
    . split
      . exact hstep.trans (Session.leadsTo_reset _)
      . exact hstep.trans (Session.leadsTo_reset _)

structure Resembles (g g' : Generation) : Prop where
  eq_with : ∃ session sampler, g' = { g with session, sampler }
  session : g.session.Resembles g'.session
  sampler : g.config.doSample = false ∨ g'.sampler = g.sampler

theorem Resembles.finish (h : g.Resembles g') (reason : FinishReason)
    : (g.finish reason).Resembles (g'.finish reason) := by
  refine ⟨?_, h.session.reset, h.sampler⟩
  rcases h.eq_with with ⟨session, sampler, rfl⟩
  exact ⟨_, _, rfl⟩

theorem Resembles.abandon (h : g.Resembles g') : g.abandon.Resembles g'.abandon := by
  refine ⟨?_, h.session.reset, h.sampler⟩
  rcases h.eq_with with ⟨session, sampler, rfl⟩
  exact ⟨_, _, rfl⟩

theorem Resembles.choose (h : g.Resembles g') (logits : List Float32)
    : (g'.choose logits).1 = (g.choose logits).1
        ∧ (g.choose logits).2.Resembles (g'.choose logits).2 := by
  have htokens := h.session.tokens_eq
  have hsession := h.session
  have hselect := Sampler.select_congr h.sampler logits g.session.tokens
  rcases h.eq_with with ⟨session, sampler, rfl⟩
  unfold choose
  dsimp only at htokens hsession hselect ⊢
  rw [htokens]
  generalize sampler.select logits g.session.tokens g.config = choice' at hselect ⊢
  generalize g.sampler.select logits g.session.tokens g.config = choice at hselect ⊢
  rcases choice' with ⟨token', sampler'⟩
  rcases choice with ⟨token, sampler⟩
  rcases hselect with ⟨rfl, hsampler⟩
  have hchosen (tokens : List TokenId) (streamed : IncrementalText)
      : ({ g with sampler, tokens, streamed } : Generation).Resembles
          { g with session, sampler := sampler', tokens, streamed } :=
    ⟨⟨_, _, rfl⟩, hsession, hsampler⟩
  split
  . exact ⟨rfl, (hchosen _ _).finish .stop⟩
  . rcases g.streamed.put g.codec token' with ⟨_ | chunk, streamed⟩
    . exact ⟨rfl, (hchosen _ _).abandon⟩
    . exact ⟨rfl, ⟨_, _, rfl⟩, hsession, hsampler⟩

theorem Resembles.next (h : g.Resembles g') (handle : StopHandle)
    : (g'.next handle).1 = (g.next handle).1
        ∧ (g'.next handle).2.2 = (g.next handle).2.2
        ∧ (g.next handle).2.1.Resembles (g'.next handle).2.1 := by
  have hsession := h.session
  have hsampler := h.sampler
  rcases h.eq_with with ⟨session, sampler, rfl⟩
  have hreason : ({ g with session, sampler } : Generation).stopReason? handle
      = g.stopReason? handle := rfl
  unfold Generation.next
  rw [hreason]
  dsimp only at hsession hsampler ⊢
  split
  . exact ⟨rfl, rfl, h⟩
  . exact ⟨rfl, rfl, h⟩
  . exact ⟨rfl, rfl, h.finish _⟩
  . have hchoose := h.choose
    exact ⟨congrArg some (hchoose _).1, rfl, (hchoose _).2⟩
  . next token _ _ =>
    have hstep := hsession.decodeStep token handle.cancelled
    generalize session.decodeStep token handle.cancelled = outcome' at hstep ⊢
    generalize g.session.decodeStep token handle.cancelled = outcome at hstep ⊢
    have hfed (feedbacks : Nat)
        : ({ g with session := outcome.session, feedbacks } : Generation).Resembles
            { g with session := outcome'.session, sampler, feedbacks } :=
      ⟨⟨_, _, rfl⟩, hstep.session, hsampler⟩
    rw [hstep.result_eq, hstep.cancelled_eq]
    cases outcome.result with
    | ok logits =>
      have hchoose := (hfed (g.feedbacks + 1)).choose logits
      exact ⟨congrArg some hchoose.1, rfl, hchoose.2⟩
    | error e =>
      dsimp only
      cases e.finishReason? with
      | some reason => exact ⟨rfl, rfl, (hfed g.feedbacks).finish reason⟩
      | none => exact ⟨rfl, rfl, (hfed g.feedbacks).abandon⟩

theorem start_of_sharesModel {session session' : Session} {config : SamplingConfig}
    {sampler sampler' : Sampler} (h : session.SharesModel session')
    (hsampler : config.doSample = false ∨ sampler' = sampler) (codec : Codec)
    (prompt : List TokenId) (cancelled : Bool)
    : let run := start session codec config sampler prompt cancelled
      let run' := start session' codec config sampler' prompt cancelled
      run'.1 = run.1 ∧ run'.2.2 = run.2.2 ∧ run.2.1.Resembles run'.2.1 := by
  rcases h.prefill prompt cancelled with ⟨hresult, hcancelled, hshares, hresembles⟩
  unfold start
  generalize session'.prefill prompt cancelled = outcome' at hresult hcancelled hshares hresembles ⊢
  generalize session.prefill prompt cancelled = outcome at hresult hcancelled hshares hresembles ⊢
  dsimp only
  rw [hresult, hcancelled]
  cases houtcome : outcome.result with
  | ok logits => exact ⟨rfl, rfl, ⟨_, _, rfl⟩, hresembles logits houtcome, hsampler⟩
  | error e =>
    dsimp only
    split
    . exact ⟨rfl, rfl, ⟨_, _, rfl⟩, hshares.resembles_reset, hsampler⟩
    . exact ⟨rfl, rfl, ⟨_, _, rfl⟩, hshares.resembles_reset, hsampler⟩

end Generation

/-! ## Streams -/

namespace TokenStream

variable {s s' : TokenStream}

structure Resembles (s s' : TokenStream) : Prop where
  generation : s.generation.Resembles s'.generation
  stopHandle_eq : s'.controller.stopHandle = s.controller.stopHandle

theorem Resembles.next (h : s.Resembles s')
    : s'.next.1 = s.next.1 ∧ s.next.2.Resembles s'.next.2 := by
  rcases h.generation.next s.controller.stopHandle with ⟨hitem, hhandle, hgeneration⟩
  unfold TokenStream.next
  rw [h.stopHandle_eq]
  refine ⟨hitem, hgeneration, ?_⟩
  simp [advance, hhandle]

theorem Resembles.stop (h : s.Resembles s') : s.stop.Resembles s'.stop := ⟨h.generation, rfl⟩

theorem Resembles.drain (h : s.Resembles s') (stopsAt : List StreamEvent → Bool) (limit : Nat)
    (seen : List StreamEvent)
    : let run := s.drain stopsAt limit seen
      let run' := s'.drain stopsAt limit seen
      run'.1 = run.1 ∧ run'.2.1 = run.2.1 ∧ run.2.2.Resembles run'.2.2 := by
  induction limit generalizing s s' seen with
  | zero => exact ⟨rfl, rfl, h⟩
  | succ limit ih =>
    have hnext := h.next
    unfold TokenStream.drain
    generalize s'.next = step' at hnext ⊢
    generalize s.next = step at hnext ⊢
    rcases step' with ⟨item', after'⟩
    rcases step with ⟨item, after⟩
    rcases hnext with ⟨rfl, hafter⟩
    rcases item' with _ | (e | event)
    . exact ⟨rfl, rfl, hafter⟩
    . exact ⟨rfl, rfl, hafter⟩
    . dsimp only at hafter ⊢
      split
      . exact ih hafter.stop _
      . exact ih hafter _

theorem Resembles.close (h : s.Resembles s') : s.close.Resembles s'.close := by
  have hrunning : s'.generation.isRunning = s.generation.isRunning := by
    rcases h.generation.eq_with with ⟨session, sampler, heq⟩
    rw [heq]
    rfl
  unfold TokenStream.close
  rw [hrunning]
  split
  . exact ⟨h.generation.finish .cancelled, by simp [advance, h.stopHandle_eq]⟩
  . exact h

theorem Resembles.intoOutput_eq (h : s.Resembles s') : s'.intoOutput.1 = s.intoOutput.1 := by
  rcases h.close.generation.eq_with with ⟨session, sampler, heq⟩
  unfold intoOutput
  dsimp only
  rw [heq]
  rfl

theorem start_of_sharesModel {session session' : Session} {config : SamplingConfig}
    {sampler sampler' : Sampler} (h : session.SharesModel session')
    (hsampler : config.doSample = false ∨ sampler' = sampler) (c c' : Controller) (codec : Codec)
    (prompt : List TokenId)
    : (∃ e after after', start c session codec prompt config sampler = .error (e, after)
          ∧ start c' session' codec prompt config sampler' = .error (e, after'))
        ∨ ∃ s s', start c session codec prompt config sampler = .ok s
          ∧ start c' session' codec prompt config sampler' = .ok s'
          ∧ s.Resembles s' := by
  have hstart := Generation.start_of_sharesModel h hsampler codec prompt false
  unfold start
  generalize Generation.start session' codec config sampler' prompt false = run' at hstart ⊢
  generalize Generation.start session codec config sampler prompt false = run at hstart ⊢
  rcases run' with ⟨result', g', cancelled'⟩
  rcases run with ⟨result, g, cancelled⟩
  rcases hstart with ⟨rfl, rfl, hg⟩
  cases result' with
  | error e => exact .inl ⟨e, _, _, rfl, rfl⟩
  | ok _ => exact .inr ⟨_, _, rfl, rfl, hg, by simp⟩

end TokenStream

/-! ## The session of a controller -/

namespace TokenStream

variable {s : TokenStream} {session : Session}

structure IsOn (s : TokenStream) (session : Session) : Prop where
  session_eq : s.controller.session = some s.generation.session
  leadsTo : session.LeadsTo s.generation.session

theorem IsOn.stop (h : s.IsOn session) : s.stop.IsOn session := ⟨h.session_eq, h.leadsTo⟩

theorem IsOn.next (h : s.IsOn session) : s.next.2.IsOn session :=
  ⟨Controller.session_follow _ _, h.leadsTo.trans (Generation.leadsTo_next _ _)⟩

theorem IsOn.performAll (h : s.IsOn session) (calls : List StreamCall)
    : (s.performAll calls).2.IsOn session := by
  induction calls generalizing s with
  | nil => exact h
  | cons call calls ih =>
    cases call with
    | next => exact ih h.next
    | stop => exact ih h.stop

theorem IsOn.drain (h : s.IsOn session) (stopsAt : List StreamEvent → Bool) (limit : Nat)
    (seen : List StreamEvent) : (s.drain stopsAt limit seen).2.2.IsOn session := by
  have hnext (s : TokenStream) (h : s.IsOn session) : s.next.2.IsOn session := h.next
  have hstop (s : TokenStream) (h : s.IsOn session) : s.stop.IsOn session := h.stop
  exact (drain_keeps hnext hstop h stopsAt limit seen).1

theorem IsOn.close (h : s.IsOn session) : s.close.IsOn session := by
  unfold TokenStream.close
  split
  . exact ⟨Controller.session_follow _ _, h.leadsTo.trans (Session.leadsTo_reset _)⟩
  . exact h

theorem IsOn.session_letGo (h : s.IsOn session) (ending : StreamEnd)
    : ∃ session', (s.letGo ending).session = some session' ∧ session.LeadsTo session' := by
  cases ending with
  | output => exact ⟨_, h.close.session_eq, h.close.leadsTo⟩
  | drop => exact ⟨_, h.close.session_eq, h.close.leadsTo⟩
  | leak => exact ⟨_, h.session_eq, h.leadsTo⟩

end TokenStream

namespace Generation

theorem leadsTo_start (session : Session) (codec : Codec) (config : SamplingConfig)
    (sampler : Sampler) (prompt : List TokenId) (cancelled : Bool)
    : session.LeadsTo (start session codec config sampler prompt cancelled).2.1.session := by
  have hprefill := Session.leadsTo_prefill session prompt cancelled
  unfold start
  dsimp only
  split
  . exact hprefill
  . split
    . exact hprefill.trans (Session.leadsTo_reset _)
    . exact hprefill.trans (Session.leadsTo_reset _)

end Generation

namespace Controller

open TokenStream

variable {c c' : Controller} {prompt : String} {config : SamplingConfig} {freshSeed : UInt64}
variable {s : TokenStream} {e : GenerationError}

def KeepsSession (c c' : Controller) : Prop :=
  ∀ session', c'.session = some session' → ∃ session, c.session = some session
    ∧ session.LeadsTo session'

theorem keepsSession_of_eq (h : c'.session = c.session) : c.KeepsSession c' := by
  intro session hsession
  exact ⟨session, h ▸ hsession, .refl _⟩

theorem keepsSession_of_leadsTo {session : Session} (hsession : c.session = some session)
    (h : ∃ session', c'.session = some session' ∧ session.LeadsTo session')
    : c.KeepsSession c' := by
  rcases h with ⟨after, hafter, hleads⟩
  intro session' hsession'
  cases hafter.symm.trans hsession'
  exact ⟨session, hsession, hleads⟩

theorem session_of_checkReady {session : Session} {codec : Codec}
    (h : c.checkReady = .ok (session, codec)) : c.session = some session := by
  unfold checkReady at h
  split at h
  . contradiction
  . contradiction
  . next hsession _ =>
    split at h
    . cases h
      exact hsession
    . contradiction

theorem keepsSession_of_start_error {session : Session} {codec : Codec} {ids : List TokenId}
    {sampler : Sampler} (hsession : c.session = some session)
    (h : start c session codec ids config sampler = .error (e, c')) : c.KeepsSession c' := by
  have hleads := Generation.leadsTo_start session codec config sampler ids false
  unfold start at h
  generalize Generation.start session codec config sampler ids false = run at h hleads
  rcases run with ⟨_ | _, g, cancelled⟩
  . cases h
    exact keepsSession_of_leadsTo hsession ⟨_, session_follow _ _, hleads⟩
  . contradiction

theorem isOn_start {session : Session} {codec : Codec} {ids : List TokenId} {sampler : Sampler}
    (h : start c session codec ids config sampler = .ok s) : s.IsOn session := by
  have hleads := Generation.leadsTo_start session codec config sampler ids false
  unfold start at h
  generalize Generation.start session codec config sampler ids false = run at h hleads
  rcases run with ⟨_ | _, g, cancelled⟩
  . contradiction
  . cases h
    exact ⟨session_follow _ _, hleads⟩

theorem stream_session (c : Controller) (prompt : String) (config : SamplingConfig)
    (freshSeed : UInt64)
    : (∀ e c', c.stream prompt config freshSeed = .error (e, c') → c.KeepsSession c')
        ∧ ∀ s, c.stream prompt config freshSeed = .ok s →
          ∃ session, c.session = some session ∧ s.IsOn session := by
  rcases stream_cases c prompt config freshSeed with
    ⟨refused, hstream, _⟩ | ⟨session, codec, ids, hready, hstream⟩
  . rw [hstream]
    constructor
    . rintro _ _ ⟨⟩
      exact keepsSession_of_eq rfl
    . simp
  . rw [hstream]
    have hsession := session_of_checkReady hready
    exact ⟨fun _ _ h => keepsSession_of_start_error hsession h,
      fun _ h => ⟨session, hsession, isOn_start h⟩⟩

theorem keepsSession_generateWith (c : Controller) (prompt : String) (config : SamplingConfig)
    (freshSeed : UInt64) (stopsAt : List StreamEvent → Bool)
    : c.KeepsSession (c.generateWith prompt config freshSeed stopsAt).2.2 := by
  have hstream := stream_session c prompt config freshSeed
  unfold generateWith
  rcases hrun : c.stream prompt config freshSeed with ⟨e, c'⟩ | s
  . exact hstream.1 e c' hrun
  . rcases hstream.2 s hrun with ⟨session, hsession, hs⟩
    have hdrained := hs.drain stopsAt (s.generation.budget + 1) []
    dsimp only
    generalize s.drain stopsAt (s.generation.budget + 1) [] = drained at hdrained ⊢
    rcases drained with ⟨events, _ | e, s'⟩
    . exact keepsSession_of_leadsTo hsession (hdrained.session_letGo .output)
    . exact keepsSession_of_leadsTo hsession (hdrained.session_letGo .leak)

/-! ## Whole sessions -/

def IsWhole (c : Controller) : Prop := ∀ session, c.session = some session → session.IsWhole

theorem IsWhole.of_keepsSession (h : c.IsWhole) (hkeeps : c.KeepsSession c') : c'.IsWhole := by
  intro session' hsession'
  rcases hkeeps session' hsession' with ⟨session, hsession, hleads⟩
  exact (h session hsession).of_leadsTo hleads

theorem isWhole_of_openSession {backend : Backend} {path : String} {config : ControllerConfig}
    {validate : Bool} {session : Session}
    (h : openSession backend path config validate = .ok session)
    : session.IsWhole := by
  rcases exists_of_bind h with ⟨compiled, _, hcompiled⟩
  rcases exists_of_bind hcompiled with ⟨created, hcreate, hopened⟩
  have hwhole := Session.isWhole_ofCompiled compiled config.contextLimit
  rw [← (Session.create_eq_ok_iff.mp (eq_ok_of_mapError hcreate)).2] at hwhole
  cases validate with
  | false =>
    cases hopened
    exact hwhole
  | true =>
    rcases exists_of_bind (eq_ok_of_mapError hopened) with ⟨_, _, htried⟩
    cases htried
    exact hwhole.of_leadsTo ((Session.leadsTo_prefill _ _ _).trans (Session.leadsTo_reset _))

theorem IsWhole.perform (h : c.IsWhole) (call : ControllerCall) : (c.perform call).IsWhole := by
  cases call with
  | loadModel backend path threadCount validate =>
    simp only [Controller.perform, loadModel]
    split
    . exact h
    . next session hopen =>
      rintro _ ⟨⟩
      exact isWhole_of_openSession hopen
  | loadTokenizer storage path =>
    simp only [Controller.perform, loadTokenizer]
    split
    . exact h
    . exact h
  | setTokenizer codec => exact h
  | unloadModel =>
    intro session hsession
    contradiction
  | unloadTokenizer =>
    simp only [Controller.perform, unloadTokenizer]
    split
    . exact h
    . exact h
  | stop => exact h
  | reset =>
    intro session' hsession'
    rcases Option.map_eq_some_iff.mp hsession' with ⟨session, hsession, rfl⟩
    exact (h session hsession).of_leadsTo (Session.leadsTo_reset _)
  | generate prompt config freshSeed stopsAt =>
    exact h.of_keepsSession (keepsSession_generateWith c _ _ _ _)
  | stream prompt config freshSeed calls ending =>
    have hstream := stream_session c prompt config freshSeed
    simp only [Controller.perform]
    rcases hrun : c.stream prompt config freshSeed with ⟨e, c'⟩ | s
    . exact h.of_keepsSession (hstream.1 e c' hrun)
    . rcases hstream.2 s hrun with ⟨session, hsession, hs⟩
      have hend := (hs.performAll calls).session_letGo ending
      exact h.of_keepsSession (keepsSession_of_leadsTo hsession hend)

theorem isWhole_performAll (config : ControllerConfig) (calls : List ControllerCall)
    : ((ofConfig config).performAll calls).IsWhole := by
  suffices h : ∀ c : Controller, c.IsWhole → (c.performAll calls).IsWhole by
    apply h
    intro session hsession
    contradiction
  induction calls with
  | nil => exact fun _ h => h
  | cons call calls ih => exact fun _ h => ih _ (h.perform call)

end Controller

/-! ## Two controllers -/

namespace Controller

variable {c c' : Controller} {session session' : Session} {codec : Codec}
variable {config : SamplingConfig}

theorem generateWith_of_sharesModel (hready : c.checkReady = .ok (session, codec))
    (hready' : c'.checkReady = .ok (session', codec)) (h : session.SharesModel session')
    (hseed : config.doSample = false ∨ ∃ value, config.seed = .fixed value) (prompt : String)
    (freshSeed freshSeed' : UInt64) (stopsAt : List StreamEvent → Bool)
    : let run := c.generateWith prompt config freshSeed stopsAt
      let run' := c'.generateWith prompt config freshSeed' stopsAt
      run'.1 = run.1 ∧ run'.2.1 = run.2.1 := by
  have hsampler : config.doSample = false
      ∨ Sampler.ofSeed (config.seed.resolve freshSeed')
          = Sampler.ofSeed (config.seed.resolve freshSeed) := by
    rcases hseed with hgreedy | ⟨value, hvalue⟩
    . exact .inl hgreedy
    . rw [hvalue]
      exact .inr rfl
  unfold generateWith stream stream.prepare
  rw [hready, hready']
  cases config.validate with
  | error e => exact ⟨rfl, rfl⟩
  | ok _ =>
    cases hencode : codec.encode prompt with
    | error e => simp [hencode, bind, Except.bind]
    | ok ids =>
      simp only [hencode, bind, Except.bind, pure, Except.pure, mapError_ok]
      rcases TokenStream.start_of_sharesModel h hsampler c c' codec ids with
        ⟨e, after, after', hstart, hstart'⟩ | ⟨s, s', hstart, hstart', hs⟩
      . rw [hstart, hstart']
        exact ⟨rfl, rfl⟩
      . rw [hstart, hstart']
        have hbudget : s'.generation.budget = s.generation.budget := by
          rcases hs.generation.eq_with with ⟨session, sampler, heq⟩
          rw [heq]
          rfl
        have hdrain := hs.drain stopsAt (s.generation.budget + 1) []
        dsimp only
        rw [hbudget]
        generalize s'.drain stopsAt (s.generation.budget + 1) [] = drained' at hdrain ⊢
        generalize s.drain stopsAt (s.generation.budget + 1) [] = drained at hdrain ⊢
        rcases drained' with ⟨events', error', s'⟩
        rcases drained with ⟨events, error, s⟩
        rcases hdrain with ⟨rfl, rfl, hs⟩
        cases error' with
        | some e => exact ⟨rfl, rfl⟩
        | none => exact ⟨rfl, congrArg Except.ok hs.intoOutput_eq⟩

structure Offers (c : Controller) (model : BigramModel) (shape : ModelShape) (limit : Option Nat)
    (codec : Codec) : Prop where
  session : ∃ session, c.session = some session
    ∧ session.engine.request.model = model
    ∧ session.shape = shape
    ∧ session.contextLimit = limit
    ∧ session.engine.IsQuiet
  codec_eq : c.codec = some codec
  canGenerate : c.status.canGenerate = true

variable {model : BigramModel} {shape : ModelShape} {limit : Option Nat}

theorem Offers.checkReady (h : c.Offers model shape limit codec)
    (hsession : c.session = some session) : c.checkReady = .ok (session, codec) := by
  simp [Controller.checkReady, hsession, h.codec_eq, h.canGenerate]

theorem Offers.sharesModel (h : c.Offers model shape limit codec)
    (h' : c'.Offers model shape limit codec) (hwhole : c.IsWhole) (hwhole' : c'.IsWhole)
    : ∃ session session', c.checkReady = .ok (session, codec)
        ∧ c'.checkReady = .ok (session', codec)
        ∧ session.SharesModel session' := by
  rcases h.session with ⟨session, hsession, hmodel, hshape, hlimit, hquiet⟩
  rcases h'.session with ⟨session', hsession', hmodel', hshape', hlimit', hquiet'⟩
  refine ⟨session, session', h.checkReady hsession, h'.checkReady hsession', ?_⟩
  constructor
  . exact hmodel'.trans hmodel.symm
  . exact hshape'.trans hshape.symm
  . exact hlimit'.trans hlimit.symm
  . exact hwhole session hsession
  . exact hwhole' session' hsession'
  . exact hquiet
  . exact hquiet'

/--
Two controllers that offer the same generate the same, whatever calls each of them has had. Neither
the tokens of earlier generations nor a cache, a fault or a request to stop is left behind.
-/
theorem generate_eq_of_histories {first second : ControllerConfig}
    {calls calls' : List ControllerCall}
    (h : ((ofConfig first).performAll calls).Offers model shape limit codec)
    (h' : ((ofConfig second).performAll calls').Offers model shape limit codec)
    (hseed : config.doSample = false ∨ ∃ value, config.seed = .fixed value) (prompt : String)
    (freshSeed freshSeed' : UInt64)
    : (((ofConfig second).performAll calls').generate prompt config freshSeed').1
        =
      (((ofConfig first).performAll calls).generate prompt config freshSeed).1 := by
  rcases h.sharesModel h' (isWhole_performAll first calls) (isWhole_performAll second calls') with
    ⟨session, session', hready, hready', hshares⟩
  have hrun := generateWith_of_sharesModel hready hready' hshares hseed prompt freshSeed freshSeed'
    fun _ => false
  exact hrun.2

def interrupted (plan : FaultPlan) : List ControllerCall :=
  [.loadModel
      (fun _ options =>
        .ok ⟨.ofShape ⟨1, 1, 1, 1⟩, ⟨1, 1, 1, 1⟩, plan, options.threadCount⟩)
      "model" none false,
    .setTokenizer (PieceTable.ofPieces [(0, [104])]).codec,
    .stream "h" .greedy 0 [.next, .next] .drop]

theorem generate_eq_of_interrupted
    : (((ofConfig {}).performAll (interrupted .none ++ [.stop])).generate "h" .greedy 0).1
        =
      (((ofConfig {}).performAll (interrupted (.once 2 .fail))).generate "h" .greedy 0).1 := by
  have hfailed : ((ofConfig {}).performAll (interrupted (.once 2 .fail))).Offers
      (.ofShape ⟨1, 1, 1, 1⟩) ⟨1, 1, 1, 1⟩ none (PieceTable.ofPieces [(0, [104])]).codec := by
    refine ⟨⟨_, (Option.some_get (show _ = true from rfl)).symm, rfl, rfl, rfl, ?_⟩, rfl, rfl⟩
    intro call hcall
    exact if_neg (Nat.ne_of_gt hcall)
  have hdropped : ((ofConfig {}).performAll (interrupted .none ++ [.stop])).Offers
      (.ofShape ⟨1, 1, 1, 1⟩) ⟨1, 1, 1, 1⟩ none (PieceTable.ofPieces [(0, [104])]).codec := by
    refine ⟨⟨_, (Option.some_get (show _ = true from rfl)).symm, rfl, rfl, rfl, ?_⟩, rfl, rfl⟩
    exact fun _ _ => rfl
  exact generate_eq_of_histories hfailed hdropped (.inl rfl) "h" 0 0

end Controller

end TextGen
