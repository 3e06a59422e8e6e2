import TextGen.Proofs.Controller.Stream
import TextGen.Proofs.Except

/-!
This module contains what a controller generates as long as nothing goes wrong: the tokens that are
chosen one after the other from the scores of new sessions, up to the first reason to stop.
-/

namespace TextGen

namespace Controller

structure IsReady (c : Controller) (session : Session) (codec : Codec) : Prop where
  session_eq : c.session = some session
  codec_eq : c.codec = some codec
  status_eq : c.status = .ready

variable {c : Controller} {session : Session} {t : Task} {plan : FaultPlan} {prompt : String}

/-! ## Loading -/

theorem serves_openSession {model : BigramModel} {backend : Backend} {path : String}
    {config : ControllerConfig} {validate : Bool} {threads : Option Nat}
    (hpositive : model.shape.IsPositive)
    (hbackend : backend path config.compileOptions = .ok (model.compile threads))
    (h : openSession backend path config validate = .ok session)
    : session.Serves model .none config.contextLimit := by
  have hcreated := Session.serves_ofCompiled model threads config.contextLimit
  unfold openSession at h
  rw [hbackend, mapError_ok, bind_of_ok rfl, Session.create_compile, mapError_ok,
    bind_of_ok rfl] at h
  cases validate with
  | false =>
    cases h
    exact hcreated
  | true =>
    rcases Session.prefill_of_serves hcreated hpositive [0] with ⟨_, _, hafter, _⟩
    rcases exists_of_bind (eq_ok_of_mapError h) with ⟨_, _, htried⟩
    cases htried
    exact hafter.reset

theorem exists_isReady_of_loadModel {model : BigramModel} {backend : Backend} {path : String}
    {threadCount : Option Nat} {validate : Bool} (hpositive : model.shape.IsPositive)
    (hbackend : ∀ options, backend path options = .ok (model.compile options.threadCount))
    (hload : (c.loadModel backend path threadCount validate).1 = .ok ()) (codec : Codec)
    : ∃ session,
        ((c.loadModel backend path threadCount validate).2.setTokenizer codec).IsReady session codec
          ∧ session.Serves model .none c.config.contextLimit := by
  let config := { c.config with threadCount := threadCount <|> c.config.threadCount }
  unfold loadModel at hload ⊢
  dsimp only at hload ⊢
  cases hopen : openSession backend path config validate with
  | error e =>
    rw [hopen] at hload
    contradiction
  | ok session =>
    have hserves : session.Serves model .none config.contextLimit :=
      serves_openSession hpositive (hbackend _) hopen
    exact ⟨session, ⟨rfl, rfl, rfl⟩, hserves⟩

/-! ## Generations that nothing disturbs -/

theorem checkReady_of_isReady {codec : Codec} (h : c.IsReady session codec)
    : c.checkReady = .ok (session, codec) := by
  simp [checkReady, h.session_eq, h.codec_eq, h.status_eq, ControllerStatus.canGenerate]

theorem stream_of_isReady {codec : Codec} {config : SamplingConfig} {ids : List TokenId}
    (h : c.IsReady session codec) (hconfig : config.validate = .ok ())
    (hencode : codec.encode prompt = .ok ids) (freshSeed : UInt64)
    : c.stream prompt config freshSeed
        =
      TokenStream.start c session codec ids config (.ofSeed (config.seed.resolve freshSeed)) := by
  unfold stream stream.prepare
  rw [hconfig, checkReady_of_isReady h]
  simp [hencode, bind, Except.bind, pure, Except.pure]

theorem start_of_serves (ht : t.IsSound) (hserves : session.Serves t.model plan t.limit)
    (hfits : ∀ bound, t.limit = some bound → t.prompt.length ≤ bound)
    (hcodec : c.codec = some t.codec) (sampler : Sampler)
    : ∃ s g, TokenStream.start c session t.codec t.prompt t.config sampler = .ok s
        ∧ s.IsAt t.codec g
        ∧ g.IsScored t (.initial sampler) plan
        ∧ g.session.engine.calls = session.engine.calls + 1 := by
  rcases Generation.start_of_serves ht hserves hfits sampler with ⟨g, hstart, hg, hcalls⟩
  unfold TokenStream.start
  rw [hstart]
  exact ⟨_, g, rfl, TokenStream.isAt_advance (s := ⟨{ c with stopHandle := .lowered }, g⟩) g hcodec
    rfl, hg, hcalls⟩

theorem yields_of_start {s : TokenStream} {g : Generation} {sampler : Sampler} (ht : t.IsSound)
    (hs : s.IsAt t.codec g) (hg : g.IsScored t (.initial sampler) plan)
    (hcalls : g.session.engine.calls = session.engine.calls + 1)
    : let r := t.run t.config.maxNewTokens (.initial sampler)
      s.Yields (t.config.maxNewTokens + 1) t r plan
        (session.engine.calls + max 1 r.1.tokens.length - r.1.tokens.length) := by
  dsimp only
  cases hmax : t.config.maxNewTokens with
  -- The prompt takes a pass even if no token is chosen from its scores.
  | zero =>
    have hnext := Generation.next_of_exhausted hg.toTracks
      (by simp [Generation.isRunning, hg.phase_eq]) (by simp [hmax])
    apply TokenStream.yields_of_next_none hs hnext (hg.toTracks.hasFinished .length)
    rw [Task.run]
    simpa [Generation.finish, Session.reset, Engine.reset, Progress.initial] using hcalls
  | succ fuel =>
    have hlength := t.length_lt_run fuel (.initial sampler)
    have hothers : session.engine.calls
          + max 1 (t.run (fuel + 1) (.initial sampler)).1.tokens.length
          - (t.run (fuel + 1) (.initial sampler)).1.tokens.length
        = session.engine.calls := by omega
    have hyields := TokenStream.yields_of_scored ht hs hg
      (show _ = 0 + 1 + session.engine.calls by omega) (by simp [hmax, Progress.initial])
    rw [hothers]
    simpa [hmax, Progress.initial] using hyields

theorem generate_eq_run (h : c.IsReady session t.codec)
    (hserves : session.Serves t.model plan t.limit) (ht : t.IsSound)
    (hencode : t.codec.encode prompt = .ok t.prompt)
    (hfits : ∀ bound, t.limit = some bound → t.prompt.length ≤ bound)
    (hconfig : t.config.validate = .ok ()) (freshSeed : UInt64) {sampler : Sampler}
    (hsampler : sampler = .ofSeed (t.config.seed.resolve freshSeed))
    : let r := t.run t.config.maxNewTokens (.initial sampler)
      ∃ output after, (c.generate prompt t.config freshSeed).1 = .ok output
        ∧ output.tokens = r.1.tokens
        ∧ output.text = r.1.wholeText t.codec
        ∧ output.finishReason = r.2
        ∧ (c.generate prompt t.config freshSeed).2.IsReady after t.codec
        ∧ after.Serves t.model plan t.limit
        ∧ after.engine.calls = session.engine.calls + max 1 r.1.tokens.length := by
  rcases start_of_serves ht hserves hfits h.codec_eq sampler with ⟨s, g, hstart, hs, hg, hcalls⟩
  have hbudget : s.generation.budget = t.config.maxNewTokens := by
    rw [hs.generation_eq, Generation.budget, hg.config_eq, hg.tokens_eq]
    rfl
  rcases yields_of_start ht hs hg hcalls [] with ⟨events, s', g', hdrain, hs', hg', hcalls'⟩
  have hreason := t.run_ne_cancelled t.config.maxNewTokens (.initial sampler)
  have hclose : s'.close = s' := by
    unfold TokenStream.close
    simp [hs'.generation_eq, Generation.isRunning, hg'.phase_eq]
  unfold generate generateWith
  rw [stream_of_isReady h hconfig hencode, ← hsampler, hstart]
  dsimp only
  rw [hbudget, hdrain]
  dsimp only
  unfold TokenStream.intoOutput
  rw [hclose]
  dsimp only
  rw [hs'.generation_eq]
  refine ⟨_, g'.session, rfl, hg'.tokens_eq, hg'.text_eq, ?_, ?_, hg'.serves, ?_⟩
  . simp [Generation.finishReason?, hg'.phase_eq]
  . exact ⟨hs'.session_eq, hs'.codec_eq, hs'.status_eq _ hg'.phase_eq hreason⟩
  . rw [hcalls']
    omega

/-! ## The tokens one after the other -/

theorem continuation_of_seed
    (hseed : t.config.doSample = false ∨ ∃ value, t.config.seed = .fixed value)
    (seed seed' : UInt64) (count : Nat)
    : (t.continuation (.ofSeed (t.config.seed.resolve seed)) count).1
        =
      (t.continuation (.ofSeed (t.config.seed.resolve seed')) count).1 := by
  rcases hseed with hgreedy | ⟨value, hvalue⟩
  . exact Task.continuation_of_greedy hgreedy _ _ count
  . rw [hvalue]
    rfl

/--
A controller that is ready generates the tokens that are chosen one after the other, each from what
a new session answers when it is prefilled with all tokens before it, up to the first reason to
stop. The text is that of the tokens that do not end the generation, and there is one pass for every
token, or one pass if no token is asked for.
-/
theorem generate_eq_continuation (h : c.IsReady session t.codec)
    (hserves : session.Serves t.model plan t.limit) (ht : t.IsSound)
    (hencode : t.codec.encode prompt = .ok t.prompt)
    (hfits : ∀ bound, t.limit = some bound → t.prompt.length ≤ bound)
    (hconfig : t.config.validate = .ok ())
    (hseed : t.config.doSample = false ∨ ∃ value, t.config.seed = .fixed value)
    (seed freshSeed : UInt64)
    : let sampler := Sampler.ofSeed (t.config.seed.resolve seed)
      (∀ count, ∃ logits, t.freshAnswer (t.continuation sampler count).1 = .ok logits)
        ∧ ∃ n output after, IsLeast {n | t.MayStop sampler n} n
          ∧ (c.generate prompt t.config freshSeed).1 = .ok output
          ∧ output.tokens = (t.continuation sampler n).1
          ∧ output.finishReason = t.reason sampler n
          ∧ output.text
              =
            IncrementalText.transcript t.codec
              (output.tokens.filter fun token => !t.config.isEos token)
          ∧ (c.generate prompt t.config freshSeed).2.IsReady after t.codec
          ∧ after.Serves t.model plan t.limit
          ∧ after.engine.calls = session.engine.calls + max 1 n := by
  intro sampler
  have htokens : ∀ count, (t.continuation (.ofSeed (t.config.seed.resolve freshSeed)) count).1
      = (t.continuation sampler count).1 := by
    intro count
    exact continuation_of_seed hseed freshSeed seed count
  constructor
  . intro count
    exact ⟨_, Task.freshAnswer_eq ht (Task.inVocabulary_continuation ht sampler count)⟩
  . rcases generate_eq_run h hserves ht hencode hfits hconfig freshSeed rfl with
      ⟨output, after, houtput, hlist, htext, hfinish, hready, hafter, hcalls⟩
    rcases Task.run_of_hasReached (Task.hasReached_initial hfits) (Nat.sub_zero _).symm with
      ⟨n, hleast, hrun, hend⟩
    rcases t.run_text t.config.maxNewTokens
        (.initial (.ofSeed (t.config.seed.resolve freshSeed))) with ⟨added, hadded, hwhole⟩
    have hall : output.tokens = added := by
      rw [hlist, hadded]
      rfl
    rw [Task.mayStop_congr htokens] at hleast
    rw [htokens] at hrun
    rw [Task.reason_congr htokens] at hend
    refine ⟨n, output, after, hleast, houtput, hlist.trans hrun, hfinish.trans hend, ?_, hready,
      hafter, ?_⟩
    . rw [htext, hwhole, hall]
      exact String.empty_append
    . rw [hcalls, hrun, Task.length_continuation]

theorem generate_hi_eq_continuation
    : let codec := (PieceTable.ofPieces [(1, [104]), (2, [105])]).codec
      let t : Task := ⟨.ofShape ⟨1, 1, 1, 4⟩, some 3, codec, .greedy, [1, 2]⟩
      let backend : Backend := fun _ options => .ok (t.model.compile options.threadCount)
      let c := ((ofConfig { contextLimit := some 3 }).loadModel backend "model" none false).2
      ∃ n output, IsLeast {n | t.MayStop (.ofSeed 0) n} n
        ∧ ((c.setTokenizer codec).generate "hi" .greedy 0).1 = .ok output
        ∧ output.tokens = (t.continuation (.ofSeed 0) n).1 := by
  intro codec t backend c
  have ht : t.IsSound := by
    refine ⟨⟨rfl, by decide⟩, PieceTable.decodes_codec rfl, by simp [t], ?_⟩
    decide
  have hfits : ∀ bound, t.limit = some bound → t.prompt.length ≤ bound := by
    intro bound hbound
    cases hbound
    decide
  have hencode : t.codec.encode "hi" = .ok t.prompt := by decide
  have hload : ((ofConfig { contextLimit := some 3 }).loadModel backend "model" none false).1
      = .ok () := rfl
  rcases exists_isReady_of_loadModel ht.runnable.isPositive (fun _ => rfl) hload codec with
    ⟨session, hready, hserves⟩
  rcases (generate_eq_continuation hready hserves ht hencode hfits rfl (.inl rfl) 0 0).2 with
    ⟨n, output, _, hleast, houtput, htokens, _⟩
  exact ⟨n, output, hleast, houtput, htokens⟩

end Controller

end TextGen
