import TextGen.Proofs.Controller.Generate
import TextGen.Proofs.Speculative.Steps
import TextGen.Speculative.Speculator

/-!
This module contains the transparency of speculative generations that commit what the target
chooses: a controller on the target alone produces the same text and the same tokens, and ends for
the same reason.
-/

namespace TextGen

def SpeculativeConfig.sampling (config : SpeculativeConfig) : SamplingConfig :=
  { SamplingConfig.greedy with
    maxNewTokens := config.maxIterations
    eosTokenIds := config.eosTokenIds }

structure Visible where
  text : String
  tokens : List TokenId
  finishReason : FinishReason

def Output.visible (output : Output) : Visible :=
  ⟨output.text, output.tokens, output.finishReason⟩

def SpeculativeOutput.visible (output : SpeculativeOutput) : Visible :=
  ⟨output.text, output.tokens, output.finishReason⟩

namespace Controller

variable {c : Controller} {session : Session} {codec : Codec} {prompt : String}
variable {config : SamplingConfig}

theorem generate_of_encode_error {e : CodecError} (h : c.IsReady session codec)
    (hconfig : config.validate = .ok ()) (hencode : codec.encode prompt = .error e)
    (freshSeed : UInt64)
    : (c.generate prompt config freshSeed).1 = .error (.codec e) := by
  have hstream : c.stream prompt config freshSeed = .error (.codec e, c) := by
    unfold stream stream.prepare
    rw [hconfig, checkReady_of_isReady h]
    simp [hencode, bind, Except.bind]
  unfold generate generateWith
  rw [hstream]

theorem generate_of_prefill_error {ids : List TokenId} {e : SessionError}
    (h : c.IsReady session codec) (hconfig : config.validate = .ok ())
    (hencode : codec.encode prompt = .ok ids)
    (hprefill : (session.prefill ids false).result = .error e) (he : e.isCancelled = false)
    (freshSeed : UInt64)
    : (c.generate prompt config freshSeed).1 = .error (.session e) := by
  unfold generate generateWith
  rw [stream_of_isReady h hconfig hencode]
  unfold TokenStream.start Generation.start
  dsimp only
  rw [hprefill]
  simp [he]

end Controller

namespace Speculation

variable {draft target : Session} {codec : Codec} {config : SpeculativeConfig}
variable {d : Draft} {t : Task} {plan : FaultPlan}

theorem start_of_prefill_error {ids : List TokenId} {e : SessionError}
    (hdraft : (draft.prefill ids false).result = .error e) (he : e.finishReason? = none)
    : (start draft target codec config ids false).1.phase = .failed (.session e) := by
  unfold start feed
  dsimp only
  rw [hdraft]
  simp [SpeculationPhase.ofError, he]

theorem start_of_serves (ht : t.IsSound) (hd : d.Suits t)
    (hdraft : draft.Serves d.model d.plan d.limit) (htarget : target.Serves t.model plan t.limit)
    (hfits : ∀ bound, t.limit = some bound → t.prompt.length ≤ bound)
    (hpolicy : config.policy = .greedy) (hconfig : config.sampling = t.config) (sampler : Sampler)
    : ∃ x draftScores, start draft target t.codec config t.prompt false = (x, false)
        ∧ x.IsScored d t (.initial sampler) plan draftScores
        ∧ x.budget = t.config.maxNewTokens := by
  have htargetVocabulary := Task.find?_prompt ht
  have hdraftVocabulary : t.prompt.find? (!d.model.inVocabulary ·) = none := by
    simpa only [hd.inVocabulary] using htargetVocabulary
  have hroom := Session.filter_limit_eq_none hfits
  rcases feed_prefill hdraft htarget hd.runnable.isPositive ht.runnable.isPositive
      ht.prompt_ne_nil (hd.filter_limit hroom) hroom hdraftVocabulary htargetVocabulary with
    ⟨draft', target', hfeed, hdraft', htarget'⟩
  have hhistory : t.history (Progress.initial sampler).tokens = t.prompt := t.history_nil
  unfold start
  rw [hfeed]
  dsimp only
  refine ⟨_, d.model.scoresAfter t.prompt, rfl,
    ⟨⟨rfl, hpolicy, ?_, ?_, rfl, rfl, rfl, rfl, hdraft'.serves, htarget'.serves, ?_, ?_, ?_⟩, ?_⟩,
    ?_⟩
  . rw [← hconfig]
    rfl
  . rw [← hconfig]
    rfl
  . rw [hhistory]
    exact hdraft'.state_eq
  . rw [hhistory]
    exact htarget'.state_eq
  . simp [Progress.initial]
  . rw [hhistory]
  . rw [← hconfig]
    rfl

end Speculation

namespace Speculator

variable {x : Speculator} {g : Speculation} {t : Task} {prompt : String}

theorem start_of_encode {ids : List TokenId} {cancelled : Bool}
    (hencode : x.codec.encode prompt = .ok ids)
    : x.start prompt cancelled
        =
      .ok (Speculation.start x.draft x.target x.codec x.config ids cancelled) := by
  simp [start, hencode, bind, Except.bind, pure, Except.pure]

theorem generate_of_encode_error {e : CodecError} (hencode : x.codec.encode prompt = .error e)
    (cancelled : Bool) (cancelsAt : List String → Bool)
    : x.generate prompt cancelled cancelsAt = ⟨.error (.codec e), [], x, cancelled⟩ := by
  have hstart : x.start prompt cancelled = .error (.codec e) := by
    simp [start, hencode, bind, Except.bind]
  unfold generate
  rw [hstart]

theorem generate_of_failed {cancelled : Bool} {e : GenerationError}
    (hstart : x.start prompt false = .ok (g, cancelled)) (hphase : g.phase = .failed e)
    : (x.generate prompt false fun _ => false).result = .error e := by
  have hrun : g.run (fun _ => false) (g.budget + 1) [] cancelled = ([], g, cancelled) := by
    apply Speculation.run_of_ended
    simp [Speculation.isRunning, hphase]
  have hconclude : conclude g = .error e := by
    simp [conclude, Speculation.ending, hphase, bind, Except.bind]
  unfold generate
  rw [hstart]
  dsimp only
  rw [hrun]
  dsimp only
  rw [hconclude]

theorem generate_of_endsIn {r : Progress × FinishReason} {P : Speculation → Prop} (ht : t.IsSound)
    (hstart : x.start prompt false = .ok (g, false)) (hg : g.EndsIn (g.budget + 1) P)
    (hfinished : ∀ g', P g' → g'.HasFinished t r)
    : ∃ g' output, P g'
        ∧ (x.generate prompt false fun _ => false).result = .ok output
        ∧ output.visible = ⟨r.1.wholeText t.codec, r.1.tokens, r.2⟩
        ∧ output.stats = g'.stats := by
  rcases hg [] with ⟨chunks, g', hrun, hg'⟩
  have hend := hfinished g' hg'
  have hending : g'.ending = .ok r.2 := by simp [Speculation.ending, hend.phase_eq]
  have htail : (g'.streamed.finish g'.codec).1 = .ok (r.1.streamed.tail t.codec) := by
    rw [hend.streamed_eq, hend.codec_eq]
    exact IncrementalText.finish_of_decodes ht.decodes _
  have hconclude : conclude g'
      = .ok (r.1.streamed.tail t.codec,
        { text := g'.text ++ r.1.streamed.tail t.codec
          tokens := g'.tokens
          finishReason := r.2
          stats := g'.stats }) := by
    simp [conclude, hending, htail, bind, Except.bind, pure, Except.pure]
  unfold generate
  rw [hstart]
  dsimp only
  rw [hrun]
  dsimp only
  rw [hconclude]
  refine ⟨g', _, hg', rfl, ?_, rfl⟩
  simp [SpeculativeOutput.visible, Progress.wholeText, hend.text_eq, hend.tokens_eq]

theorem generate_of_yields {r : Progress × FinishReason} (ht : t.IsSound)
    (hstart : x.start prompt false = .ok (g, false)) (hg : g.Yields (g.budget + 1) t r)
    : (x.generate prompt false fun _ => false).result.map SpeculativeOutput.visible
        =
      .ok ⟨r.1.wholeText t.codec, r.1.tokens, r.2⟩ := by
  rcases generate_of_endsIn ht hstart hg fun _ h => h with ⟨_, output, _, hresult, hvisible, _⟩
  rw [hresult, ← hvisible]
  rfl

/-! ## With and without a draft -/

variable {c : Controller} {session : Session} {d : Draft} {targetPlan plan : FaultPlan}

theorem generate_eq_of_refused {ids : List TokenId} {e : SessionError}
    (hdraft : (x.draft.prefill ids false).result = .error e)
    (hsession : (session.prefill ids false).result = .error e)
    (hready : c.IsReady session x.codec) (hencode : x.codec.encode prompt = .ok ids)
    (hreason : e.finishReason? = none) (hcancelled : e.isCancelled = false) (freshSeed : UInt64)
    : (x.generate prompt false fun _ => false).result.map SpeculativeOutput.visible
        =
      (c.generate prompt x.config.sampling freshSeed).1.map Output.visible := by
  rw [generate_of_failed (start_of_encode hencode)
      (Speculation.start_of_prefill_error hdraft hreason),
    Controller.generate_of_prefill_error hready rfl hencode hsession hcancelled freshSeed]
  rfl

theorem generate_eq_of_isSound (ht : t.IsSound) (hd : d.Suits t)
    (hdraft : x.draft.Serves d.model d.plan d.limit)
    (htarget : x.target.Serves t.model targetPlan t.limit)
    (hpolicy : x.config.policy = .greedy) (hcodec : x.codec = t.codec)
    (hconfig : x.config.sampling = t.config) (hready : c.IsReady session t.codec)
    (hsession : session.Serves t.model plan t.limit)
    (hencode : t.codec.encode prompt = .ok t.prompt)
    (hfits : ∀ bound, t.limit = some bound → t.prompt.length ≤ bound) (freshSeed : UInt64)
    : (x.generate prompt false fun _ => false).result.map SpeculativeOutput.visible
        =
      (c.generate prompt x.config.sampling freshSeed).1.map Output.visible := by
  have hvalid : t.config.validate = .ok () := by
    rw [← hconfig]
    rfl
  rcases Speculation.start_of_serves ht hd hdraft htarget hfits hpolicy hconfig
      (.ofSeed (t.config.seed.resolve freshSeed)) with
    ⟨g, draftScores, hstart, hg, hbudget⟩
  have hyields := Speculation.yields_of_scored ht hd hg (Nat.sub_zero t.config.maxNewTokens).symm
  rw [← hbudget] at hyields
  rw [← hcodec] at hencode hstart
  rw [generate_of_yields ht ((start_of_encode hencode).trans (congrArg Except.ok hstart)) hyields]
  rw [hcodec] at hencode
  rcases Controller.generate_eq_run hready hsession ht hencode hfits hvalid
      freshSeed rfl with
    ⟨output, _, houtput, htokens, htext, hreason, _, _, _⟩
  rw [hconfig, houtput, hbudget]
  simp [Except.map, Output.visible, htokens, htext, hreason]

/--
A speculative generation that commits what the target chooses has the same visible output, or the
same error, as a generation on the target alone, whatever the draft is.
-/
theorem generate_eq_generate {model : BigramModel} {limit : Option Nat}
    (hdraftModel : d.model.IsRunnable) (hmodel : model.IsRunnable)
    (hvocabSize : d.model.shape.vocabSize = model.shape.vocabSize)
    (hdraft : x.draft.Serves d.model d.plan d.limit)
    (htarget : x.target.Serves model targetPlan limit)
    (hlimit : ∀ bound, d.limit = some bound → ∃ least, limit = some least ∧ least ≤ bound)
    (hpolicy : x.config.policy = .greedy) (hdecodes : x.codec.Decodes)
    (hready : c.IsReady session x.codec) (hsession : session.Serves model plan limit)
    (hfits : ∀ ids, x.codec.encode prompt = .ok ids →
      ∀ bound, limit = some bound → ids.length ≤ bound)
    (freshSeed : UInt64)
    : (x.generate prompt false fun _ => false).result.map SpeculativeOutput.visible
        =
      (c.generate prompt x.config.sampling freshSeed).1.map Output.visible := by
  cases hencode : x.codec.encode prompt with
  | error e =>
    rw [generate_of_encode_error hencode,
      Controller.generate_of_encode_error hready rfl hencode freshSeed]
    rfl
  | ok ids =>
    have hsuits : d.Suits ⟨model, limit, x.codec, x.config.sampling, ids⟩ :=
      ⟨hdraftModel, hvocabSize, hlimit, rfl⟩
    have hroom := Session.filter_limit_eq_none (hfits ids hencode)
    have hdraftResult := (Session.prefill_of_serves hdraft hdraftModel.isPositive ids).1
    have hresult := (Session.prefill_of_serves hsession hmodel.isPositive ids).1
    -- Both models refuse the same prompts, and for the same reasons.
    by_cases hids : ids = []
    . rw [BigramModel.prefillAnswer, if_pos hids] at hdraftResult hresult
      exact generate_eq_of_refused hdraftResult hresult hready hencode rfl rfl freshSeed
    . rw [BigramModel.prefillAnswer, if_neg hids] at hdraftResult hresult
      rw [hsuits.filter_limit hroom] at hdraftResult
      rw [hroom] at hresult
      cases hvocabulary : ids.find? (!model.inVocabulary ·) with
      | some token =>
        have hdraftVocabulary : ids.find? (!d.model.inVocabulary ·) = some token := by
          simpa only [hsuits.inVocabulary] using hvocabulary
        rw [hdraftVocabulary] at hdraftResult
        rw [hvocabulary] at hresult
        exact generate_eq_of_refused hdraftResult hresult hready hencode rfl rfl freshSeed
      | none =>
        rw [List.find?_eq_none] at hvocabulary
        refine generate_eq_of_isSound ⟨hmodel, hdecodes, hids, ?_⟩ hsuits hdraft htarget hpolicy rfl
          rfl hready hsession hencode (hfits ids hencode) freshSeed
        intro id hid
        simpa using hvocabulary id hid

theorem generate_hi_eq_generate
    : let codec := (PieceTable.ofPieces [(1, [104]), (2, [105])]).codec
      let draft := (BigramModel.ofShape ⟨2, 1, 3, 4⟩).transition 2 3 1
      let target := BigramModel.ofShape ⟨1, 1, 1, 4⟩
      let session := Session.ofCompiled (target.compile none) (some 3)
      let config : SpeculativeConfig := ⟨8, [3], .greedy⟩
      let x : Speculator := ⟨.ofCompiled (draft.compile none) none, session, codec, config, []⟩
      let c : Controller := ⟨{}, .ready, some session, some codec, .lowered, {}⟩
      (x.generate "hi" false fun _ => false).result.map SpeculativeOutput.visible
        =
      (c.generate "hi" config.sampling 0).1.map Output.visible := by
  intro codec draft target session config x c
  have hdraftModel : draft.IsRunnable := ⟨by decide +kernel, by decide⟩
  have htargetModel : target.IsRunnable := ⟨rfl, by decide⟩
  have hdraft : x.draft.Serves draft .none none := Session.serves_ofCompiled _ _ _
  have hsession : session.Serves target .none (some 3) := Session.serves_ofCompiled _ _ _
  have hlimit : ∀ bound, none = some bound → ∃ least, some 3 = some least ∧ least ≤ bound := by
    intro bound hbound
    contradiction
  have hfits : ∀ ids, x.codec.encode "hi" = .ok ids →
      ∀ bound, some 3 = some bound → ids.length ≤ bound := by
    intro ids hids bound hbound
    have hencode : x.codec.encode "hi" = .ok [1, 2] := by decide
    rw [hencode] at hids
    cases hids
    cases hbound
    decide
  exact generate_eq_generate (d := ⟨draft, .none, none⟩) hdraftModel htargetModel rfl hdraft
    hsession hlimit rfl (PieceTable.decodes_codec rfl) ⟨rfl, rfl, rfl⟩ hsession hfits 0

end Speculator

end TextGen
