import TextGen.Proofs.Speculative.Transparency

/-!
This module contains that a target whose choices are not committed is a shadow of the draft: the
draft generates what it generates alone, the target goes on with its own choices, and the counts
tell where the two agree.
-/

namespace TextGen

/-! ## Two chains -/

namespace Task

variable {t u : Task} {sampler : Sampler}

def tokenAt (t : Task) (sampler : Sampler) (index : Nat) : TokenId :=
  (t.select (t.continuation sampler index).2 (t.continuation sampler index).1).1

theorem continuation_succ (t : Task) (sampler : Sampler) (count : Nat)
    : (t.continuation sampler (count + 1)).1
        =
      (t.continuation sampler count).1 ++ [t.tokenAt sampler count] := rfl

theorem history_succ (t : Task) (sampler : Sampler) (count : Nat)
    : t.history (t.continuation sampler (count + 1)).1
        =
      t.history (t.continuation sampler count).1 ++ [t.tokenAt sampler count] := by
  rw [continuation_succ, history_append]

theorem inVocabulary_tokenAt (h : t.IsSound) (sampler : Sampler) (index : Nat)
    : t.model.inVocabulary (t.tokenAt sampler index) = true :=
  inVocabulary_select h (inVocabulary_continuation h sampler index) _

theorem select_of_greedy (h : t.IsSound) (hgreedy : t.config.doSample = false)
    {tokens : List TokenId} (htokens : ∀ id ∈ tokens, t.model.inVocabulary id = true)
    (sampler : Sampler)
    : (t.select sampler tokens).1
        =
      (argmax (t.model.scoresAfter (t.history tokens)) : TokenId) := by
  rw [select_eq h htokens, Sampler.select, hgreedy]
  rfl

def scoresAt (t : Task) (sampler : Sampler) (index : Nat) : List Float32 :=
  t.model.scoresAfter (t.history (t.continuation sampler index).1)

theorem tokenAt_of_greedy (h : t.IsSound) (hgreedy : t.config.doSample = false) (sampler : Sampler)
    (index : Nat)
    : t.tokenAt sampler index = (argmax (t.scoresAt sampler index) : TokenId) :=
  select_of_greedy h hgreedy (inVocabulary_continuation h sampler index) _

def agreement (t u : Task) (sampler : Sampler) (count : Nat) : AgreementStats where
  iterations := count
  agreed := (List.range count).countP fun i => t.tokenAt sampler i = u.tokenAt sampler i
  disagreed := (List.range count).countP fun i => t.tokenAt sampler i ≠ u.tokenAt sampler i

theorem agreement_succ (t u : Task) (sampler : Sampler) (count : Nat)
    : t.agreement u sampler (count + 1)
        =
      (t.agreement u sampler count).count
        (t.tokenAt sampler count = u.tokenAt sampler count) := by
  unfold agreement AgreementStats.count
  by_cases h : t.tokenAt sampler count = u.tokenAt sampler count
  . simp [List.range_succ, h]
  . simp [List.range_succ, h]

structure IsShadowedBy (t u : Task) : Prop where
  sound : t.IsSound
  sound' : u.IsSound
  greedy : t.config.doSample = false
  greedy' : u.config.doSample = false
  prompt_eq : u.prompt = t.prompt
  limit_le : ∀ bound, u.limit = some bound → ∃ least, t.limit = some least ∧ least ≤ bound

theorem IsShadowedBy.filter_limit (h : t.IsShadowedBy u) {length : Nat}
    (hfits : t.limit.filter (· < length) = none) : u.limit.filter (· < length) = none :=
  Session.filter_limit_mono h.limit_le hfits

theorem IsShadowedBy.length_history (h : t.IsShadowedBy u) (sampler : Sampler) (count : Nat)
    : (u.history (u.continuation sampler count).1).length
        =
      (t.history (t.continuation sampler count).1).length := by
  simp [Task.length_history, h.prompt_eq]

end Task

namespace Speculation

variable {x : Speculation} {t u : Task} {sampler : Sampler} {p : Progress}
variable {plan plan' : FaultPlan} {fed : Nat}

structure Follows (x : Speculation) (t u : Task) (sampler : Sampler) (p : Progress)
    (plan plan' : FaultPlan) (fed : Nat) : Prop where
  codec_eq : x.codec = t.codec
  policy_eq : x.config.policy = .unverified
  maxIterations_eq : x.config.maxIterations = t.config.maxNewTokens
  eosTokenIds_eq : x.config.eosTokenIds = t.config.eosTokenIds
  tokens_eq : x.tokens = p.tokens
  text_eq : x.text = p.text
  streamed_eq : x.streamed = p.streamed
  chain_eq : p.tokens = (t.continuation sampler p.tokens.length).1
  stats_eq : x.stats = t.agreement u sampler p.tokens.length
  draft : x.draft.HasServed t.model plan t.limit (t.history (t.continuation sampler fed).1)
  target : x.target.HasServed u.model plan' u.limit (u.history (u.continuation sampler fed).1)

structure IsLevel (x : Speculation) (t u : Task) (sampler : Sampler) (p : Progress)
    (plan plan' : FaultPlan) : Prop extends Follows x t u sampler p plan plan' p.tokens.length where
  phase_eq : x.phase
    = .scored (t.scoresAt sampler p.tokens.length) (u.scoresAt sampler p.tokens.length)

structure IsBehind (x : Speculation) (t u : Task) (sampler : Sampler) (p : Progress)
    (plan plan' : FaultPlan) (fed : Nat) : Prop extends Follows x t u sampler p plan plan' fed where
  length_eq : p.tokens.length = fed + 1
  phase_eq : x.phase = .pending (t.tokenAt sampler fed) (u.tokenAt sampler fed)

structure HasShadowed (x : Speculation) (t u : Task) (sampler : Sampler)
    (r : Progress × FinishReason) : Prop extends HasFinished x t r where
  stats_eq : x.stats = t.agreement u sampler r.1.tokens.length

theorem Follows.hasShadowed (h : x.Follows t u sampler p plan plan' fed) (reason : FinishReason)
    : ({ x with phase := .finished reason } : Speculation).HasShadowed t u sampler (p, reason) :=
  ⟨⟨rfl, h.codec_eq, h.tokens_eq, h.text_eq, h.streamed_eq⟩, h.stats_eq⟩

theorem choose_of_follows (ht : t.IsShadowedBy u)
    (h : x.Follows t u sampler p plan plan' p.tokens.length)
    : HasChosen t (fun p x => ∃ fed, x.IsBehind t u sampler p plan plan' fed)
        (fun r x => x.HasShadowed t u sampler r) p
        (x.choose (t.scoresAt sampler p.tokens.length) (u.scoresAt sampler p.tokens.length)).2 := by
  have hselect : (t.select p.sampler p.tokens).1 = t.tokenAt sampler p.tokens.length := by
    rw [Task.tokenAt_of_greedy ht.sound ht.greedy, Task.scoresAt, ← h.chain_eq]
    apply Task.select_of_greedy ht.sound ht.greedy
    rw [h.chain_eq]
    exact Task.inVocabulary_continuation ht.sound sampler _
  have hcontains (id : TokenId) : x.config.eosTokenIds.contains id = t.config.isEos id := by
    rw [h.eosTokenIds_eq]
    rfl
  have hproposed := Task.tokenAt_of_greedy ht.sound ht.greedy sampler p.tokens.length
  have hpredicted := Task.tokenAt_of_greedy ht.sound' ht.greedy' sampler p.tokens.length
  generalize t.scoresAt sampler p.tokens.length = draftScores at hproposed ⊢
  generalize u.scoresAt sampler p.tokens.length = targetScores at hpredicted ⊢
  have hfollows : (x.committed draftScores targetScores).Follows t u sampler
      (p.add (t.select p.sampler p.tokens)) plan plan' p.tokens.length := by
    have hlength : (p.add (t.select p.sampler p.tokens)).tokens.length = p.tokens.length + 1 := by
      simp [Progress.add]
    refine ⟨h.codec_eq, h.policy_eq, h.maxIterations_eq, h.eosTokenIds_eq, ?_, h.text_eq,
      h.streamed_eq, ?_, ?_, h.draft, h.target⟩
    . simp [committed, h.policy_eq, VerificationPolicy.commit, ← hproposed, Progress.add, hselect,
        h.tokens_eq]
    . rw [hlength, Task.continuation_succ, ← h.chain_eq, ← hselect]
      rfl
    . rw [hlength, Task.agreement_succ, ← h.stats_eq, hproposed, hpredicted]
      rfl
  have hchoose := x.choose_of_decodes (h.codec_eq ▸ ht.sound.decodes) draftScores targetScores
  rw [h.policy_eq] at hchoose
  dsimp only [VerificationPolicy.commit] at hchoose
  rw [← hproposed, ← hpredicted, hcontains, ← hselect] at hchoose
  rcases hchoose with ⟨chunk, hchoose⟩
  unfold HasChosen
  rw [hchoose]
  by_cases hstop : t.config.isEos (t.select p.sampler p.tokens).1 = true
  . rw [if_pos hstop, if_pos hstop]
    exact hfollows.hasShadowed .stop
  . rw [if_neg hstop, if_neg hstop]
    refine ⟨p.tokens.length, ⟨hfollows.codec_eq, hfollows.policy_eq, hfollows.maxIterations_eq,
      hfollows.eosTokenIds_eq, hfollows.tokens_eq, ?_, ?_, hfollows.chain_eq, hfollows.stats_eq,
      hfollows.draft, hfollows.target⟩, ?_, ?_⟩
    . simp [Progress.reveal, Progress.add, h.text_eq, h.streamed_eq, h.codec_eq]
    . simp [Progress.reveal, Progress.add, h.streamed_eq, h.codec_eq]
    . simp [Progress.reveal, Progress.add]
    . rw [hselect]

/-! ## The next token -/

theorem isExhausted_of_follows (h : x.Follows t u sampler p plan plan' fed)
    : x.isExhausted = decide (t.config.maxNewTokens ≤ p.tokens.length) := by
  unfold isExhausted
  rw [h.maxIterations_eq, h.stats_eq]
  rfl

theorem next_of_spent (h : x.Follows t u sampler p plan plan' fed) (hrunning : x.isRunning = true)
    (hmax : t.config.maxNewTokens ≤ p.tokens.length)
    : ∃ chunk x', x.next false = (chunk, x', false) ∧ x'.HasShadowed t u sampler (p, .length) := by
  have hexhausted : x.isExhausted = true := by
    rw [isExhausted_of_follows h]
    simpa using hmax
  exact ⟨_, _, next_of_isExhausted hrunning hexhausted, h.hasShadowed .length⟩

theorem next_of_isBehind (ht : t.IsShadowedBy u) (h : x.IsBehind t u sampler p plan plan' fed)
    (hmax : p.tokens.length < t.config.maxNewTokens)
    : ∃ chunk x', x.next false = (chunk, x', false)
        ∧ if t.limit.filter (· < (t.history p.tokens).length) = none then
            HasChosen t (fun p x => ∃ fed, x.IsBehind t u sampler p plan plan' fed)
              (fun r x => x.HasShadowed t u sampler r) p x'
          else x'.HasShadowed t u sampler (p, .contextLimitReached) := by
  -- If the draft has room for its next token, the target has room for its own.
  have hexhausted : x.isExhausted = false := by
    rw [isExhausted_of_follows h.toFollows]
    simpa using hmax
  rcases feed_decodeStep h.draft h.target ht.sound.runnable.isPositive
      ht.sound'.runnable.isPositive (Task.history_ne_nil ht.sound _)
      (Task.history_ne_nil ht.sound' _) (Task.inVocabulary_tokenAt ht.sound sampler fed)
      (Task.inVocabulary_tokenAt ht.sound' sampler fed) with
    ⟨phase, draft, target, hfeed, hcases⟩
  have hlength : (t.history p.tokens).length
      = (t.history (t.continuation sampler fed).1).length + 1 := by
    simp [Task.length_history, h.length_eq, Nat.add_assoc]
  rw [ht.length_history, ← hlength, ← Task.history_succ, ← Task.history_succ, ← h.length_eq]
    at hcases
  unfold next
  rw [hexhausted, h.phase_eq]
  dsimp only
  rw [hfeed]
  cases hroom : t.limit.filter (· < (t.history p.tokens).length) with
  | some bound =>
    rw [if_neg fun hfits => Option.some_ne_none bound (hroom.symm.trans hfits.1)] at hcases
    cases hcases
    refine ⟨_, _, rfl, ?_⟩
    rw [if_neg (by simp)]
    exact ⟨⟨rfl, h.codec_eq, h.tokens_eq, h.text_eq, h.streamed_eq⟩, h.stats_eq⟩
  | none =>
    rw [if_pos ⟨hroom, ht.filter_limit hroom⟩] at hcases
    rcases hcases with ⟨rfl, hdraft, htarget⟩
    refine ⟨_, _, rfl, ?_⟩
    rw [if_pos rfl]
    apply choose_of_follows ht
    exact ⟨h.codec_eq, h.policy_eq, h.maxIterations_eq, h.eosTokenIds_eq, h.tokens_eq, h.text_eq,
      h.streamed_eq, h.chain_eq, h.stats_eq, hdraft, htarget⟩

/-! ## Whole runs -/

theorem produces_of_isShadowedBy (ht : t.IsShadowedBy u) (sampler : Sampler)
    (plan plan' : FaultPlan)
    : Produces t (fun p x => ∃ fed, x.IsBehind t u sampler p plan plan' fed)
        (fun r x => x.HasShadowed t u sampler r) where
  running := by
    rintro p x ⟨fed, hx⟩
    simp [isRunning, hx.phase_eq]
  ended := by
    intro r x hx
    simp [isRunning, hx.phase_eq]
  next_of_spent := by
    rintro p x ⟨fed, hx⟩ hmax
    exact next_of_spent hx.toFollows (by simp [isRunning, hx.phase_eq]) hmax
  next_of_pending := by
    rintro p x ⟨fed, hx⟩ hmax
    exact next_of_isBehind ht hx hmax

theorem endsIn_of_isLevel {fuel : Nat} (ht : t.IsShadowedBy u)
    (h : x.IsLevel t u sampler p plan plan')
    (hfuel : fuel = t.config.maxNewTokens - p.tokens.length)
    : x.EndsIn (fuel + 1) (fun x' => x'.HasShadowed t u sampler (t.run fuel p)) := by
  have hrunning : x.isRunning = true := by simp [isRunning, h.phase_eq]
  apply (produces_of_isShadowedBy ht sampler plan plan').endsIn_of_start hrunning _ _ hfuel
  . exact next_of_spent h.toFollows hrunning
  . intro hmax
    have hexhausted : x.isExhausted = false := by
      rw [isExhausted_of_follows h.toFollows]
      simpa using hmax
    exact ⟨_, _, next_of_phase hexhausted h.phase_eq false, choose_of_follows ht h.toFollows⟩

theorem start_of_isShadowedBy {draft target : Session} {config : SpeculativeConfig}
    (ht : t.IsShadowedBy u) (hdraft : draft.Serves t.model plan t.limit)
    (htarget : target.Serves u.model plan' u.limit)
    (hfits : ∀ bound, t.limit = some bound → t.prompt.length ≤ bound)
    (hpolicy : config.policy = .unverified) (hconfig : config.sampling = t.config)
    (sampler : Sampler)
    : ∃ x, start draft target t.codec config t.prompt false = (x, false)
        ∧ x.IsLevel t u sampler (.initial sampler) plan plan'
        ∧ x.budget = t.config.maxNewTokens := by
  have hroom := Session.filter_limit_eq_none hfits
  have hvocabulary := Task.find?_prompt ht.sound'
  rw [ht.prompt_eq] at hvocabulary
  rcases feed_prefill hdraft htarget ht.sound.runnable.isPositive ht.sound'.runnable.isPositive
      ht.sound.prompt_ne_nil hroom (ht.filter_limit hroom) (Task.find?_prompt ht.sound)
      hvocabulary with
    ⟨draft', target', hfeed, hdraft', htarget'⟩
  unfold start
  rw [hfeed]
  refine ⟨_, rfl, ⟨⟨rfl, hpolicy, ?_, ?_, rfl, rfl, rfl, rfl, rfl, ?_, ?_⟩, ?_⟩, ?_⟩
  . rw [← hconfig]
    rfl
  . rw [← hconfig]
    rfl
  . simpa [Progress.initial, Task.continuation] using hdraft'
  . simpa [Progress.initial, Task.continuation, Task.history, ht.prompt_eq] using htarget'
  . simp [Progress.initial, Task.continuation, Task.scoresAt, Task.history, ht.prompt_eq]
  . rw [← hconfig]
    rfl

end Speculation

namespace Speculator

variable {x : Speculator} {draft target : BigramModel} {draftPlan targetPlan : FaultPlan}
variable {limit targetLimit : Option Nat} {ids : List TokenId} {prompt : String}

/--
A speculative generation that commits what the draft chooses produces the tokens that the draft
chooses one after the other, whatever the target is. The counts are those of two chains of which
neither is fed anything from the other one.
-/
theorem generate_eq_continuation_of_unverified (hdraftModel : draft.IsRunnable)
    (htargetModel : target.IsRunnable) (hvocabSize : draft.shape.vocabSize = target.shape.vocabSize)
    (hdraft : x.draft.Serves draft draftPlan limit)
    (htarget : x.target.Serves target targetPlan targetLimit)
    (hlimit : ∀ bound, targetLimit = some bound → ∃ least, limit = some least ∧ least ≤ bound)
    (hpolicy : x.config.policy = .unverified) (hdecodes : x.codec.Decodes)
    (hencode : x.codec.encode prompt = .ok ids) (hids : ids ≠ [])
    (hvocabulary : ∀ id ∈ ids, draft.inVocabulary id = true)
    (hfits : ∀ bound, limit = some bound → ids.length ≤ bound) (sampler : Sampler)
    : let t : Task := ⟨draft, limit, x.codec, x.config.sampling, ids⟩
      let u : Task := ⟨target, targetLimit, x.codec, x.config.sampling, ids⟩
      ∃ n output, IsLeast {n | t.MayStop sampler n} n
        ∧ (x.generate prompt false fun _ => false).result = .ok output
        ∧ output.tokens = (t.continuation sampler n).1
        ∧ output.text
            =
          IncrementalText.transcript x.codec
            (output.tokens.filter fun token => !t.config.isEos token)
        ∧ output.finishReason = t.reason sampler n
        ∧ output.stats = t.agreement u sampler n := by
  intro t u
  have hvocabulary' : ∀ id ∈ ids, target.inVocabulary id = true := by
    intro id hid
    have hdraftId := hvocabulary id hid
    unfold BigramModel.inVocabulary BigramModel.vocabularyEnd at hdraftId ⊢
    rw [← hvocabSize]
    exact hdraftId
  have ht : t.IsShadowedBy u :=
    { sound := ⟨hdraftModel, hdecodes, hids, hvocabulary⟩
      sound' := ⟨htargetModel, hdecodes, hids, hvocabulary'⟩
      greedy := rfl
      greedy' := rfl
      prompt_eq := rfl
      limit_le := hlimit }
  rcases Speculation.start_of_isShadowedBy ht hdraft htarget hfits hpolicy rfl sampler with
    ⟨g, hstart, hg, hbudget⟩
  have hends := Speculation.endsIn_of_isLevel ht hg (Nat.sub_zero t.config.maxNewTokens).symm
  rw [← hbudget] at hends
  have hend (g' : Speculation) (h : g'.HasShadowed t u sampler (t.run g.budget (.initial sampler)))
      : g'.HasFinished t (t.run g.budget (.initial sampler)) :=
    h.toHasFinished
  rcases generate_of_endsIn ht.sound ((start_of_encode hencode).trans (congrArg Except.ok hstart))
      hends hend with
    ⟨g', output, hg', hresult, hvisible, hstats⟩
  rcases t.run_initial hfits sampler with ⟨n, hleast, htokens, hreason, htext⟩
  have hagreement := hstats.trans hg'.stats_eq
  rw [hbudget] at hvisible hagreement
  rw [htokens, Task.length_continuation] at hagreement
  unfold SpeculativeOutput.visible at hvisible
  rw [Visible.mk.injEq] at hvisible
  rcases hvisible with ⟨hshown, hcommitted, hended⟩
  refine ⟨n, output, hleast, hresult, hcommitted.trans htokens, ?_, hended.trans hreason,
    hagreement⟩
  rw [hcommitted]
  exact hshown.trans htext

theorem generate_hi_of_unverified
    : let codec := (PieceTable.ofPieces [(1, [104]), (2, [105])]).codec
      let draft := BigramModel.ofShape ⟨1, 1, 1, 4⟩
      let target := (BigramModel.ofShape ⟨2, 1, 3, 4⟩).transition 2 3 1
      let config : SpeculativeConfig := ⟨8, [3], .unverified⟩
      let x : Speculator := ⟨.ofCompiled (draft.compile none) (some 4),
        .ofCompiled (target.compile none) none, codec, config, []⟩
      let t : Task := ⟨draft, some 4, codec, config.sampling, [1, 2]⟩
      let u : Task := ⟨target, none, codec, config.sampling, [1, 2]⟩
      ∃ n output, IsLeast {n | t.MayStop (.ofSeed 0) n} n
        ∧ (x.generate "hi" false fun _ => false).result = .ok output
        ∧ output.tokens = (t.continuation (.ofSeed 0) n).1
        ∧ output.stats = t.agreement u (.ofSeed 0) n := by
  intro codec draft target config x t u
  have hdraftModel : draft.IsRunnable := ⟨rfl, by decide⟩
  have htargetModel : target.IsRunnable := ⟨by decide +kernel, by decide⟩
  have hdraft : x.draft.Serves draft .none (some 4) := Session.serves_ofCompiled _ _ _
  have htarget : x.target.Serves target .none none := Session.serves_ofCompiled _ _ _
  have hlimit : ∀ bound, none = some bound → ∃ least, some 4 = some least ∧ least ≤ bound := by
    intro bound hbound
    contradiction
  have hencode : x.codec.encode "hi" = .ok [1, 2] := by decide
  have hfits : ∀ bound, some 4 = some bound → [(1 : TokenId), 2].length ≤ bound := by
    intro bound hbound
    cases hbound
    decide
  rcases generate_eq_continuation_of_unverified hdraftModel htargetModel rfl hdraft htarget hlimit
      rfl (PieceTable.decodes_codec rfl) hencode (by simp) (by decide) hfits (.ofSeed 0) with
    ⟨n, output, hleast, hresult, htokens, _, _, hstats⟩
  exact ⟨n, output, hleast, hresult, htokens, hstats⟩

end Speculator

end TextGen
