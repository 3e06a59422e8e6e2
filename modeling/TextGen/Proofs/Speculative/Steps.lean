import TextGen.Proofs.Speculative.Simulation

/-!
This module contains the steps of a speculative generation whose policy commits what the target
chooses. Draft and target have been fed the same tokens, and so a step commits what the task of the
target says, whatever the draft proposes.
-/

namespace TextGen

structure Draft where
  model : BigramModel
  plan : FaultPlan
  limit : Option Nat

structure Draft.Suits (d : Draft) (t : Task) : Prop where
  runnable : d.model.IsRunnable
  vocabSize_eq : d.model.shape.vocabSize = t.model.shape.vocabSize
  limit_le : ∀ bound, d.limit = some bound → ∃ least, t.limit = some least ∧ least ≤ bound
  greedy : t.config.doSample = false

variable {d : Draft} {t : Task} {p : Progress} {plan : FaultPlan} {fed : List TokenId}

theorem Draft.Suits.inVocabulary (h : d.Suits t) (id : TokenId)
    : d.model.inVocabulary id = t.model.inVocabulary id := by
  unfold BigramModel.inVocabulary BigramModel.vocabularyEnd
  rw [h.vocabSize_eq]

theorem Draft.Suits.filter_limit (h : d.Suits t) {length : Nat}
    (hfits : t.limit.filter (· < length) = none) : d.limit.filter (· < length) = none :=
  Session.filter_limit_mono h.limit_le hfits

namespace Speculation

structure Tracks (x : Speculation) (d : Draft) (t : Task) (p : Progress) (plan : FaultPlan)
    (fed : List TokenId) : Prop where
  codec_eq : x.codec = t.codec
  policy_eq : x.config.policy = .greedy
  maxIterations_eq : x.config.maxIterations = t.config.maxNewTokens
  eosTokenIds_eq : x.config.eosTokenIds = t.config.eosTokenIds
  iterations_eq : x.stats.iterations = p.tokens.length
  tokens_eq : x.tokens = p.tokens
  text_eq : x.text = p.text
  streamed_eq : x.streamed = p.streamed
  draftServes : x.draft.Serves d.model d.plan d.limit
  targetServes : x.target.Serves t.model plan t.limit
  draftState_eq : x.draft.state = .ofTokens d.model.shape fed
  targetState_eq : x.target.state = .ofTokens t.model.shape fed
  inVocabulary : ∀ id ∈ p.tokens, t.model.inVocabulary id = true

structure IsScored (x : Speculation) (d : Draft) (t : Task) (p : Progress) (plan : FaultPlan)
    (draftScores : List Float32) : Prop
    extends Tracks x d t p plan (t.history p.tokens) where
  phase_eq : x.phase = .scored draftScores (t.model.scoresAfter (t.history p.tokens))

structure IsPending (x : Speculation) (d : Draft) (t : Task) (p : Progress) (plan : FaultPlan)
    (earlier : List TokenId) (last : TokenId) : Prop
    extends Tracks x d t p plan (t.history earlier) where
  phase_eq : x.phase = .pending last last
  split_eq : p.tokens = earlier ++ [last]

structure HasFinished (x : Speculation) (t : Task) (r : Progress × FinishReason) : Prop where
  phase_eq : x.phase = .finished r.2
  codec_eq : x.codec = t.codec
  tokens_eq : x.tokens = r.1.tokens
  text_eq : x.text = r.1.text
  streamed_eq : x.streamed = r.1.streamed

variable {x : Speculation}

theorem Tracks.hasFinished (h : x.Tracks d t p plan fed) (reason : FinishReason)
    : ({ x with phase := .finished reason } : Speculation).HasFinished t (p, reason) :=
  ⟨rfl, h.codec_eq, h.tokens_eq, h.text_eq, h.streamed_eq⟩

theorem choose_of_tracks (ht : t.IsSound) (hd : d.Suits t)
    (h : x.Tracks d t p plan (t.history p.tokens)) (draftScores : List Float32)
    : HasChosen t (fun p x => ∃ earlier last, x.IsPending d t p plan earlier last)
        (fun r x => x.HasFinished t r) p
        (x.choose draftScores (t.model.scoresAfter (t.history p.tokens))).2 := by
  have hselect : t.select p.sampler p.tokens
      = ((argmax (t.model.scoresAfter (t.history p.tokens)) : TokenId), p.sampler) := by
    rw [Task.select_eq ht h.inVocabulary, Sampler.select, hd.greedy]
    rfl
  have hvocabulary := Task.inVocabulary_select ht h.inVocabulary p.sampler
  unfold HasChosen
  rw [hselect] at hvocabulary ⊢
  have hchoose := x.choose_of_decodes (h.codec_eq ▸ ht.decodes) draftScores
    (t.model.scoresAfter (t.history p.tokens))
  have hcontains (id : TokenId) : x.config.eosTokenIds.contains id = t.config.isEos id := by
    rw [h.eosTokenIds_eq]
    rfl
  have htracks : (x.committed draftScores (t.model.scoresAfter (t.history p.tokens))).Tracks d t
      (p.add ((argmax (t.model.scoresAfter (t.history p.tokens)) : TokenId), p.sampler)) plan
      (t.history p.tokens) := by
    refine ⟨h.codec_eq, h.policy_eq, h.maxIterations_eq, h.eosTokenIds_eq, ?_, ?_, h.text_eq,
      h.streamed_eq, h.draftServes, h.targetServes, h.draftState_eq, h.targetState_eq,
      Progress.forall_mem_add h.inVocabulary hvocabulary⟩
    . simp [committed, AgreementStats.count, Progress.add, h.iterations_eq]
    . simp [committed, Progress.add, h.tokens_eq, h.policy_eq, VerificationPolicy.commit]
  -- What the draft proposes is counted, and has no part in anything else.
  generalize x.committed draftScores (t.model.scoresAfter (t.history p.tokens)) = x'
    at hchoose htracks
  rw [h.policy_eq] at hchoose
  dsimp only [VerificationPolicy.commit] at hchoose
  generalize (argmax (t.model.scoresAfter (t.history p.tokens)) : TokenId) = token
    at hchoose htracks ⊢
  rcases hchoose with ⟨chunk, hchoose⟩
  rw [hchoose, hcontains]
  by_cases hstop : t.config.isEos token = true
  . rw [if_pos hstop, if_pos hstop]
    exact htracks.hasFinished .stop
  . rw [if_neg hstop, if_neg hstop]
    refine ⟨p.tokens, token, ⟨htracks.codec_eq, htracks.policy_eq, htracks.maxIterations_eq,
      htracks.eosTokenIds_eq, htracks.iterations_eq, htracks.tokens_eq, ?_, ?_,
      htracks.draftServes, htracks.targetServes, htracks.draftState_eq, htracks.targetState_eq,
      htracks.inVocabulary⟩, rfl, rfl⟩
    . simp [Progress.reveal, Progress.add, h.text_eq, h.streamed_eq, h.codec_eq]
    . simp [Progress.reveal, Progress.add, h.streamed_eq, h.codec_eq]

/-! ## The next token -/

theorem next_of_exhausted (h : x.Tracks d t p plan fed) (hrunning : x.isRunning = true)
    (hmax : t.config.maxNewTokens ≤ p.tokens.length)
    : x.next false = (none, { x with phase := .finished .length }, false) := by
  apply next_of_isExhausted hrunning
  simpa [isExhausted, h.maxIterations_eq, h.iterations_eq] using hmax

theorem isExhausted_of_tracks (h : x.Tracks d t p plan fed)
    (hmax : p.tokens.length < t.config.maxNewTokens) : x.isExhausted = false := by
  simpa [isExhausted, h.maxIterations_eq, h.iterations_eq] using hmax

theorem next_of_pending {earlier : List TokenId} {last : TokenId} (ht : t.IsSound)
    (hd : d.Suits t) (h : x.IsPending d t p plan earlier last)
    (hmax : p.tokens.length < t.config.maxNewTokens)
    : ∃ chunk x', x.next false = (chunk, x', false)
        ∧ if t.limit.filter (· < (t.history p.tokens).length) = none then
            HasChosen t (fun p x => ∃ earlier last, x.IsPending d t p plan earlier last)
              (fun r x => x.HasFinished t r) p x'
          else x'.HasFinished t (p, .contextLimitReached) := by
  have hfed := Task.history_ne_nil ht earlier
  have hlast : t.model.inVocabulary last = true := by
    apply h.inVocabulary
    simp [h.split_eq]
  have hhistory : t.history p.tokens = t.history earlier ++ [last] := by
    rw [h.split_eq, Task.history_append]
  have hlength : (t.history p.tokens).length = (t.history earlier).length + 1 := by
    simp [hhistory]
  have hfeed := feed_decodeStep ⟨h.draftServes, h.draftState_eq⟩ ⟨h.targetServes, h.targetState_eq⟩
    hd.runnable.isPositive ht.runnable.isPositive hfed hfed ((hd.inVocabulary last).trans hlast)
    hlast
  rcases hfeed with ⟨phase, draft, target, hfeed, hcases⟩
  rw [hlength]
  unfold next
  rw [isExhausted_of_tracks h.toTracks hmax, h.phase_eq]
  dsimp only
  rw [hfeed]
  -- Both sessions hold the same number of tokens, so that a draft without room has a target without
  -- room.
  cases hroom : t.limit.filter (· < (t.history earlier).length + 1) with
  | some bound =>
    rw [if_neg fun hfits => Option.some_ne_none bound (hroom.symm.trans hfits.2)] at hcases
    cases hcases
    refine ⟨_, _, rfl, ?_⟩
    rw [if_neg (by simp)]
    exact ⟨rfl, h.codec_eq, h.tokens_eq, h.text_eq, h.streamed_eq⟩
  | none =>
    rw [if_pos ⟨hd.filter_limit hroom, hroom⟩] at hcases
    rcases hcases with ⟨rfl, hdraft, htarget⟩
    dsimp only
    rw [← hhistory] at hdraft htarget ⊢
    refine ⟨_, _, rfl, ?_⟩
    rw [if_pos rfl]
    apply choose_of_tracks ht hd
    exact ⟨h.codec_eq, h.policy_eq, h.maxIterations_eq, h.eosTokenIds_eq, h.iterations_eq,
      h.tokens_eq, h.text_eq, h.streamed_eq, hdraft.serves, htarget.serves, hdraft.state_eq,
      htarget.state_eq, h.inVocabulary⟩

/-! ## Whole runs that follow the target -/

theorem produces_of_suits (ht : t.IsSound) (hd : d.Suits t) (plan : FaultPlan)
    : Produces t (fun p x => ∃ earlier last, x.IsPending d t p plan earlier last)
        (fun r x => x.HasFinished t r) where
  running := by
    rintro p x ⟨earlier, last, hx⟩
    simp [isRunning, hx.phase_eq]
  ended := by
    intro r x hx
    simp [isRunning, hx.phase_eq]
  next_of_spent := by
    rintro p x ⟨earlier, last, hx⟩ hmax
    exact ⟨_, _, next_of_exhausted hx.toTracks (by simp [isRunning, hx.phase_eq]) hmax,
      hx.toTracks.hasFinished .length⟩
  next_of_pending := by
    rintro p x ⟨earlier, last, hx⟩ hmax
    exact next_of_pending ht hd hx hmax

def Yields (x : Speculation) (limit : Nat) (t : Task) (r : Progress × FinishReason) : Prop :=
  ∀ chunks, ∃ chunks' x', x.run (fun _ => false) limit chunks false = (chunks', x', false)
    ∧ x'.HasFinished t r

theorem yields_of_scored {draftScores : List Float32} {fuel : Nat} (ht : t.IsSound)
    (hd : d.Suits t) (hx : x.IsScored d t p plan draftScores)
    (hfuel : fuel = t.config.maxNewTokens - p.tokens.length)
    : x.Yields (fuel + 1) t (t.run fuel p) := by
  have hrunning : x.isRunning = true := by simp [isRunning, hx.phase_eq]
  apply (produces_of_suits ht hd plan).endsIn_of_start hrunning _ _ hfuel
  . intro hmax
    exact ⟨_, _, next_of_exhausted hx.toTracks hrunning hmax, hx.toTracks.hasFinished .length⟩
  . intro hmax
    have hnext := next_of_phase (isExhausted_of_tracks hx.toTracks hmax) hx.phase_eq false
    exact ⟨_, _, hnext, choose_of_tracks ht hd hx.toTracks draftScores⟩

end Speculation

end TextGen
