import TextGen.Generation.Basic
import TextGen.Proofs.Generation.Task

/-!
This module contains the steps of a generation. The session has been fed everything but the last
token that was chosen, and so a step chooses what its task says.
-/

namespace TextGen

namespace Generation

structure Tracks (g : Generation) (t : Task) (p : Progress) (plan : FaultPlan)
    (fed : List TokenId) : Prop where
  codec_eq : g.codec = t.codec
  config_eq : g.config = t.config
  sampler_eq : g.sampler = p.sampler
  tokens_eq : g.tokens = p.tokens
  text_eq : g.text = p.text
  streamed_eq : g.streamed = p.streamed
  serves : g.session.Serves t.model plan t.limit
  state_eq : g.session.state = .ofTokens t.model.shape fed
  inVocabulary : ∀ id ∈ p.tokens, t.model.inVocabulary id = true

structure IsScored (g : Generation) (t : Task) (p : Progress) (plan : FaultPlan) : Prop
    extends Tracks g t p plan (t.history p.tokens) where
  phase_eq : g.phase = .scored (t.model.scoresAfter (t.history p.tokens))

structure IsPending (g : Generation) (t : Task) (p : Progress) (plan : FaultPlan)
    (earlier : List TokenId) (last : TokenId) : Prop
    extends Tracks g t p plan (t.history earlier) where
  phase_eq : g.phase = .pending last
  split_eq : p.tokens = earlier ++ [last]

structure HasFinished (g : Generation) (t : Task) (r : Progress × FinishReason)
    (plan : FaultPlan) : Prop where
  phase_eq : g.phase = .finished r.2
  tokens_eq : g.tokens = r.1.tokens
  text_eq : g.text = r.1.wholeText t.codec
  serves : g.session.Serves t.model plan t.limit

variable {g : Generation} {t : Task} {p : Progress} {plan : FaultPlan} {fed : List TokenId}

theorem Tracks.hasFinished (h : g.Tracks t p plan fed) (reason : FinishReason)
    : (g.finish reason).HasFinished t (p, reason) plan where
  phase_eq := rfl
  tokens_eq := h.tokens_eq
  text_eq := by
    show g.text ++ _ = p.text ++ p.streamed.tail t.codec
    rw [h.text_eq, h.streamed_eq, h.codec_eq]
    rfl
  serves := h.serves.reset

theorem choose_of_tracks (ht : t.IsSound) (h : g.Tracks t p plan (t.history p.tokens))
    : ∃ event g', g.choose (t.model.scoresAfter (t.history p.tokens)) = (.ok event, g')
        ∧ g'.session.engine.calls = g.session.engine.calls
        ∧ if t.config.isEos (t.select p.sampler p.tokens).1 then
            g'.HasFinished t (p.add (t.select p.sampler p.tokens), .stop) plan
          else
            g'.IsPending t ((p.add (t.select p.sampler p.tokens)).reveal t.codec
              (t.select p.sampler p.tokens).1) plan p.tokens (t.select p.sampler p.tokens).1 := by
  have hfed := Session.tokens_of_state h.state_eq
  have hselect : g.sampler.select (t.model.scoresAfter (t.history p.tokens)) g.session.tokens
      g.config = t.select p.sampler p.tokens := by
    rw [Task.select_eq ht h.inVocabulary, h.sampler_eq, h.config_eq, hfed]
  have hvocabulary := Task.inVocabulary_select ht h.inVocabulary p.sampler
  unfold choose
  rw [hselect]
  generalize t.select p.sampler p.tokens = choice at hvocabulary ⊢
  have htracks : ({ g with
      sampler := choice.2, tokens := g.tokens ++ [choice.1] } : Generation).Tracks t
        (p.add choice) plan (t.history p.tokens) := by
    refine ⟨h.codec_eq, h.config_eq, rfl, ?_, h.text_eq, h.streamed_eq, h.serves, h.state_eq,
      Progress.forall_mem_add h.inVocabulary hvocabulary⟩
    simp [Progress.add, h.tokens_eq]
  rw [← h.config_eq]
  dsimp only
  by_cases hstop : g.config.isEos choice.1 = true
  . rw [if_pos hstop]
    refine ⟨_, _, rfl, rfl, ?_⟩
    rw [if_pos hstop]
    exact htracks.hasFinished .stop
  . rw [if_neg hstop]
    rcases IncrementalText.put_of_decodes ht.decodes p.streamed choice.1 with
      ⟨chunk, hput, hshown⟩
    rw [h.codec_eq, h.streamed_eq, hput]
    dsimp only
    refine ⟨_, _, rfl, rfl, ?_⟩
    rw [if_neg hstop]
    constructor
    . constructor
      . rfl
      . exact h.config_eq
      . rfl
      . exact htracks.tokens_eq
      . simp [Progress.reveal, Progress.add, h.text_eq, hshown]
      . rfl
      . exact h.serves
      . exact h.state_eq
      . exact htracks.inVocabulary
    . rfl
    . rfl

/-! ## The prompt -/

theorem start_of_serves {session : Session} (ht : t.IsSound)
    (hserves : session.Serves t.model plan t.limit)
    (hfits : ∀ bound, t.limit = some bound → t.prompt.length ≤ bound) (sampler : Sampler)
    : ∃ g, start session t.codec t.config sampler t.prompt false = (.ok (), g, false)
        ∧ g.IsScored t (.initial sampler) plan
        ∧ g.session.engine.calls = session.engine.calls + 1 := by
  rcases Session.prefill_of_vocabulary hserves ht.runnable.isPositive ht.prompt_ne_nil
      (Session.filter_limit_eq_none hfits) (Task.find?_prompt ht) with
    ⟨hresult, hflag, hafter, hstate, hcalls⟩
  have hhistory : t.history (Progress.initial sampler).tokens = t.prompt := t.history_nil
  unfold start
  dsimp only
  rw [hresult, hflag]
  dsimp only
  refine ⟨_, rfl, ⟨⟨rfl, rfl, rfl, rfl, rfl, rfl, hafter, ?_, ?_⟩, ?_⟩, hcalls⟩
  . rw [hhistory]
    exact hstate
  . simp [Progress.initial]
  . rw [hhistory]

/-! ## The next token -/

theorem stopReason?_of_tracks (h : g.Tracks t p plan fed)
    : g.stopReason? .lowered
        =
      if t.config.maxNewTokens ≤ p.tokens.length then some .length else none := by
  unfold stopReason?
  rw [h.config_eq, h.tokens_eq]
  rfl

theorem next_of_ended (hended : g.isRunning = false) (handle : StopHandle)
    : g.next handle = (none, g, handle) := by
  unfold next
  cases hphase : g.phase with
  | finished reason => rfl
  | failed => rfl
  | scored logits => simp [isRunning, hphase] at hended
  | pending token => simp [isRunning, hphase] at hended

theorem next_of_stopReason? {handle : StopHandle} {reason : FinishReason}
    (hrunning : g.isRunning = true) (hreason : g.stopReason? handle = some reason)
    : g.next handle = (none, g.finish reason, handle) := by
  unfold next
  rw [hreason]
  cases hphase : g.phase with
  | finished reason => simp [isRunning, hphase] at hrunning
  | failed => simp [isRunning, hphase] at hrunning
  | scored logits => rfl
  | pending token => rfl

theorem next_of_exhausted (h : g.Tracks t p plan fed) (hrunning : g.isRunning = true)
    (hmax : t.config.maxNewTokens ≤ p.tokens.length)
    : g.next .lowered = (none, g.finish .length, .lowered) := by
  have hstop : g.stopReason? .lowered = some .length := by
    rw [stopReason?_of_tracks h, if_pos hmax]
  exact next_of_stopReason? hrunning hstop

theorem next_of_scored (h : g.IsScored t p plan) (hmax : p.tokens.length < t.config.maxNewTokens)
    : g.next .lowered
        =
      (some (g.choose (t.model.scoresAfter (t.history p.tokens))).1,
        (g.choose (t.model.scoresAfter (t.history p.tokens))).2, .lowered) := by
  have hstop : g.stopReason? .lowered = none := by
    rw [stopReason?_of_tracks h.toTracks, if_neg (by omega)]
  unfold next
  rw [hstop, h.phase_eq]

theorem next_of_pending {earlier : List TokenId} {last : TokenId} (ht : t.IsSound)
    (h : g.IsPending t p plan earlier last) (hmax : p.tokens.length < t.config.maxNewTokens)
    : match t.limit.filter (· < (t.history p.tokens).length) with
      | some _ => g.next .lowered = (none, g.finish .contextLimitReached, .lowered)
      | none =>
        ∃ g' : Generation, g'.Tracks t p plan (t.history p.tokens)
          ∧ g'.session.engine.calls = g.session.engine.calls + 1
          ∧ g.next .lowered
              =
            (some (g'.choose (t.model.scoresAfter (t.history p.tokens))).1,
              (g'.choose (t.model.scoresAfter (t.history p.tokens))).2, .lowered) := by
  have hstop : g.stopReason? .lowered = none := by
    rw [stopReason?_of_tracks h.toTracks, if_neg (by omega)]
  have hlast : t.model.inVocabulary last = true := by
    apply h.inVocabulary
    simp [h.split_eq]
  have hhistory : t.history p.tokens = t.history earlier ++ [last] := by
    rw [h.split_eq, Task.history_append]
  have hlength : (t.history p.tokens).length = (t.history earlier).length + 1 := by
    simp [hhistory]
  have hlowered : StopHandle.lowered.cancelled = false := rfl
  rw [hlength]
  unfold next
  rw [hstop, h.phase_eq, hlowered]
  rcases Session.decodeStep_of_serves h.serves ht.runnable.isPositive h.state_eq
      (Task.history_ne_nil ht earlier) hlast with
    ⟨bound, hexceeds, hstep⟩ | ⟨hroom, hresult, hflag, hserves, hstate, hcalls⟩
  . rw [hexceeds]
    dsimp only
    rw [hstep]
    rfl
  . rw [hroom]
    dsimp only
    rw [hresult, hflag, hhistory]
    refine ⟨{ g with
      session := (g.session.decodeStep last false).session
      phase := .pending last
      feedbacks := g.feedbacks + 1 }, ?_, hcalls, rfl⟩
    exact ⟨h.codec_eq, h.config_eq, h.sampler_eq, h.tokens_eq, h.text_eq, h.streamed_eq, hserves,
      hstate, h.inVocabulary⟩

end Generation

end TextGen
