import TextGen.Generation.Basic
import TextGen.Proofs.Text.Streaming

/-!
This module contains what a generation has shown and what is left of it, whatever its session and
its codec answer: while it runs its text is that of its events, a generation that finishes adds what
the decoder held back, and one that fails adds nothing.
-/

namespace TextGen

structure Session.IsEmpty (s : Session) : Prop where
  tokens_eq : s.tokens = []
  sequenceLength_eq : s.sequenceLength = 0
  attentionMask_eq : s.attentionMask = []
  positionIds_eq : s.positionIds = []
  layers_eq : ∀ layer ∈ s.cache.layers, layer = Cache.emptyLayer s.cache.shape

theorem Session.isEmpty_reset (s : Session) : s.reset.IsEmpty where
  tokens_eq := rfl
  sequenceLength_eq := rfl
  attentionMask_eq := rfl
  positionIds_eq := rfl
  layers_eq layer hlayer := by
    rcases List.mem_map.mp hlayer with ⟨_, _, rfl⟩
    rfl

abbrev StreamAnswer : Type := Option (Except GenerationError StreamEvent)

namespace StreamEvent

def shownText (events : List StreamEvent) : String := String.join (events.map (·.text))

def shownTokens (config : SamplingConfig) (events : List StreamEvent) : List TokenId :=
  (events.map (·.token)).filter fun token => !config.isEos token

theorem shownText_concat (events : List StreamEvent) (event : StreamEvent)
    : shownText (events ++ [event]) = shownText events ++ event.text := by
  simp [shownText]

theorem shownTokens_concat (config : SamplingConfig) (events : List StreamEvent)
    (event : StreamEvent)
    : shownTokens config (events ++ [event])
        =
      shownTokens config events ++ if config.isEos event.token then [] else [event.token] := by
  by_cases heos : config.isEos event.token = true
  . simp [shownTokens, heos]
  . simp [shownTokens, heos]

end StreamEvent

namespace Generation

open StreamEvent

variable {g : Generation} {events : List StreamEvent} {reason : FinishReason}

/-! ## Where a generation stands after its events -/

structure IsCurrent (g : Generation) (events : List StreamEvent) : Prop where
  tokens_eq : g.tokens = events.map (·.token)
  text_eq : g.text = shownText events
  putAll_eq : IncrementalText.empty.putAll g.codec (shownTokens g.config events)
    = (.ok (shownText events), g.streamed)

structure IsComplete (g : Generation) (events : List StreamEvent) (reason : FinishReason)
    : Prop where
  phase_eq : g.phase = .finished reason
  tokens_eq : g.tokens = events.map (·.token)
  text_eq : ∃ t, IncrementalText.empty.putAll g.codec (shownTokens g.config events)
        = (.ok (shownText events), t)
    ∧ g.text = shownText events ++ t.tail g.codec
  isEmpty : g.session.IsEmpty

structure IsBroken (g : Generation) (events : List StreamEvent) : Prop where
  phase_eq : g.phase = .failed
  text_eq : g.text = shownText events
  isEmpty : g.session.IsEmpty

inductive HasShown (g : Generation) (events : List StreamEvent) : Option GenerationError → Prop
  | running (hrunning : g.isRunning = true) (h : g.IsCurrent events) : HasShown g events none
  | finished {reason : FinishReason} (h : g.IsComplete events reason) : HasShown g events none
  | failed {e : GenerationError} (h : g.IsBroken events) : HasShown g events (some e)

theorem IsComplete.isRunning_eq (h : g.IsComplete events reason) : g.isRunning = false := by
  simp [isRunning, h.phase_eq]

theorem IsBroken.isRunning_eq (h : g.IsBroken events) : g.isRunning = false := by
  simp [isRunning, h.phase_eq]

theorem HasShown.of_running {error : Option GenerationError} (h : g.HasShown events error)
    (hrunning : g.isRunning = true) : error = none ∧ g.IsCurrent events := by
  cases h with
  | running _ h => exact ⟨rfl, h⟩
  | finished h => simp [h.isRunning_eq] at hrunning
  | failed h => simp [h.isRunning_eq] at hrunning

theorem IsCurrent.isComplete_finish (h : g.IsCurrent events) (reason : FinishReason)
    : (g.finish reason).IsComplete events reason where
  phase_eq := rfl
  tokens_eq := h.tokens_eq
  text_eq := ⟨g.streamed, h.putAll_eq, congrArg (· ++ g.streamed.tail g.codec) h.text_eq⟩
  isEmpty := g.session.isEmpty_reset

theorem isBroken_abandon (htext : g.text = shownText events) : g.abandon.IsBroken events :=
  ⟨rfl, htext, g.session.isEmpty_reset⟩

/-! ## Steps -/

inductive Continues (g : Generation) (events : List StreamEvent) : StreamAnswer → Prop
  | finished {reason : FinishReason} (h : g.IsComplete events reason) : Continues g events none
  | event {event : StreamEvent} (h : g.HasShown (events ++ [event]) none)
    : Continues g events (some (.ok event))
  | failed {e : GenerationError} (h : g.IsBroken events) : Continues g events (some (.error e))

theorem IsCurrent.choose (h : g.IsCurrent events) (logits : List Float32)
    : (g.choose logits).2.Continues events (some (g.choose logits).1) := by
  unfold Generation.choose
  generalize g.sampler.select logits g.session.tokens g.config = choice
  dsimp only
  by_cases heos : g.config.isEos choice.1 = true
  . have hcurrent : { g with
        sampler := choice.2, tokens := g.tokens ++ [choice.1] }.IsCurrent
          (events ++ [(⟨choice.1, ""⟩ : StreamEvent)]) := by
      refine ⟨by simp [h.tokens_eq], by simp [shownText_concat, h.text_eq], ?_⟩
      rw [shownTokens_concat, if_pos heos, List.append_nil, shownText_concat, String.append_empty]
      exact h.putAll_eq
    rw [if_pos heos]
    exact .event (.finished (hcurrent.isComplete_finish .stop))
  . rw [if_neg heos]
    rcases hput : g.streamed.put g.codec choice.1 with ⟨result, streamed⟩
    cases result with
    | error e => exact .failed (isBroken_abandon h.text_eq)
    | ok chunk =>
      refine .event (.running rfl ⟨by simp [h.tokens_eq], ?_, ?_⟩)
      . rw [shownText_concat, ← h.text_eq]
      . rw [shownTokens_concat, if_neg heos, shownText_concat]
        exact IncrementalText.putAll_concat h.putAll_eq hput

theorem IsCurrent.next (h : g.IsCurrent events) (hrunning : g.isRunning = true)
    (handle : StopHandle) : (g.next handle).2.1.Continues events (g.next handle).1 := by
  unfold Generation.next
  cases hphase : g.phase with
  | finished reason => simp [isRunning, hphase] at hrunning
  | failed => simp [isRunning, hphase] at hrunning
  | scored logits =>
    cases g.stopReason? handle with
    | some reason => exact .finished (h.isComplete_finish reason)
    | none => exact h.choose logits
  | pending token =>
    cases g.stopReason? handle with
    | some reason => exact .finished (h.isComplete_finish reason)
    | none =>
      dsimp only
      generalize g.session.decodeStep token handle.cancelled = outcome
      cases outcome.result with
      | ok logits =>
        refine IsCurrent.choose ?_ logits
        exact ⟨h.tokens_eq, h.text_eq, h.putAll_eq⟩
      | error e =>
        dsimp only
        cases e.finishReason? with
        | some reason =>
          refine .finished (IsCurrent.isComplete_finish ?_ reason)
          exact ⟨h.tokens_eq, h.text_eq, h.putAll_eq⟩
        | none => exact .failed (isBroken_abandon h.text_eq)

/-! ## What a generation is for -/

structure IsFor (g : Generation) (codec : Codec) (config : SamplingConfig) (prompt : List TokenId)
    : Prop where
  codec_eq : g.codec = codec
  config_eq : g.config = config
  promptLength_eq : g.promptLength = prompt.length

variable {codec : Codec} {config : SamplingConfig} {prompt : List TokenId}

theorem IsFor.finish (h : g.IsFor codec config prompt) (reason : FinishReason)
    : (g.finish reason).IsFor codec config prompt :=
  ⟨h.codec_eq, h.config_eq, h.promptLength_eq⟩

theorem IsFor.choose (h : g.IsFor codec config prompt) (logits : List Float32)
    : (g.choose logits).2.IsFor codec config prompt := by
  unfold Generation.choose
  generalize g.sampler.select logits g.session.tokens g.config = choice
  dsimp only
  split
  . exact ⟨h.codec_eq, h.config_eq, h.promptLength_eq⟩
  . split
    . exact ⟨h.codec_eq, h.config_eq, h.promptLength_eq⟩
    . exact ⟨h.codec_eq, h.config_eq, h.promptLength_eq⟩

theorem IsFor.next (h : g.IsFor codec config prompt) (handle : StopHandle)
    : (g.next handle).2.1.IsFor codec config prompt := by
  unfold Generation.next
  split
  . exact h
  . exact h
  . exact h.finish _
  . exact h.choose _
  . dsimp only
    split
    . refine IsFor.choose ?_ _
      exact ⟨h.codec_eq, h.config_eq, h.promptLength_eq⟩
    . split
      . exact ⟨h.codec_eq, h.config_eq, h.promptLength_eq⟩
      . exact ⟨h.codec_eq, h.config_eq, h.promptLength_eq⟩

theorem hasShown_start {session : Session} {sampler : Sampler} {cancelled cancelled' : Bool}
    (h : start session codec config sampler prompt cancelled = (.ok (), g, cancelled'))
    : g.IsFor codec config prompt ∧ g.HasShown [] none := by
  unfold start at h
  generalize session.prefill prompt cancelled = outcome at h
  dsimp only at h
  cases hresult : outcome.result with
  | ok logits =>
    rw [hresult] at h
    cases h
    exact ⟨⟨rfl, rfl, rfl⟩, .running rfl ⟨rfl, rfl, rfl⟩⟩
  | error e =>
    rw [hresult] at h
    dsimp only at h
    split at h
    -- A prompt that is cancelled finishes the generation before anything is shown.
    . cases h
      refine ⟨⟨rfl, rfl, rfl⟩, .finished (IsCurrent.isComplete_finish ?_ .cancelled)⟩
      exact ⟨rfl, rfl, rfl⟩
    . cases h

end Generation

end TextGen
