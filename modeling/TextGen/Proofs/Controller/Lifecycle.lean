import TextGen.Proofs.Controller.Generate
import TextGen.Proofs.Generation.Lifecycle

/-!
This module contains the life of a token stream under any calls: it yields events until it ends, it
ends once, and after that the controller is ready again, with an empty session.
-/

namespace TextGen

open StreamEvent

namespace Controller

variable {g g' : Generation}

theorem follow_follow (c : Controller) (h : g.isRunning = true ∨ g' = g)
    : (c.follow g).follow g' = c.follow g' := by
  rcases h with hrunning | rfl
  . rw [c.follow_of_running hrunning]
    rfl
  . unfold follow
    cases g'.phase with
    | finished reason => cases reason <;> rfl
    | failed => rfl
    | scored logits => rfl
    | pending token => rfl

theorem follow_stopHandle (c : Controller) (g : Generation) (handle : StopHandle)
    : { c with stopHandle := handle }.follow g = { c.follow g with stopHandle := handle } := by
  unfold follow
  dsimp only
  split <;> rfl

end Controller

/-! ## Calls -/

inductive StreamCall
  | next
  | stop
  deriving DecidableEq, Repr

namespace TokenStream

def performAll (s : TokenStream) : List StreamCall → List StreamAnswer × TokenStream
  | [] => ([], s)
  | .next :: calls =>
    let (answer, s) := s.next
    let (answers, s) := s.performAll calls
    (answer :: answers, s)
  | .stop :: calls => s.stop.performAll calls

def IsEvent (answer : StreamAnswer) : Prop := ∃ event, answer = some (.ok event)

def eventsOf (answers : List StreamAnswer) : List StreamEvent :=
  answers.filterMap fun answer => answer.bind Except.toOption

def errorOf? (answers : List StreamAnswer) : Option GenerationError :=
  answers.findSome? fun
    | some (.error e) => some e
    | _ => none

variable {s : TokenStream} {c : Controller} {codec : Codec} {config : SamplingConfig}
variable {prompt : List TokenId} {answers : List StreamAnswer} {answer : StreamAnswer}
variable {g : Generation}

structure IsAfter (s : TokenStream) (c : Controller) (codec : Codec) (config : SamplingConfig)
    (prompt : List TokenId) (answers : List StreamAnswer) : Prop where
  isFor : s.generation.IsFor codec config prompt
  hasShown : s.generation.HasShown (eventsOf answers) (errorOf? answers)
  isEvent : s.generation.isRunning = true → ∀ answer ∈ answers, IsEvent answer
  silent : answers.Pairwise fun earlier later => ¬IsEvent earlier → later = none
  controller_eq : s.controller
    = { c.follow s.generation with stopHandle := s.controller.stopHandle }

theorem IsAfter.stop (h : s.IsAfter c codec config prompt answers)
    : s.stop.IsAfter c codec config prompt answers := by
  refine ⟨h.isFor, h.hasShown, h.isEvent, h.silent, ?_⟩
  unfold TokenStream.stop
  dsimp only
  rw [h.controller_eq]

theorem IsAfter.advance_eq (h : s.IsAfter c codec config prompt answers)
    (hg : s.generation.isRunning = true ∨ g = s.generation) (handle : StopHandle)
    : { s with controller.stopHandle := handle }.advance g
        =
      ⟨{ c.follow g with stopHandle := handle }, g⟩ := by
  unfold TokenStream.advance
  dsimp only
  rw [h.controller_eq]
  dsimp only
  rw [Controller.follow_stopHandle, Controller.follow_follow c hg]

theorem IsAfter.next_of_ended (h : s.IsAfter c codec config prompt answers)
    (hended : s.generation.isRunning = false) : s.next = (none, s) := by
  unfold TokenStream.next
  rw [Generation.next_of_ended hended]
  dsimp only
  rw [h.advance_eq (.inr rfl), ← h.controller_eq]

theorem eventsOf_concat (answers : List StreamAnswer) (answer : StreamAnswer)
    : eventsOf (answers ++ [answer])
        =
      eventsOf answers ++ (answer.bind Except.toOption).toList := by
  cases h : answer.bind Except.toOption <;> simp [eventsOf, h]

theorem hasShown_concat (h : g.Continues (eventsOf answers) answer)
    (herror : errorOf? answers = none)
    : g.HasShown (eventsOf (answers ++ [answer])) (errorOf? (answers ++ [answer])) := by
  rw [eventsOf_concat]
  unfold errorOf? at herror ⊢
  rw [List.findSome?_append, herror]
  cases h with
  | finished h => exact .finished (by simpa using h)
  | event h => exact h
  | failed h => exact .failed (by simpa [Except.toOption] using h)

theorem isEvent_of_continues {events : List StreamEvent} (h : g.Continues events answer)
    (hrunning : g.isRunning = true) : IsEvent answer := by
  cases h with
  | finished h => simp [h.isRunning_eq] at hrunning
  | event h => exact ⟨_, rfl⟩
  | failed h => simp [h.isRunning_eq] at hrunning

theorem IsAfter.next (h : s.IsAfter c codec config prompt answers)
    : s.next.2.IsAfter c codec config prompt (answers ++ [s.next.1]) := by
  by_cases hrunning : s.generation.isRunning = true
  . rcases h.hasShown.of_running hrunning with ⟨herror, hcurrent⟩
    have hcontinues := hcurrent.next hrunning s.controller.stopHandle
    have hfor := h.isFor.next s.controller.stopHandle
    unfold TokenStream.next
    generalize s.generation.next s.controller.stopHandle = step at hcontinues hfor
    dsimp only
    rw [h.advance_eq (.inl hrunning)]
    refine ⟨hfor, hasShown_concat hcontinues herror, ?_, ?_, rfl⟩
    . intro hstill answer hanswer
      rcases List.mem_append.mp hanswer with hearlier | hlast
      . exact h.isEvent hrunning answer hearlier
      . rw [List.mem_singleton.mp hlast]
        exact isEvent_of_continues hcontinues hstill
    . rw [List.pairwise_append]
      refine ⟨h.silent, List.pairwise_singleton _ _, ?_⟩
      intro earlier hearlier _ _ hnot
      exact absurd (h.isEvent hrunning earlier hearlier) hnot
  -- An ended stream answers nothing, and what was recorded at its end is not recorded again.
  . rw [Bool.not_eq_true] at hrunning
    rw [h.next_of_ended hrunning]
    refine ⟨h.isFor, ?_, by simp [hrunning], ?_, h.controller_eq⟩
    . simpa [eventsOf, errorOf?] using h.hasShown
    . rw [List.pairwise_append]
      refine ⟨h.silent, List.pairwise_singleton _ _, ?_⟩
      intro _ _ later hlater _
      exact List.mem_singleton.mp hlater

theorem IsAfter.performAll (h : s.IsAfter c codec config prompt answers)
    (calls : List StreamCall)
    : (s.performAll calls).2.IsAfter c codec config prompt
        (answers ++ (s.performAll calls).1) := by
  induction calls generalizing s answers with
  | nil => simpa [TokenStream.performAll] using h
  | cons call calls ih =>
    cases call with
    | next => simpa [TokenStream.performAll] using ih h.next
    | stop => exact ih h.stop

/-! ## The end -/

theorem close_of_ended (hended : s.generation.isRunning = false) : s.close = s := by
  unfold TokenStream.close
  rw [if_neg (by simp [hended])]

theorem isRunning_close (s : TokenStream) : s.close.generation.isRunning = false := by
  by_cases hrunning : s.generation.isRunning = true
  . unfold TokenStream.close
    rw [if_pos hrunning]
    rfl
  . rw [Bool.not_eq_true] at hrunning
    rw [close_of_ended hrunning, hrunning]

theorem intoOutput_close (s : TokenStream) : s.close.intoOutput = s.intoOutput := by
  unfold TokenStream.intoOutput
  rw [close_of_ended s.isRunning_close]

theorem IsAfter.close (h : s.IsAfter c codec config prompt answers)
    : s.close.IsAfter c codec config prompt answers := by
  by_cases hrunning : s.generation.isRunning = true
  . rcases h.hasShown.of_running hrunning with ⟨herror, hcurrent⟩
    have hcomplete := hcurrent.isComplete_finish .cancelled
    have hadvance := h.advance_eq (g := s.generation.finish .cancelled) (.inl hrunning)
      s.controller.stopHandle
    unfold TokenStream.close
    rw [if_pos hrunning, hadvance]
    refine ⟨h.isFor.finish .cancelled, ?_, ?_, h.silent, rfl⟩
    . rw [herror]
      exact .finished hcomplete
    . simp [hcomplete.isRunning_eq]
  . rw [Bool.not_eq_true] at hrunning
    rw [close_of_ended hrunning]
    exact h

structure HasEnded (c : Controller) (codec : Codec) (config : SamplingConfig)
    (prompt : List TokenId) (answers : List StreamAnswer) (output : Output) (after : Controller)
    : Prop where
  tokens_eq : errorOf? answers = none → output.tokens = (eventsOf answers).map (·.token)
  text_eq : errorOf? answers = none →
    ∃ t, IncrementalText.empty.putAll codec (shownTokens config (eventsOf answers))
          = (.ok (shownText (eventsOf answers)), t)
      ∧ output.text = shownText (eventsOf answers) ++ t.tail codec
  text_of_error : errorOf? answers ≠ none → output.text = shownText (eventsOf answers)
  statistics_eq : errorOf? answers = none →
    after.statistics.inputTokenCount = prompt.length
      ∧ after.statistics.generatedTokenCount = output.tokens.length
      ∧ ∃ stats, after.statistics = c.statistics.record stats
  statistics_of_error : errorOf? answers ≠ none → after.statistics = c.statistics
  session_eq : ∃ session, after.session = some session ∧ session.IsEmpty
  status_eq : after.status
    = if errorOf? answers = none ∧ output.finishReason = .cancelled then .stopped else .ready

theorem IsAfter.hasEnded_of_ended (h : s.IsAfter c codec config prompt answers)
    (hcodec : c.codec = some codec) (hended : s.generation.isRunning = false)
    : HasEnded c codec config prompt answers s.intoOutput.1 s.intoOutput.2 := by
  unfold TokenStream.intoOutput
  rw [close_of_ended hended]
  dsimp only
  rw [h.controller_eq]
  have hshown := h.hasShown
  generalize herror : errorOf? answers = error at hshown
  cases hshown with
  | running hrunning _ => simp [hended] at hrunning
  | finished hcomplete =>
    rcases hcomplete.text_eq with ⟨t, hputAll, htext⟩
    rw [h.isFor.codec_eq, h.isFor.config_eq] at hputAll
    rw [h.isFor.codec_eq] at htext
    rw [Controller.follow_of_finished hcodec hcomplete.phase_eq]
    constructor
    . exact fun _ => hcomplete.tokens_eq
    . exact fun _ => ⟨t, hputAll, htext⟩
    . exact fun hne => absurd herror hne
    . exact fun _ => ⟨h.isFor.promptLength_eq, rfl, _, rfl⟩
    . exact fun hne => absurd herror hne
    . exact ⟨_, rfl, hcomplete.isEmpty⟩
    . simp [herror, Generation.finishReason?, hcomplete.phase_eq]
  | failed hbroken =>
    rw [Controller.follow_of_failed hcodec hbroken.phase_eq]
    constructor
    . exact fun hnone => by simp [herror] at hnone
    . exact fun hnone => by simp [herror] at hnone
    . exact fun _ => hbroken.text_eq
    . exact fun hnone => by simp [herror] at hnone
    . exact fun _ => rfl
    . exact ⟨_, rfl, hbroken.isEmpty⟩
    . simp [herror]

/--
A stream answers with events until it ends, and with nothing after an answer that is no event. As
long as it runs its text is that of its events, and once it has ended no call changes it any more.
Dropping it leaves the same controller as turning it into its output.
-/
structure HasLifecycle (s : TokenStream) (c : Controller) (codec : Codec) (config : SamplingConfig)
    (prompt : List TokenId) (answers : List StreamAnswer) : Prop where
  silent : answers.Pairwise fun earlier later => ¬IsEvent earlier → later = none
  running : s.generation.isRunning = true →
    (∀ answer ∈ answers, IsEvent answer)
      ∧ s.generation.text = shownText (eventsOf answers)
      ∧ s.controller.status = .generating
      ∧ s.controller.statistics = c.statistics
  settled : s.generation.isRunning = false → s.next = (none, s) ∧ s.close = s
  hasEnded : HasEnded c codec config prompt answers s.intoOutput.1 s.intoOutput.2
  close_eq : s.close.controller = s.intoOutput.2

theorem IsAfter.hasLifecycle (h : s.IsAfter c codec config prompt answers)
    (hcodec : c.codec = some codec) : s.HasLifecycle c codec config prompt answers := by
  refine ⟨h.silent, ?_, ?_, ?_, rfl⟩
  . intro hrunning
    refine ⟨h.isEvent hrunning, (h.hasShown.of_running hrunning).2.text_eq, ?_⟩
    rw [h.controller_eq, Controller.follow_of_running c hrunning]
    exact ⟨rfl, rfl⟩
  . intro hended
    exact ⟨h.next_of_ended hended, close_of_ended hended⟩
  . rw [← intoOutput_close]
    exact h.close.hasEnded_of_ended hcodec s.isRunning_close

theorem isAfter_start {session : Session} {sampler : Sampler}
    (h : start c session codec prompt config sampler = .ok s)
    : s.IsAfter c codec config prompt [] := by
  unfold start at h
  rcases hstart : Generation.start session codec config sampler prompt false with
    ⟨result, g, cancelled⟩
  rw [hstart] at h
  cases result with
  | error e => simp at h
  | ok done =>
    cases h
    rcases Generation.hasShown_start hstart with ⟨hfor, hshown⟩
    refine ⟨hfor, hshown, by simp, .nil, ?_⟩
    dsimp only
    rw [Controller.follow_stopHandle]

end TokenStream

namespace Controller

open TokenStream

variable {c : Controller} {prompt : String} {config : SamplingConfig} {freshSeed : UInt64}
variable {s : TokenStream}

theorem codec_of_checkReady {session : Session} {codec : Codec}
    (h : c.checkReady = .ok (session, codec)) : c.codec = some codec := by
  unfold checkReady at h
  split at h
  . contradiction
  . contradiction
  . rename_i hcodec
    split at h
    . cases h
      exact hcodec
    . contradiction

theorem exists_start_of_stream (h : c.stream prompt config freshSeed = .ok s)
    : ∃ session codec ids sampler, c.codec = some codec
        ∧ codec.encode prompt = .ok ids
        ∧ start c session codec ids config sampler = .ok s := by
  rcases exists_of_bind h with ⟨⟨session, codec, ids⟩, hprepare, hstart⟩
  rcases exists_of_bind (eq_ok_of_mapError hprepare) with ⟨_, _, hprepare⟩
  rcases exists_of_bind hprepare with ⟨⟨session', codec'⟩, hready, hprepare⟩
  rcases exists_of_bind hprepare with ⟨ids', hencode, hprepare⟩
  cases hprepare
  exact ⟨session, codec, ids, _, codec_of_checkReady hready, eq_ok_of_mapError hencode, hstart⟩

theorem hasLifecycle_of_stream (h : c.stream prompt config freshSeed = .ok s)
    (calls : List StreamCall)
    : ∃ codec ids, c.codec = some codec
        ∧ codec.encode prompt = .ok ids
        ∧ (s.performAll calls).2.HasLifecycle c codec config ids (s.performAll calls).1 := by
  rcases exists_start_of_stream h with ⟨session, codec, ids, sampler, hcodec, hencode, hstart⟩
  exact ⟨codec, ids, hcodec, hencode, ((isAfter_start hstart).performAll calls).hasLifecycle hcodec⟩

def failing : Controller :=
  let model : BigramModel := .ofShape ⟨1, 1, 1, 1⟩
  let backend : Backend := fun _ options =>
    .ok ⟨model, model.shape, .once 2 .fail, options.threadCount⟩
  ((ofConfig {}).loadModel backend "model" none false).2.setTokenizer
    (PieceTable.ofPieces [(0, [104])]).codec

theorem exists_stream_failing : ∃ s, failing.stream "h" .greedy 0 = .ok s := by
  have hok : (failing.stream "h" .greedy 0).isOk = true := rfl
  cases hstream : failing.stream "h" .greedy 0 with
  | error e => simp [hstream, Except.isOk, Except.toBool] at hok
  | ok s => exact ⟨s, rfl⟩

theorem hasLifecycle_failing
    : ∃ s codec ids, failing.stream "h" .greedy 0 = .ok s
        ∧ failing.codec = some codec
        ∧ codec.encode "h" = .ok ids
        ∧ (s.performAll [.next, .next, .next]).2.HasLifecycle failing codec .greedy ids
            (s.performAll [.next, .next, .next]).1 := by
  rcases exists_stream_failing with ⟨s, hstream⟩
  rcases hasLifecycle_of_stream hstream [.next, .next, .next] with ⟨codec, ids, hlife⟩
  exact ⟨s, codec, ids, hstream, hlife⟩

theorem not_forall_text_eq
    : ¬∀ (c : Controller) (prompt : String) (config : SamplingConfig) (freshSeed : UInt64)
        (s : TokenStream) (codec : Codec) (calls : List StreamCall),
        c.stream prompt config freshSeed = .ok s → c.codec = some codec →
          ∃ t, IncrementalText.empty.putAll codec
                (shownTokens config (eventsOf (s.performAll calls).1))
              = (.ok (shownText (eventsOf (s.performAll calls).1)), t)
            ∧ (s.performAll calls).2.intoOutput.1.text
                = shownText (eventsOf (s.performAll calls).1) ++ t.tail codec := by
  intro h
  rcases exists_stream_failing with ⟨s, hstream⟩
  rcases h failing "h" .greedy 0 s _ [.next, .next] hstream rfl with ⟨t, hputAll, htext⟩
  have hrun : (failing.stream "h" .greedy 0).toOption.map (fun s =>
      (eventsOf (s.performAll [.next, .next]).1, (s.performAll [.next, .next]).2.intoOutput.1.text))
        = some ([⟨0, "h"⟩], "h") := rfl
  rw [hstream] at hrun
  simp only [Except.toOption, Option.map_some, Option.some.injEq, Prod.mk.injEq] at hrun
  rw [hrun.1] at hputAll htext
  rw [hrun.2] at htext
  -- The decoder held back no text, but flushing it would still have ended the line.
  have ht : t = ⟨[0], 1⟩ := congrArg Prod.snd hputAll.symm
  rw [ht] at htext
  exact absurd htext (by decide)

end Controller

end TextGen
