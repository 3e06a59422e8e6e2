import TextGen.Proofs.Generation.Lifecycle
import TextGen.Proofs.Speculative.Transparency

/-!
This module contains what a speculative generation leaves behind, whatever its sessions and its
codec do: empty sessions, a history of exactly the tokens that were committed, and counts, text and
reason that fit them.
-/

namespace TextGen

structure Round where
  draftScores : List Float32
  targetScores : List Float32

namespace Round

def proposed (r : Round) : TokenId := argmax r.draftScores

def predicted (r : Round) : TokenId := argmax r.targetScores

def agrees (r : Round) : Bool := r.proposed = r.predicted

def committed (r : Round) (policy : VerificationPolicy) : TokenId :=
  (policy.commit r.proposed r.predicted).1

end Round

namespace Speculation

/-! ## Rounds -/

def round? (s : Speculation) (cancelled : Bool) : Option Round :=
  match s.phase, s.isExhausted with
  | .scored draftScores targetScores, false => some ⟨draftScores, targetScores⟩
  | .pending draftInput targetInput, false =>
    match (feed s.draft s.target (·.decodeStep draftInput ·) (·.decodeStep targetInput ·)
        cancelled).1 with
    | .scored draftScores targetScores => some ⟨draftScores, targetScores⟩
    | _ => none
  | _, _ => none

def rounds (cancelsAt : List String → Bool) (limit : Nat) (chunks : List String) (s : Speculation)
    (cancelled : Bool) : List Round :=
  match limit with
  | 0 => []
  | limit + 1 =>
    if !s.isRunning then []
    else
      (s.round? cancelled).toList
        ++
      match s.next cancelled with
      | (none, s, cancelled) => rounds cancelsAt limit chunks s cancelled
      | (some chunk, s, cancelled) =>
        let chunks := chunk :: chunks
        rounds cancelsAt limit chunks s (cancelled || cancelsAt chunks)

inductive Iterates (s : Speculation) : Option Round → Option String → Speculation → Prop
  | exhausted (hexhausted : s.isExhausted = true)
    : Iterates s none none { s with phase := .finished .length }
  | refused (draft target : Session) (e : SessionError)
    : Iterates s none none { s with draft, target, phase := .ofError e }
  | chosen (draft target : Session) (phase : SpeculationPhase) (r : Round)
    (hexhausted : s.isExhausted = false)
    : Iterates s (some r)
        ({ s with draft, target, phase }.choose r.draftScores r.targetScores).1
        ({ s with draft, target, phase }.choose r.draftScores r.targetScores).2

theorem ofError_ne_scored (e : SessionError) (draftScores targetScores : List Float32)
    : SpeculationPhase.ofError e ≠ .scored draftScores targetScores := by
  unfold SpeculationPhase.ofError
  cases e.finishReason? <;> simp

variable {s : Speculation} {cancelled : Bool}

theorem iterates_next (hrunning : s.isRunning = true) (cancelled : Bool)
    : s.Iterates (s.round? cancelled) (s.next cancelled).1 (s.next cancelled).2.1 := by
  unfold isRunning at hrunning
  unfold next round?
  cases hexhausted : s.isExhausted with
  | true =>
    cases hphase : s.phase with
    | finished reason => simp [hphase] at hrunning
    | failed e => simp [hphase] at hrunning
    | scored draftScores targetScores => exact .exhausted hexhausted
    | pending draftInput targetInput => exact .exhausted hexhausted
  | false =>
    cases hphase : s.phase with
    | finished reason => simp [hphase] at hrunning
    | failed e => simp [hphase] at hrunning
    | scored draftScores targetScores =>
      exact .chosen s.draft s.target s.phase ⟨draftScores, targetScores⟩ hexhausted
    | pending draftInput targetInput =>
      dsimp only
      have hfed := feed_cases s.draft s.target (·.decodeStep draftInput ·)
        (·.decodeStep targetInput ·) cancelled
      generalize feed s.draft s.target (·.decodeStep draftInput ·) (·.decodeStep targetInput ·)
        cancelled = fed at hfed ⊢
      rcases fed with ⟨phase, draft, target, cancelled⟩
      dsimp only at hfed ⊢
      rcases hfed with ⟨draftScores, targetScores, hscored⟩ | ⟨e, hfailed⟩
      . rw [hscored]
        exact .chosen draft target _ ⟨draftScores, targetScores⟩ hexhausted
      . have hrefused := Iterates.refused (s := s) draft target e
        rw [← hfailed] at hrefused
        cases phase with
        | scored draftScores targetScores => exact absurd hfailed.symm (ofError_ne_scored e _ _)
        | pending draftInput targetInput => exact hrefused
        | finished reason => exact hrefused
        | failed error => exact hrefused

/-! ## What an iteration leaves -/

def EndsWithEos (config : SpeculativeConfig) (tokens : List TokenId) : Prop :=
  ∃ earlier last, tokens = earlier ++ [last]
    ∧ last ∈ config.eosTokenIds
    ∧ ∀ id ∈ earlier, id ∉ config.eosTokenIds

inductive HasStopped (config : SpeculativeConfig) (tokens : List TokenId) : SpeculationPhase → Prop
  | stop (h : EndsWithEos config tokens) : HasStopped config tokens (.finished .stop)
  | length (hcount : tokens.length = config.maxIterations)
    (hnone : ∀ id ∈ tokens, id ∉ config.eosTokenIds)
    : HasStopped config tokens (.finished .length)
  | other (phase : SpeculationPhase) (hstop : phase ≠ .finished .stop)
    (hlength : phase ≠ .finished .length) (hnone : ∀ id ∈ tokens, id ∉ config.eosTokenIds)
    : HasStopped config tokens phase

structure Tallies (rounds : List Round) (config : SpeculativeConfig) (tokens : List TokenId)
    (stats : AgreementStats) : Prop where
  tokens_eq : tokens = rounds.map (·.committed config.policy)
  iterations_eq : stats.iterations = rounds.length
  agreed_eq : stats.agreed = rounds.countP (·.agrees)
  disagreed_eq : stats.disagreed = rounds.countP fun r => !r.agrees
  le_max : rounds.length ≤ config.maxIterations

/--
Everything that a generation keeps fits the rounds and the chunks of text so far, the last chunk
first.
-/
structure HasKept (s : Speculation) (config : SpeculativeConfig) (prompt : List TokenId)
    (rounds : List Round) (chunks : List String) : Prop where
  config_eq : s.config = config
  prompt_eq : s.prompt = prompt
  tallies : Tallies rounds config s.tokens s.stats
  text_eq : s.text = String.join chunks.reverse
  hasStopped : HasStopped config s.tokens s.phase

variable {config : SpeculativeConfig} {prompt tokens : List TokenId} {stats : AgreementStats}
variable {rounds : List Round} {chunks : List String} {s' : Speculation} {round : Option Round}
variable {chunk : Option String}

theorem HasStopped.of_running (h : HasStopped config tokens s.phase) (hrunning : s.isRunning = true)
    : ∀ id ∈ tokens, id ∉ config.eosTokenIds := by
  unfold isRunning at hrunning
  generalize s.phase = phase at h hrunning
  cases h with
  | stop hends => simp at hrunning
  | length hcount hnone => exact hnone
  | other phase hstop hlength hnone => exact hnone

theorem HasStopped.stop_iff {reason : FinishReason}
    (h : HasStopped config tokens (.finished reason))
    : reason = .stop ↔ EndsWithEos config tokens := by
  have hnot (hnone : ∀ id ∈ tokens, id ∉ config.eosTokenIds) : ¬EndsWithEos config tokens := by
    rintro ⟨earlier, last, rfl, hlast, _⟩
    exact hnone last (by simp) hlast
  cases h with
  | stop hends => simp [hends]
  | length hcount hnone => simp [hnot hnone]
  | other phase hstop hlength hnone => simpa [hnot hnone] using hstop

theorem HasStopped.length_eq (h : HasStopped config tokens (.finished .length))
    : tokens.length = config.maxIterations := by
  cases h with
  | length hcount hnone => exact hcount
  | other phase hstop hlength hnone => exact absurd rfl hlength

theorem hasStopped_ofError (e : SessionError) (hnone : ∀ id ∈ tokens, id ∉ config.eosTokenIds)
    : HasStopped config tokens (.ofError e) := by
  apply HasStopped.other
  . unfold SpeculationPhase.ofError SessionError.finishReason?
    split <;> simp
  . unfold SpeculationPhase.ofError SessionError.finishReason?
    split <;> simp
  . exact hnone

theorem Tallies.length_eq (h : Tallies rounds config tokens stats)
    : tokens.length = rounds.length := by
  rw [h.tokens_eq, List.length_map]

theorem Tallies.add (h : Tallies rounds config tokens stats) (r : Round)
    (hlt : rounds.length < config.maxIterations)
    : Tallies (rounds ++ [r]) config (tokens ++ [r.committed config.policy])
        (stats.count r.agrees) := by
  unfold AgreementStats.count
  constructor
  . simp [h.tokens_eq]
  . simp [h.iterations_eq]
  . cases hagrees : r.agrees <;> simp [h.agreed_eq, hagrees]
  . cases hagrees : r.agrees <;> simp [h.disagreed_eq, hagrees]
  . rw [List.length_append]
    exact hlt

theorem HasKept.isExhausted_eq (h : s.HasKept config prompt rounds chunks)
    : s.isExhausted = decide (config.maxIterations ≤ rounds.length) := by
  unfold isExhausted
  rw [h.config_eq, h.tallies.iterations_eq]

theorem HasKept.iterates (h : s.HasKept config prompt rounds chunks) (hrunning : s.isRunning = true)
    (hnext : s.Iterates round chunk s')
    : s'.HasKept config prompt (rounds ++ round.toList) (chunk.toList ++ chunks) := by
  have hnone := h.hasStopped.of_running hrunning
  cases hnext with
  | exhausted hexhausted =>
    rw [h.isExhausted_eq, decide_eq_true_eq] at hexhausted
    have hcount : s.tokens.length = config.maxIterations :=
      h.tallies.length_eq.trans (Nat.le_antisymm h.tallies.le_max hexhausted)
    simp only [Option.toList_none, List.append_nil, List.nil_append]
    exact ⟨h.config_eq, h.prompt_eq, h.tallies, h.text_eq, .length hcount hnone⟩
  | refused draft target e =>
    simp only [Option.toList_none, List.append_nil, List.nil_append]
    exact ⟨h.config_eq, h.prompt_eq, h.tallies, h.text_eq, hasStopped_ofError e hnone⟩
  | chosen draft target phase r hexhausted =>
    rw [h.isExhausted_eq, decide_eq_false_iff_not, Nat.not_le] at hexhausted
    have hconfig := h.config_eq
    subst hconfig
    have htallies := h.tallies.add r hexhausted
    have hadded (hstop : s.config.eosTokenIds.contains (r.committed s.config.policy) = false)
        : ∀ id ∈ s.tokens ++ [r.committed s.config.policy], id ∉ s.config.eosTokenIds := by
      intro id hid
      rcases List.mem_append.mp hid with hearlier | hlast
      . exact hnone id hearlier
      . rw [List.mem_singleton.mp hlast]
        simpa using hstop
    rcases choose_cases { s with draft, target, phase } r.draftScores r.targetScores with
      ⟨hstop, hchoose⟩ | ⟨hstop, e, streamed, _, hchoose⟩ | ⟨hstop, chunk, streamed, _, hchoose⟩
    . rw [hchoose]
      refine ⟨rfl, h.prompt_eq, htallies, h.text_eq, .stop ⟨s.tokens, _, rfl, ?_, hnone⟩⟩
      simpa using hstop
    . rw [hchoose]
      exact ⟨rfl, h.prompt_eq, htallies, h.text_eq, .other _ (by simp) (by simp) (hadded hstop)⟩
    . rw [hchoose]
      refine ⟨rfl, h.prompt_eq, htallies, ?_, .other _ (by simp) (by simp) (hadded hstop)⟩
      cases chunk <;> simp [h.text_eq]

/-! ## Whole runs -/

variable {cancelsAt : List String → Bool} {limit : Nat}

theorem HasKept.run (h : s.HasKept config prompt rounds chunks) (cancelsAt : List String → Bool)
    (limit : Nat) (cancelled : Bool)
    : (s.run cancelsAt limit chunks cancelled).2.1.HasKept config prompt
        (rounds ++ s.rounds cancelsAt limit chunks cancelled)
        (s.run cancelsAt limit chunks cancelled).1 := by
  induction limit generalizing s cancelled rounds chunks with
  | zero => simpa [Speculation.run, Speculation.rounds] using h
  | succ limit ih =>
    unfold Speculation.run Speculation.rounds
    cases hrunning : s.isRunning with
    | false => simpa using h
    | true =>
      have hnext := h.iterates hrunning (iterates_next hrunning cancelled)
      generalize s.round? cancelled = round at hnext ⊢
      generalize s.next cancelled = step at hnext ⊢
      rcases step with ⟨_ | chunk, s', cancelled'⟩
      . have hrest := ih hnext cancelled'
        rw [List.append_assoc] at hrest
        exact hrest
      . have hrest := ih hnext (cancelled' || cancelsAt (chunk :: chunks))
        rw [List.append_assoc] at hrest
        exact hrest

theorem Iterates.budget_lt (h : s.Iterates round chunk s') (hstill : s'.isRunning = true)
    : s'.budget < s.budget := by
  cases h with
  | exhausted hexhausted => simp [isRunning] at hstill
  | refused draft target e =>
    unfold SpeculationPhase.ofError isRunning at hstill
    cases hreason : e.finishReason? <;> simp [hreason] at hstill
  | chosen draft target phase r hexhausted =>
    have hroom : s.stats.iterations < s.config.maxIterations := by
      simpa [isExhausted] using hexhausted
    have hbudget : s.config.maxIterations - (s.stats.iterations + 1) < s.budget := by
      unfold budget
      omega
    rcases choose_cases { s with draft, target, phase } r.draftScores r.targetScores with
      ⟨_, hchoose⟩ | ⟨_, e, streamed, _, hchoose⟩ | ⟨_, chunk, streamed, _, hchoose⟩
    . rw [hchoose]
      exact hbudget
    . rw [hchoose]
      exact hbudget
    . rw [hchoose]
      exact hbudget

theorem isRunning_run (hlimit : s.budget < limit)
    : (s.run cancelsAt limit chunks cancelled).2.1.isRunning = false := by
  induction limit generalizing s cancelled chunks with
  | zero => omega
  | succ limit ih =>
    unfold Speculation.run
    cases hrunning : s.isRunning with
    | false => simpa using hrunning
    | true =>
      have hnext := iterates_next hrunning cancelled
      generalize s.next cancelled = step at hnext ⊢
      rcases step with ⟨chunk, s', cancelled'⟩
      have hrest (chunks' : List String) (cancelled'' : Bool)
          : (s'.run cancelsAt limit chunks' cancelled'').2.1.isRunning = false := by
        cases hstill : s'.isRunning with
        | true =>
          have hbudget : s'.budget < s.budget := hnext.budget_lt hstill
          exact ih (by omega)
        | false =>
          rw [run_of_ended hstill]
          exact hstill
      cases chunk with
      | none => exact hrest _ _
      | some chunk => exact hrest _ _

end Speculation

/-! ## What a call leaves -/

namespace Speculator

variable {x : Speculator} {prompt : String} {cancelled : Bool} {cancelsAt : List String → Bool}

def rounds (x : Speculator) (prompt : String) (cancelled : Bool) (cancelsAt : List String → Bool)
    : List Round :=
  match x.start prompt cancelled with
  | .error _ => []
  | .ok (g, cancelled) => g.rounds cancelsAt (g.budget + 1) [] cancelled

structure Fits (output : SpeculativeOutput) (config : SpeculativeConfig) (rounds : List Round)
    (chunks : List String) : Prop where
  tallies : Speculation.Tallies rounds config output.tokens output.stats
  counts_eq : output.stats.agreed + output.stats.disagreed = output.stats.iterations
  iterations_eq : output.stats.iterations = output.tokens.length
  le_max : output.tokens.length ≤ config.maxIterations
  text_eq : output.text = String.join chunks
  stop_iff : output.finishReason = .stop ↔ Speculation.EndsWithEos config output.tokens
  length_eq : output.finishReason = .length → output.tokens.length = config.maxIterations

structure Run.IsBooked (run : Run) (config : SpeculativeConfig) (prompt : List TokenId)
    (rounds : List Round) : Prop where
  draft_isEmpty : run.speculator.draft.IsEmpty
  target_isEmpty : run.speculator.target.IsEmpty
  history_eq : run.speculator.history = prompt ++ rounds.map (·.committed config.policy)
  output : ∀ output, run.result = .ok output →
    run.speculator.history = prompt ++ output.tokens ∧ Fits output config rounds run.chunks

theorem hasKept_start (draft target : Session) (codec : Codec) (config : SpeculativeConfig)
    (ids : List TokenId) (cancelled : Bool)
    : (Speculation.start draft target codec config ids cancelled).1.HasKept config ids [] [] := by
  have hfed := Speculation.feed_cases draft target (·.prefill ids ·) (·.prefill ids ·) cancelled
  unfold Speculation.start
  generalize Speculation.feed draft target (·.prefill ids ·) (·.prefill ids ·) cancelled = fed
    at hfed ⊢
  rcases fed with ⟨phase, draft', target', cancelled'⟩
  refine ⟨rfl, rfl, ⟨rfl, rfl, rfl, rfl, Nat.zero_le _⟩, rfl, ?_⟩
  rcases hfed with ⟨draftScores, targetScores, rfl⟩ | ⟨e, rfl⟩
  . exact .other _ (by simp) (by simp) (by simp)
  . exact Speculation.hasStopped_ofError e (by simp)

variable {g : Speculation} {config : SpeculativeConfig} {ids : List TokenId} {rounds : List Round}
variable {chunks : List String}

theorem fits_of_conclude {tail : String} {output : SpeculativeOutput}
    (h : g.HasKept config ids rounds chunks) (hended : g.isRunning = false)
    (hconclude : conclude g = .ok (tail, output))
    : output.tokens = g.tokens ∧ Fits output config rounds (tail :: chunks).reverse := by
  rcases exists_of_bind hconclude with ⟨reason, hreason, hconclude⟩
  rcases exists_of_bind hconclude with ⟨tail', htail, hconclude⟩
  cases hconclude
  have hphase : g.phase = .finished reason := by
    unfold Speculation.isRunning at hended
    unfold Speculation.ending at hreason
    cases hphase : g.phase with
    | scored draftScores targetScores => simp [hphase] at hended
    | pending draftInput targetInput => simp [hphase] at hended
    | failed e => simp [hphase] at hreason
    | finished reason' =>
      rw [hphase] at hreason
      cases hreason
      rfl
  have htallies := h.tallies
  have hlength := htallies.length_eq
  have hstopped := h.hasStopped
  rw [hphase] at hstopped
  refine ⟨rfl, htallies, ?_, ?_, ?_, ?_, hstopped.stop_iff, ?_⟩
  . rw [htallies.agreed_eq, htallies.disagreed_eq, htallies.iterations_eq]
    simpa using (List.length_eq_countP_add_countP (p := Round.agrees) (l := rounds)).symm
  . exact htallies.iterations_eq.trans hlength.symm
  . exact Nat.le_trans (Nat.le_of_eq hlength) htallies.le_max
  . simp [h.text_eq]
  . rintro rfl
    exact hstopped.length_eq

theorem isBooked_generate (x : Speculator) (prompt : String) (cancelled : Bool)
    (cancelsAt : List String → Bool)
    : let run := x.generate prompt cancelled cancelsAt
      (∀ e, x.codec.encode prompt = .error e → run = ⟨.error (.codec e), [], x, cancelled⟩)
        ∧ ∀ ids, x.codec.encode prompt = .ok ids →
          run.IsBooked x.config ids (x.rounds prompt cancelled cancelsAt) := by
  intro run
  refine ⟨fun e hencode => generate_of_encode_error hencode cancelled cancelsAt, ?_⟩
  intro ids hencode
  have hstarted := hasKept_start x.draft x.target x.codec x.config ids cancelled
  unfold run generate rounds
  rw [start_of_encode hencode]
  dsimp only
  generalize Speculation.start x.draft x.target x.codec x.config ids cancelled = started
    at hstarted ⊢
  rcases started with ⟨g, cancelled⟩
  have hkept := hstarted.run cancelsAt (g.budget + 1) cancelled
  have hended : (g.run cancelsAt (g.budget + 1) [] cancelled).2.1.isRunning = false :=
    Speculation.isRunning_run (Nat.lt_succ_self _)
  dsimp only at hkept ⊢
  generalize g.rounds cancelsAt (g.budget + 1) [] cancelled = rounds at hkept ⊢
  generalize g.run cancelsAt (g.budget + 1) [] cancelled = result at hkept hended ⊢
  rcases result with ⟨chunks, g', cancelled'⟩
  dsimp only at hkept hended ⊢
  have hhistory : g'.history = ids ++ rounds.map (·.committed x.config.policy) := by
    unfold Speculation.history
    rw [hkept.prompt_eq, hkept.tallies.tokens_eq]
    rfl
  cases hconclude : conclude g' with
  | error e =>
    exact ⟨Session.isEmpty_reset _, Session.isEmpty_reset _, hhistory, by simp⟩
  | ok concluded =>
    rcases concluded with ⟨tail, output⟩
    refine ⟨Session.isEmpty_reset _, Session.isEmpty_reset _, hhistory, ?_⟩
    rintro _ ⟨⟩
    rcases fits_of_conclude hkept hended hconclude with ⟨htokens, hfits⟩
    refine ⟨?_, hfits⟩
    rw [htokens]
    exact congrArg (· ++ g'.tokens) hkept.prompt_eq

example
    : let model := BigramModel.ofShape ⟨1, 1, 1, 1⟩
      let codec := (PieceTable.ofPieces [(0, [104])]).codec
      let target := Session.ofCompiled ⟨model, model.shape, .once 2 .fail, none⟩ none
      let x : Speculator := ⟨.ofCompiled (model.compile none) none, target, codec, {}, []⟩
      let run := x.generate "h" false fun _ => false
      (run.result.toOption, run.speculator.history) = (none, [0, 0]) := rfl

end Speculator

end TextGen
