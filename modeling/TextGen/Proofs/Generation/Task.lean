import Mathlib.Order.Bounds.Basic
import TextGen.Generation.FinishReason
import TextGen.Proofs.Sampling.Selection
import TextGen.Proofs.Session.Answers
import TextGen.Proofs.Text.Incremental

/-!
This module contains what a generation is to produce, told without feeding anything back: every
token is chosen from the scores of a new session that is prefilled with all tokens before it, and
there is a first number of tokens after which there is a reason to stop.
-/

namespace TextGen

structure Task where
  model : BigramModel
  limit : Option Nat
  codec : Codec
  config : SamplingConfig
  prompt : List TokenId

structure Progress where
  sampler : Sampler
  tokens : List TokenId
  text : String
  streamed : IncrementalText

namespace Progress

def initial (sampler : Sampler) : Progress := ⟨sampler, [], "", .empty⟩

def add (p : Progress) (choice : TokenId × Sampler) : Progress :=
  { p with tokens := p.tokens ++ [choice.1], sampler := choice.2 }

def reveal (p : Progress) (codec : Codec) (token : TokenId) : Progress :=
  { p with
    text := p.text ++ p.streamed.shown codec token
    streamed := (p.streamed.put codec token).2 }

def wholeText (p : Progress) (codec : Codec) : String := p.text ++ p.streamed.tail codec

theorem forall_mem_add {P : TokenId → Prop} {p : Progress} {choice : TokenId × Sampler}
    (h : ∀ id ∈ p.tokens, P id) (hchoice : P choice.1) : ∀ id ∈ (p.add choice).tokens, P id := by
  intro id hid
  rcases List.mem_append.mp hid with hearlier | hlast
  . exact h id hearlier
  . rw [List.mem_singleton.mp hlast]
    exact hchoice

end Progress

namespace Task

def history (t : Task) (tokens : List TokenId) : List TokenId := t.prompt ++ tokens

def freshAnswer (t : Task) (tokens : List TokenId) : Except SessionError (List Float32) :=
  ((Session.ofCompiled (t.model.compile none) none).prefill (t.history tokens) false).result

def select (t : Task) (sampler : Sampler) (tokens : List TokenId) : TokenId × Sampler :=
  sampler.select ((t.freshAnswer tokens).toOption.getD []) (t.history tokens) t.config

def continuation (t : Task) (sampler : Sampler) : Nat → List TokenId × Sampler
  | 0 => ([], sampler)
  | count + 1 =>
    let (tokens, sampler) := t.continuation sampler count
    let (token, sampler) := t.select sampler tokens
    (tokens ++ [token], sampler)

def endsWithEos (t : Task) (sampler : Sampler) (count : Nat) : Bool :=
  (t.continuation sampler count).1.getLast?.any t.config.isEos

def MayStop (t : Task) (sampler : Sampler) (count : Nat) : Prop :=
  count = t.config.maxNewTokens
    ∨ t.endsWithEos sampler count = true
    ∨ ∃ bound, t.limit = some bound ∧ count = bound - t.prompt.length + 1

def reason (t : Task) (sampler : Sampler) (count : Nat) : FinishReason :=
  if t.endsWithEos sampler count then .stop
  else if count = t.config.maxNewTokens then .length
  else .contextLimitReached

def resume (t : Task) (run : Progress → Progress × FinishReason) (fuel : Nat) (p : Progress)
    : Progress × FinishReason :=
  if fuel = 0 then (p, .length)
  else
    match t.limit.filter (· < (t.history p.tokens).length) with
    | some _ => (p, .contextLimitReached)
    | none => run p

def run (t : Task) : Nat → Progress → Progress × FinishReason
  | 0, p => (p, .length)
  | fuel + 1, p =>
    let choice := t.select p.sampler p.tokens
    if t.config.isEos choice.1 then (p.add choice, .stop)
    else t.resume (t.run fuel) fuel ((p.add choice).reveal t.codec choice.1)

variable {t : Task} {sampler : Sampler}

@[simp]
theorem history_nil (t : Task) : t.history [] = t.prompt := List.append_nil t.prompt

theorem history_append (t : Task) (tokens added : List TokenId)
    : t.history (tokens ++ added) = t.history tokens ++ added :=
  (List.append_assoc t.prompt tokens added).symm

theorem length_history (t : Task) (tokens : List TokenId)
    : (t.history tokens).length = t.prompt.length + tokens.length := List.length_append

@[simp]
theorem length_continuation (t : Task) (sampler : Sampler) (count : Nat)
    : (t.continuation sampler count).1.length = count := by
  induction count with
  | zero => rfl
  | succ count ih => simp [continuation, ih]

theorem continuation_of_greedy (h : t.config.doSample = false) (sampler sampler' : Sampler)
    (count : Nat) : (t.continuation sampler count).1 = (t.continuation sampler' count).1 := by
  induction count with
  | zero => rfl
  | succ count ih => simp [continuation, select, Sampler.select, h, ih]

theorem endsWithEos_congr {sampler sampler' : Sampler}
    (h : ∀ count, (t.continuation sampler count).1 = (t.continuation sampler' count).1)
    : t.endsWithEos sampler = t.endsWithEos sampler' := by
  funext count
  unfold endsWithEos
  rw [h]

theorem mayStop_congr {sampler sampler' : Sampler}
    (h : ∀ count, (t.continuation sampler count).1 = (t.continuation sampler' count).1)
    : t.MayStop sampler = t.MayStop sampler' := by
  funext count
  unfold MayStop
  rw [endsWithEos_congr h]

theorem reason_congr {sampler sampler' : Sampler}
    (h : ∀ count, (t.continuation sampler count).1 = (t.continuation sampler' count).1)
    : t.reason sampler = t.reason sampler' := by
  funext count
  unfold reason
  rw [endsWithEos_congr h]

/-! ## Where a run ends -/

structure HasReached (t : Task) (sampler : Sampler) (count : Nat) (p : Progress) : Prop where
  tokens_eq : p.tokens = (t.continuation sampler count).1
  sampler_eq : p.sampler = (t.continuation sampler count).2
  le_max : count ≤ t.config.maxNewTokens
  not_eos : ∀ earlier ≤ count, t.endsWithEos sampler earlier = false
  fits : ∀ bound, t.limit = some bound → t.prompt.length + count ≤ bound

theorem hasReached_initial (hfits : ∀ bound, t.limit = some bound → t.prompt.length ≤ bound)
    : t.HasReached sampler 0 (.initial sampler) where
  tokens_eq := rfl
  sampler_eq := rfl
  le_max := Nat.zero_le _
  not_eos := by
    intro earlier hearlier
    have : earlier = 0 := by omega
    subst this
    rfl
  fits := hfits

theorem HasReached.not_mayStop {count : Nat} {p : Progress} (h : t.HasReached sampler count p)
    {earlier : Nat} (hearlier : earlier ≤ count) (hmax : earlier < t.config.maxNewTokens)
    : ¬t.MayStop sampler earlier := by
  rintro (hlength | heos | ⟨bound, hbound, hcontext⟩)
  . omega
  . simp [h.not_eos earlier hearlier] at heos
  . have := h.fits bound hbound
    omega

theorem HasReached.isLeast {count n : Nat} {p : Progress} (h : t.HasReached sampler count p)
    (hstep : n ≤ count + 1) (hmax : n ≤ t.config.maxNewTokens) (hn : t.MayStop sampler n)
    : IsLeast (Set.ofPred (t.MayStop sampler)) n := by
  constructor
  . exact hn
  . intro other hother
    by_contra hlt
    exact h.not_mayStop (by omega) (by omega) hother

section Step

variable {count : Nat} {p : Progress}

theorem HasReached.select_eq (h : t.HasReached sampler count p)
    : t.select p.sampler p.tokens
        =
      t.select (t.continuation sampler count).2 (t.continuation sampler count).1 := by
  rw [h.sampler_eq, h.tokens_eq]

theorem HasReached.tokens_add (h : t.HasReached sampler count p)
    : (p.add (t.select p.sampler p.tokens)).tokens = (t.continuation sampler (count + 1)).1 := by
  rw [h.select_eq]
  simp [Progress.add, continuation, h.tokens_eq]

theorem HasReached.endsWithEos_succ (h : t.HasReached sampler count p)
    : t.endsWithEos sampler (count + 1) = t.config.isEos (t.select p.sampler p.tokens).1 := by
  simp [endsWithEos, ← h.tokens_add, Progress.add]

theorem HasReached.next (h : t.HasReached sampler count p)
    (hmax : count + 1 ≤ t.config.maxNewTokens)
    (heos : t.endsWithEos sampler (count + 1) = false)
    (hroom : t.limit.filter (· < t.prompt.length + (count + 1)) = none)
    : t.HasReached sampler (count + 1)
        ((p.add (t.select p.sampler p.tokens)).reveal t.codec
          (t.select p.sampler p.tokens).1) where
  tokens_eq := h.tokens_add
  sampler_eq := by
    rw [h.select_eq]
    rfl
  le_max := hmax
  not_eos := by
    intro earlier hearlier
    rcases Nat.lt_or_ge earlier (count + 1) with hlt | hge
    . exact h.not_eos earlier (by omega)
    . have : earlier = count + 1 := by omega
      rw [this]
      exact heos
  fits := by
    intro bound hbound
    rw [Option.filter_eq_none_iff] at hroom
    have := hroom bound hbound
    simpa using this

end Step

theorem run_of_hasReached {fuel count : Nat} {p : Progress} (h : t.HasReached sampler count p)
    (hfuel : fuel = t.config.maxNewTokens - count)
    : ∃ n, IsLeast (Set.ofPred (t.MayStop sampler)) n
        ∧ (t.run fuel p).1.tokens = (t.continuation sampler n).1
        ∧ (t.run fuel p).2 = t.reason sampler n := by
  induction fuel generalizing count p with
  | zero =>
    have hcount : count = t.config.maxNewTokens := by
      have := h.le_max
      omega
    refine ⟨count, h.isLeast (by omega) h.le_max (.inl hcount), h.tokens_eq, ?_⟩
    simp [run, reason, h.not_eos count (Nat.le_refl _), ← hcount]
  | succ fuel ih =>
    have hmax : count + 1 ≤ t.config.maxNewTokens := by omega
    have heos := h.endsWithEos_succ
    -- The reasons are looked at in the order in which the loop meets them: the token, then the
    -- number of tokens, and the limit only before a token is fed.
    unfold run
    dsimp only
    by_cases hstop : t.config.isEos (t.select p.sampler p.tokens).1 = true
    . rw [if_pos hstop]
      rw [hstop] at heos
      refine ⟨count + 1, h.isLeast (by omega) hmax (.inr (.inl heos)), h.tokens_add, ?_⟩
      simp [reason, heos]
    . rw [if_neg hstop]
      rw [Bool.not_eq_true] at hstop
      rw [hstop] at heos
      unfold resume
      by_cases hlast : fuel = 0
      . rw [if_pos hlast]
        have hcount : count + 1 = t.config.maxNewTokens := by omega
        refine ⟨count + 1, h.isLeast (by omega) hmax (.inl hcount), h.tokens_add, ?_⟩
        simp [reason, heos, ← hcount]
      . rw [if_neg hlast]
        have hlength : (t.history ((p.add (t.select p.sampler p.tokens)).reveal t.codec
            (t.select p.sampler p.tokens).1).tokens).length = t.prompt.length + (count + 1) := by
          show (t.history (p.add (t.select p.sampler p.tokens)).tokens).length = _
          rw [h.tokens_add, length_history, length_continuation]
        rw [hlength]
        cases hexceeds : t.limit.filter (· < t.prompt.length + (count + 1)) with
        | some bound =>
          rw [Option.filter_eq_some_iff] at hexceeds
          have hfits := h.fits bound hexceeds.1
          have hbound := hexceeds.2
          rw [decide_eq_true_eq] at hbound
          have hstopped : t.MayStop sampler (count + 1) :=
            .inr (.inr ⟨bound, hexceeds.1, by omega⟩)
          refine ⟨count + 1, h.isLeast (by omega) hmax hstopped, h.tokens_add, ?_⟩
          have hne : count + 1 ≠ t.config.maxNewTokens := by omega
          simp [reason, heos, hne]
        | none =>
          dsimp only
          apply ih (h.next hmax heos hexceeds)
          omega

theorem run_ne_cancelled (t : Task) (fuel : Nat) (p : Progress)
    : (t.run fuel p).2 ≠ .cancelled := by
  induction fuel generalizing p with
  | zero => simp [run]
  | succ fuel ih =>
    unfold run resume
    dsimp only
    split
    . simp
    . split
      . simp
      . split
        . simp
        . apply ih

/-! ## The text of a run -/

theorem run_text (t : Task) (fuel : Nat) (p : Progress)
    : ∃ added, (t.run fuel p).1.tokens = p.tokens ++ added
        ∧ (t.run fuel p).1.wholeText t.codec
            =
          p.text ++ IncrementalText.transcriptFrom t.codec
            (added.filter fun token => !t.config.isEos token) p.streamed := by
  have hend (p : Progress) : p.wholeText t.codec
      = p.text ++ IncrementalText.transcriptFrom t.codec [] p.streamed := rfl
  induction fuel generalizing p with
  | zero => exact ⟨[], by simp [run], hend p⟩
  | succ fuel ih =>
    unfold run
    dsimp only
    generalize t.select p.sampler p.tokens = choice
    split
    . next hstop =>
      refine ⟨[choice.1], rfl, ?_⟩
      rw [List.filter_cons_of_neg (by simpa using hstop)]
      exact hend (p.add choice)
    . next hstop =>
      unfold resume
      have hone : ([choice.1].filter fun token => !t.config.isEos token) = [choice.1] := by
        simpa using hstop
      have hshown : ((p.add choice).reveal t.codec choice.1).wholeText t.codec
          = p.text ++ IncrementalText.transcriptFrom t.codec [choice.1] p.streamed := by
        simp [Progress.wholeText, Progress.reveal, Progress.add, IncrementalText.transcriptFrom,
          String.append_assoc]
      split
      . exact ⟨[choice.1], rfl, by rw [hone, hshown]⟩
      . split
        . exact ⟨[choice.1], rfl, by rw [hone, hshown]⟩
        . rcases ih ((p.add choice).reveal t.codec choice.1) with ⟨added, htokens, htext⟩
          refine ⟨choice.1 :: added, ?_, ?_⟩
          . rw [htokens]
            simp [Progress.reveal, Progress.add]
          . rw [htext, List.filter_cons_of_pos (by simpa using hstop)]
            simp [Progress.reveal, Progress.add, IncrementalText.transcriptFrom,
              String.append_assoc]

theorem run_initial (t : Task) (hfits : ∀ bound, t.limit = some bound → t.prompt.length ≤ bound)
    (sampler : Sampler)
    : let r := t.run t.config.maxNewTokens (.initial sampler)
      ∃ n, IsLeast (Set.ofPred (t.MayStop sampler)) n
        ∧ r.1.tokens = (t.continuation sampler n).1
        ∧ r.2 = t.reason sampler n
        ∧ r.1.wholeText t.codec
            =
          IncrementalText.transcript t.codec
            (r.1.tokens.filter fun token => !t.config.isEos token) := by
  have hstart : t.HasReached sampler 0 (.initial sampler) := hasReached_initial hfits
  rcases run_of_hasReached hstart (Nat.sub_zero _).symm with ⟨n, hleast, hrun, hreason⟩
  rcases t.run_text t.config.maxNewTokens (.initial sampler) with ⟨added, hadded, hwhole⟩
  have hall : (t.run t.config.maxNewTokens (.initial sampler)).1.tokens = added := hadded
  refine ⟨n, hleast, hrun, hreason, ?_⟩
  rw [hwhole, hall]
  exact String.empty_append

theorem length_lt_run (t : Task) (fuel : Nat) (p : Progress)
    : p.tokens.length < (t.run (fuel + 1) p).1.tokens.length := by
  unfold run resume
  dsimp only
  generalize t.select p.sampler p.tokens = choice
  have hlength : ((p.add choice).reveal t.codec choice.1).tokens.length = p.tokens.length + 1 := by
    simp [Progress.reveal, Progress.add]
  split
  . simp [Progress.add]
  . split
    . dsimp only
      omega
    . split
      . dsimp only
        omega
      . rcases t.run_text fuel ((p.add choice).reveal t.codec choice.1) with ⟨added, htokens, _⟩
        rw [htokens, List.length_append]
        omega

/-! ## Scores of the vocabulary -/

structure IsSound (t : Task) : Prop where
  runnable : t.model.IsRunnable
  decodes : t.codec.Decodes
  prompt_ne_nil : t.prompt ≠ []
  prompt_inVocabulary : ∀ id ∈ t.prompt, t.model.inVocabulary id = true

variable {tokens : List TokenId}

theorem find?_history (h : t.IsSound) (htokens : ∀ id ∈ tokens, t.model.inVocabulary id = true)
    : (t.history tokens).find? (!t.model.inVocabulary ·) = none := by
  rw [List.find?_eq_none]
  intro id hid
  rcases List.mem_append.mp hid with hprompt | hanswer
  . simp [h.prompt_inVocabulary id hprompt]
  . simp [htokens id hanswer]

theorem find?_prompt (h : t.IsSound)
    : t.prompt.find? (!t.model.inVocabulary ·) = none := by
  rw [List.find?_eq_none]
  intro id hid
  simp [h.prompt_inVocabulary id hid]

theorem history_ne_nil (h : t.IsSound) (tokens : List TokenId) : t.history tokens ≠ [] := by
  simp [history, h.prompt_ne_nil]

theorem freshAnswer_eq (h : t.IsSound)
    (htokens : ∀ id ∈ tokens, t.model.inVocabulary id = true)
    : t.freshAnswer tokens = .ok (t.model.scoresAfter (t.history tokens)) :=
  (Session.prefill_of_vocabulary (Session.serves_ofCompiled t.model none none)
    h.runnable.isPositive (history_ne_nil h tokens) rfl (find?_history h htokens)).1

theorem select_eq (h : t.IsSound) (htokens : ∀ id ∈ tokens, t.model.inVocabulary id = true)
    (sampler : Sampler)
    : t.select sampler tokens
        =
      sampler.select (t.model.scoresAfter (t.history tokens)) (t.history tokens) t.config := by
  unfold select
  rw [freshAnswer_eq h htokens]
  rfl

theorem inVocabulary_select (h : t.IsSound)
    (htokens : ∀ id ∈ tokens, t.model.inVocabulary id = true) (sampler : Sampler)
    : t.model.inVocabulary (t.select sampler tokens).1 = true := by
  rcases List.exists_mem_of_ne_nil _ h.prompt_ne_nil with ⟨id, hid⟩
  rw [select_eq h htokens]
  exact h.runnable.inVocabulary_select (h.prompt_inVocabulary id hid) _ _ _ _

theorem inVocabulary_continuation (h : t.IsSound) (sampler : Sampler) (count : Nat)
    : ∀ id ∈ (t.continuation sampler count).1, t.model.inVocabulary id = true := by
  induction count with
  | zero => simp [continuation]
  | succ count ih =>
    intro id hid
    rcases List.mem_append.mp hid with hearlier | hlast
    . exact ih id hearlier
    . rw [List.mem_singleton.mp hlast]
      exact inVocabulary_select h ih _

end Task

end TextGen
