import TextGen.Proofs.Generation.Task
import TextGen.Speculative.Basic

/-!
This module contains what a speculative generation does under any policy: how its sessions are fed,
what a choice leaves, and how a run is led back to its single steps.
-/

namespace TextGen

structure Session.HasServed (s : Session) (model : BigramModel) (plan : FaultPlan)
    (limit : Option Nat) (tokens : List TokenId) : Prop where
  serves : s.Serves model plan limit
  state_eq : s.state = .ofTokens model.shape tokens

namespace Speculation

/-! ## Feeding -/

theorem feed_cases (draft target : Session)
    (feedDraft feedTarget : Session → Bool → Session.Outcome (List Float32)) (cancelled : Bool)
    : let fed := feed draft target feedDraft feedTarget cancelled
      (∃ draftScores targetScores, fed.1 = .scored draftScores targetScores)
        ∨ ∃ e, fed.1 = .ofError e := by
  unfold feed
  dsimp only
  cases (feedDraft draft cancelled).result with
  | error e => exact .inr ⟨e, rfl⟩
  | ok draftScores =>
    dsimp only
    cases (feedTarget target (feedDraft draft cancelled).cancelled).result with
    | error e => exact .inr ⟨e, rfl⟩
    | ok targetScores => exact .inl ⟨draftScores, targetScores, rfl⟩

section Feeding

variable {draft target : Session} {model model' : BigramModel} {plan plan' : FaultPlan}
variable {limit limit' : Option Nat} {ids tokens tokens' : List TokenId} {id id' : TokenId}

theorem feed_prefill (h : draft.Serves model plan limit) (h' : target.Serves model' plan' limit')
    (hpositive : model.shape.IsPositive) (hpositive' : model'.shape.IsPositive) (hids : ids ≠ [])
    (hroom : limit.filter (· < ids.length) = none)
    (hroom' : limit'.filter (· < ids.length) = none)
    (hvocabulary : ids.find? (!model.inVocabulary ·) = none)
    (hvocabulary' : ids.find? (!model'.inVocabulary ·) = none)
    : ∃ draft' target', feed draft target (·.prefill ids ·) (·.prefill ids ·) false
          = (.scored (model.scoresAfter ids) (model'.scoresAfter ids), draft', target', false)
        ∧ draft'.HasServed model plan limit ids
        ∧ target'.HasServed model' plan' limit' ids := by
  rcases Session.prefill_of_vocabulary h hpositive hids hroom hvocabulary with
    ⟨hresult, hflag, hserves, hstate, _⟩
  rcases Session.prefill_of_vocabulary h' hpositive' hids hroom' hvocabulary' with
    ⟨hresult', hflag', hserves', hstate', _⟩
  unfold feed
  dsimp only
  rw [hresult, hflag]
  dsimp only
  rw [hresult', hflag']
  exact ⟨_, _, rfl, ⟨hserves, hstate⟩, ⟨hserves', hstate'⟩⟩

theorem feed_decodeStep (h : draft.HasServed model plan limit tokens)
    (h' : target.HasServed model' plan' limit' tokens') (hpositive : model.shape.IsPositive)
    (hpositive' : model'.shape.IsPositive) (htokens : tokens ≠ []) (htokens' : tokens' ≠ [])
    (hid : model.inVocabulary id = true) (hid' : model'.inVocabulary id' = true)
    : ∃ phase draft' target',
        feed draft target (·.decodeStep id ·) (·.decodeStep id' ·) false
            = (phase, draft', target', false)
          ∧ if limit.filter (· < tokens.length + 1) = none
                ∧ limit'.filter (· < tokens'.length + 1) = none then
              phase = .scored (model.scoresAfter (tokens ++ [id]))
                  (model'.scoresAfter (tokens' ++ [id']))
                ∧ draft'.HasServed model plan limit (tokens ++ [id])
                ∧ target'.HasServed model' plan' limit' (tokens' ++ [id'])
            else phase = .finished .contextLimitReached := by
  -- Two sessions are fed as long as both have room. The draft comes first, but whichever has no
  -- room, the reason is the same.
  unfold feed
  dsimp only
  rcases Session.decodeStep_of_serves h.serves hpositive h.state_eq htokens hid with
    ⟨bound, hexceeds, hstep⟩ | ⟨hroom, hresult, hflag, hserves, hstate, _⟩
  . rw [hstep]
    refine ⟨_, _, _, rfl, ?_⟩
    rw [if_neg fun hfits => Option.some_ne_none bound (hexceeds.symm.trans hfits.1)]
    rfl
  . rw [hresult, hflag]
    rcases Session.decodeStep_of_serves h'.serves hpositive' h'.state_eq htokens' hid' with
      ⟨bound, hexceeds, hstep⟩ | ⟨hroom', hresult', hflag', hserves', hstate', _⟩
    . dsimp only
      rw [hstep]
      refine ⟨_, _, _, rfl, ?_⟩
      rw [if_neg fun hfits => Option.some_ne_none bound (hexceeds.symm.trans hfits.2)]
      rfl
    . dsimp only
      rw [hresult', hflag']
      refine ⟨_, _, _, rfl, ?_⟩
      rw [if_pos ⟨hroom, hroom'⟩]
      exact ⟨rfl, ⟨hserves, hstate⟩, ⟨hserves', hstate'⟩⟩

end Feeding

def committed (x : Speculation) (draftScores targetScores : List Float32) : Speculation :=
  { x with
    stats := x.stats.count ((argmax draftScores : TokenId) = (argmax targetScores : TokenId))
    tokens := x.tokens
      ++ [(x.config.policy.commit (argmax draftScores) (argmax targetScores)).1] }

theorem choose_cases (x : Speculation) (draftScores targetScores : List Float32)
    : let choice := x.config.policy.commit (argmax draftScores) (argmax targetScores)
      let x' := x.committed draftScores targetScores
      (x.config.eosTokenIds.contains choice.1 = true
        ∧ x.choose draftScores targetScores = (none, { x' with phase := .finished .stop }))
      ∨ (x.config.eosTokenIds.contains choice.1 = false
        ∧ ∃ e streamed, x.streamed.put x.codec choice.1 = (.error e, streamed)
          ∧ x.choose draftScores targetScores
              =
            (none, { x' with streamed, phase := .failed (.codec e) }))
      ∨ (x.config.eosTokenIds.contains choice.1 = false
        ∧ ∃ chunk streamed, x.streamed.put x.codec choice.1 = (.ok chunk, streamed)
          ∧ x.choose draftScores targetScores
              =
            (chunk,
              { x' with
                phase := .pending choice.1 choice.2
                text := x.text ++ chunk.getD ""
                streamed })) := by
  intro choice x'
  unfold choose
  dsimp only
  cases hstop : x.config.eosTokenIds.contains choice.1 with
  | true => exact .inl ⟨rfl, rfl⟩
  | false =>
    right
    rcases x.streamed.put x.codec choice.1 with ⟨e | chunk, streamed⟩
    . exact .inl ⟨rfl, e, streamed, rfl, rfl⟩
    . exact .inr ⟨rfl, chunk, streamed, rfl, rfl⟩

theorem choose_of_decodes (x : Speculation) (hdecodes : x.codec.Decodes)
    (draftScores targetScores : List Float32)
    : let choice := x.config.policy.commit (argmax draftScores) (argmax targetScores)
      let x' := x.committed draftScores targetScores
      ∃ chunk, x.choose draftScores targetScores
        = (chunk,
          if x.config.eosTokenIds.contains choice.1 then { x' with phase := .finished .stop }
          else
            { x' with
              phase := .pending choice.1 choice.2
              text := x.text ++ x.streamed.shown x.codec choice.1
              streamed := (x.streamed.put x.codec choice.1).2 }) := by
  intro choice x'
  rcases IncrementalText.put_of_decodes hdecodes x.streamed choice.1 with ⟨shown, hdecoded, hshown⟩
  rcases x.choose_cases draftScores targetScores with
    ⟨hstop, hchoose⟩ | ⟨_, e, streamed, hput, _⟩ | ⟨hstop, chunk, streamed, hput, hchoose⟩
  . refine ⟨none, ?_⟩
    rw [if_pos hstop]
    exact hchoose
  . rw [hput] at hdecoded
    simp at hdecoded
  . refine ⟨chunk, ?_⟩
    rw [hput] at hdecoded
    cases hdecoded
    rw [if_neg (Bool.eq_false_iff.mp hstop), hchoose, hput, hshown]

theorem next_of_isExhausted {x : Speculation} {cancelled : Bool} (hrunning : x.isRunning = true)
    (hexhausted : x.isExhausted = true)
    : x.next cancelled = (none, { x with phase := .finished .length }, cancelled) := by
  unfold isRunning at hrunning
  unfold next
  rw [hexhausted]
  cases hphase : x.phase with
  | scored draftScores targetScores => rfl
  | pending draft target => rfl
  | finished reason => simp [hphase] at hrunning
  | failed e => simp [hphase] at hrunning

theorem next_of_phase {x : Speculation} {draftScores targetScores : List Float32}
    (hexhausted : x.isExhausted = false) (hphase : x.phase = .scored draftScores targetScores)
    (cancelled : Bool)
    : x.next cancelled
        =
      ((x.choose draftScores targetScores).1, (x.choose draftScores targetScores).2,
        cancelled) := by
  unfold next
  rw [hexhausted, hphase]

/-! ## Whole runs -/

section Runs

variable {x x' : Speculation} {limit fuel : Nat} {P : Speculation → Prop} {chunk : Option String}
variable {t : Task} {p : Progress}

def EndsIn (x : Speculation) (limit : Nat) (P : Speculation → Prop) : Prop :=
  ∀ chunks, ∃ chunks' x', x.run (fun _ => false) limit chunks false = (chunks', x', false) ∧ P x'

theorem run_of_ended (hended : x.isRunning = false) (cancelsAt : List String → Bool) (limit : Nat)
    (chunks : List String) (cancelled : Bool)
    : x.run cancelsAt limit chunks cancelled = (chunks, x, cancelled) := by
  cases limit with
  | zero => rfl
  | succ limit =>
    unfold run
    rw [hended]
    rfl

theorem endsIn_of_ended (limit : Nat) (hended : x.isRunning = false) (h : P x)
    : x.EndsIn limit P := by
  intro chunks
  exact ⟨chunks, x, run_of_ended hended _ _ _ _, h⟩

theorem endsIn_of_next (hrunning : x.isRunning = true) (hnext : x.next false = (chunk, x', false))
    (hrest : x'.EndsIn limit P) : x.EndsIn (limit + 1) P := by
  intro chunks
  unfold run
  rw [hrunning, hnext]
  cases chunk with
  | none => exact hrest chunks
  | some chunk => exact hrest (chunk :: chunks)

variable {Pending : Progress → Speculation → Prop}
variable {Ended : Progress × FinishReason → Speculation → Prop}

def HasChosen (t : Task) (Pending : Progress → Speculation → Prop)
    (Ended : Progress × FinishReason → Speculation → Prop) (p : Progress) (x : Speculation)
    : Prop :=
  if t.config.isEos (t.select p.sampler p.tokens).1 then
    Ended (p.add (t.select p.sampler p.tokens), .stop) x
  else
    Pending ((p.add (t.select p.sampler p.tokens)).reveal t.codec
      (t.select p.sampler p.tokens).1) x

structure Produces (t : Task) (Pending : Progress → Speculation → Prop)
    (Ended : Progress × FinishReason → Speculation → Prop) : Prop where
  running : ∀ {p x}, Pending p x → x.isRunning = true
  ended : ∀ {r x}, Ended r x → x.isRunning = false
  next_of_spent : ∀ {p x}, Pending p x → t.config.maxNewTokens ≤ p.tokens.length →
    ∃ chunk x', x.next false = (chunk, x', false) ∧ Ended (p, .length) x'
  next_of_pending : ∀ {p x}, Pending p x → p.tokens.length < t.config.maxNewTokens →
    ∃ chunk x', x.next false = (chunk, x', false)
      ∧ if t.limit.filter (· < (t.history p.tokens).length) = none then
          HasChosen t Pending Ended p x'
        else Ended (p, .contextLimitReached) x'

theorem Produces.endsIn_of_hasChosen (h : Produces t Pending Ended) (hrunning : x.isRunning = true)
    (hnext : x.next false = (chunk, x', false)) (hx' : HasChosen t Pending Ended p x')
    (hpending : ∀ p' x, p'.tokens.length = p.tokens.length + 1 → Pending p' x →
      x.EndsIn (fuel + 1) (Ended (t.resume (t.run fuel) fuel p')))
    : x.EndsIn (fuel + 2) (Ended (t.run (fuel + 1) p)) := by
  apply endsIn_of_next hrunning hnext
  unfold HasChosen at hx'
  unfold Task.run
  dsimp only
  by_cases hstop : t.config.isEos (t.select p.sampler p.tokens).1 = true
  . rw [if_pos hstop] at hx' ⊢
    exact endsIn_of_ended _ (h.ended hx') hx'
  . rw [if_neg hstop] at hx' ⊢
    exact hpending _ _ (by simp [Progress.reveal, Progress.add]) hx'

theorem Produces.endsIn_of_pending (h : Produces t Pending Ended) (hx : Pending p x)
    (hfuel : fuel = t.config.maxNewTokens - p.tokens.length)
    : x.EndsIn (fuel + 1) (Ended (t.resume (t.run fuel) fuel p)) := by
  -- by induction on the number of tokens to come
  induction fuel generalizing x p with
  | zero =>
    rcases h.next_of_spent hx (by omega) with ⟨chunk, x', hnext, hx'⟩
    exact endsIn_of_next (h.running hx) hnext (endsIn_of_ended _ (h.ended hx') hx')
  | succ fuel ih =>
    rcases h.next_of_pending hx (by omega) with ⟨chunk, x', hnext, hx'⟩
    unfold Task.resume
    rw [if_neg (Nat.succ_ne_zero fuel)]
    cases hexceeds : t.limit.filter (· < (t.history p.tokens).length) with
    | some bound =>
      rw [if_neg (by simp [hexceeds])] at hx'
      exact endsIn_of_next (h.running hx) hnext (endsIn_of_ended _ (h.ended hx') hx')
    | none =>
      rw [if_pos hexceeds] at hx'
      apply h.endsIn_of_hasChosen (h.running hx) hnext hx'
      intro p' x'' hlength hx''
      exact ih hx'' (by omega)

theorem Produces.endsIn_of_start (h : Produces t Pending Ended) (hrunning : x.isRunning = true)
    (hspent : t.config.maxNewTokens ≤ p.tokens.length →
      ∃ chunk x', x.next false = (chunk, x', false) ∧ Ended (p, .length) x')
    (hroom : p.tokens.length < t.config.maxNewTokens →
      ∃ chunk x', x.next false = (chunk, x', false) ∧ HasChosen t Pending Ended p x')
    (hfuel : fuel = t.config.maxNewTokens - p.tokens.length)
    : x.EndsIn (fuel + 1) (Ended (t.run fuel p)) := by
  cases fuel with
  | zero =>
    rcases hspent (by omega) with ⟨chunk, x', hnext, hx'⟩
    exact endsIn_of_next hrunning hnext (endsIn_of_ended _ (h.ended hx') hx')
  | succ fuel =>
    rcases hroom (by omega) with ⟨chunk, x', hnext, hx'⟩
    apply h.endsIn_of_hasChosen hrunning hnext hx'
    intro p' x'' hlength hx''
    exact h.endsIn_of_pending hx'' (by omega)

end Runs

end Speculation

end TextGen
