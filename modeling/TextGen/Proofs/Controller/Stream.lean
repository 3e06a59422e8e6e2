import TextGen.Controller.Stream
import TextGen.Proofs.Generation.Steps

/-!
This module contains what a token stream yields when it is drained without being stopped: the whole
run of its task.
-/

namespace TextGen

namespace Controller

variable {c : Controller} {codec : Codec} {g : Generation}

@[simp]
theorem session_follow (c : Controller) (g : Generation)
    : (c.follow g).session = some g.session := by
  unfold follow
  dsimp only
  split <;> rfl

@[simp]
theorem codec_follow (c : Controller) (g : Generation) : (c.follow g).codec = c.codec := by
  unfold follow
  dsimp only
  split <;> rfl

@[simp]
theorem stopHandle_follow (c : Controller) (g : Generation)
    : (c.follow g).stopHandle = c.stopHandle := by
  unfold follow
  dsimp only
  split <;> rfl

theorem follow_of_running (c : Controller) (hrunning : g.isRunning = true)
    : c.follow g = { c with session := some g.session, status := .generating } := by
  unfold follow
  cases hphase : g.phase with
  | finished reason => simp [Generation.isRunning, hphase] at hrunning
  | failed => simp [Generation.isRunning, hphase] at hrunning
  | scored logits => rfl
  | pending token => rfl

theorem follow_of_finished (hcodec : c.codec = some codec) {reason : FinishReason}
    (hphase : g.phase = .finished reason)
    : c.follow g
        =
      { c with
        session := some g.session
        status := if reason = .cancelled then .stopped else .ready
        statistics := c.statistics.record g.stats } := by
  unfold follow restStatus
  rw [hphase, hcodec]
  cases reason <;> rfl

theorem follow_of_failed (hcodec : c.codec = some codec) (hphase : g.phase = .failed)
    : c.follow g = { c with session := some g.session, status := .ready } := by
  unfold follow restStatus
  rw [hphase, hcodec]
  rfl

theorem status_follow {reason : FinishReason} (hcodec : c.codec = some codec)
    (hphase : g.phase = .finished reason) (hreason : reason ≠ .cancelled)
    : (c.follow g).status = .ready := by
  rw [follow_of_finished hcodec hphase]
  exact if_neg hreason

end Controller

namespace TokenStream

structure IsAt (s : TokenStream) (codec : Codec) (g : Generation) : Prop where
  generation_eq : s.generation = g
  session_eq : s.controller.session = some g.session
  codec_eq : s.controller.codec = some codec
  stopHandle_eq : s.controller.stopHandle = .lowered
  status_eq : ∀ reason, g.phase = .finished reason → reason ≠ .cancelled →
    s.controller.status = .ready

theorem isAt_advance {s : TokenStream} {codec : Codec} (g : Generation)
    (hcodec : s.controller.codec = some codec) (hhandle : s.controller.stopHandle = .lowered)
    : (s.advance g).IsAt codec g where
  generation_eq := rfl
  session_eq := Controller.session_follow _ _
  codec_eq := (Controller.codec_follow _ _).trans hcodec
  stopHandle_eq := (Controller.stopHandle_follow _ _).trans hhandle
  status_eq _ hphase hreason := Controller.status_follow hcodec hphase hreason

variable {s : TokenStream} {g g' : Generation} {t : Task} {p : Progress} {plan : FaultPlan}

theorem next_of_isAt {codec : Codec} {item : Option (Except GenerationError StreamEvent)}
    (hs : s.IsAt codec g) (hnext : g.next .lowered = (item, g', .lowered))
    : ∃ s', s.next = (item, s') ∧ s'.IsAt codec g' := by
  unfold next
  rw [hs.generation_eq, hs.stopHandle_eq, hnext]
  exact ⟨_, rfl, isAt_advance g' hs.codec_eq rfl⟩

def Yields (s : TokenStream) (limit : Nat) (t : Task) (r : Progress × FinishReason)
    (plan : FaultPlan) (others : Nat) : Prop :=
  ∀ seen, ∃ events s' g', s.drain (fun _ => false) limit seen = (events, none, s')
    ∧ s'.IsAt t.codec g' ∧ g'.HasFinished t r plan
    ∧ g'.session.engine.calls = r.1.tokens.length + others

variable {limit others : Nat} {r : Progress × FinishReason}

theorem yields_of_next_none (hs : s.IsAt t.codec g) (hnext : g.next .lowered = (none, g', .lowered))
    (hg : g'.HasFinished t r plan) (hcalls : g'.session.engine.calls = r.1.tokens.length + others)
    : s.Yields (limit + 1) t r plan others := by
  intro seen
  rcases next_of_isAt hs hnext with ⟨s', hstream, hs'⟩
  unfold drain
  rw [hstream]
  exact ⟨_, s', g', rfl, hs', hg, hcalls⟩

theorem yields_of_next_some {event : StreamEvent} (hs : s.IsAt t.codec g)
    (hnext : g.next .lowered = (some (.ok event), g', .lowered))
    (hrest : ∀ s' : TokenStream, s'.IsAt t.codec g' → s'.Yields limit t r plan others)
    : s.Yields (limit + 1) t r plan others := by
  intro seen
  rcases next_of_isAt hs hnext with ⟨s', hstream, hs'⟩
  unfold drain
  rw [hstream]
  exact hrest s' hs' (event :: seen)

theorem yields_of_choose {fuel : Nat} (ht : t.IsSound) (hs : s.IsAt t.codec g)
    (hg' : g'.Tracks t p plan (t.history p.tokens))
    (hnext : g.next .lowered
      =
    (some (g'.choose (t.model.scoresAfter (t.history p.tokens))).1,
      (g'.choose (t.model.scoresAfter (t.history p.tokens))).2, .lowered))
    (hcalls : g'.session.engine.calls = p.tokens.length + 1 + others)
    (hpending : ∀ (s : TokenStream) (g : Generation) (p' : Progress) (last : TokenId),
      s.IsAt t.codec g → g.IsPending t p' plan p.tokens last →
      g.session.engine.calls = p'.tokens.length + others →
        s.Yields (fuel + 1) t (t.resume (t.run fuel) fuel p') plan others)
    : s.Yields (fuel + 2) t (t.run (fuel + 1) p) plan others := by
  rcases Generation.choose_of_tracks ht hg' with ⟨event, g'', hchoose, hsame, hcases⟩
  have hlength : (p.add (t.select p.sampler p.tokens)).tokens.length = p.tokens.length + 1 := by
    simp [Progress.add]
  rw [hchoose] at hnext
  apply yields_of_next_some hs hnext
  intro s' hs'
  unfold Task.run
  dsimp only
  by_cases hstop : t.config.isEos (t.select p.sampler p.tokens).1 = true
  . rw [if_pos hstop] at hcases ⊢
    have hended : g''.isRunning = false := by simp [Generation.isRunning, hcases.phase_eq]
    apply yields_of_next_none hs' (Generation.next_of_ended hended .lowered) hcases
    rw [hsame, hcalls, hlength]
  . rw [if_neg hstop] at hcases ⊢
    apply hpending s' g'' _ _ hs' hcases
    rw [hsame, hcalls]
    show _ = (p.add (t.select p.sampler p.tokens)).tokens.length + others
    rw [hlength]

theorem yields_of_pending {fuel : Nat} {earlier : List TokenId} {last : TokenId} (ht : t.IsSound)
    (hs : s.IsAt t.codec g) (hg : g.IsPending t p plan earlier last)
    (hcalls : g.session.engine.calls = p.tokens.length + others)
    (hfuel : fuel = t.config.maxNewTokens - p.tokens.length)
    : s.Yields (fuel + 1) t (t.resume (t.run fuel) fuel p) plan others := by
  -- by induction on the number of tokens to come; the session always lacks the last token
  induction fuel generalizing s g p earlier last with
  | zero =>
    have hnext := Generation.next_of_exhausted hg.toTracks
      (by simp [Generation.isRunning, hg.phase_eq]) (by omega)
    exact yields_of_next_none hs hnext (hg.toTracks.hasFinished .length) hcalls
  | succ fuel ih =>
    have hnext := Generation.next_of_pending ht hg (by omega)
    unfold Task.resume
    rw [if_neg (Nat.succ_ne_zero fuel)]
    cases hexceeds : t.limit.filter (· < (t.history p.tokens).length) with
    | some bound =>
      simp only [hexceeds] at hnext ⊢
      exact yields_of_next_none hs hnext (hg.toTracks.hasFinished .contextLimitReached) hcalls
    | none =>
      simp only [hexceeds] at hnext ⊢
      rcases hnext with ⟨g', hg', hfed, hnext⟩
      apply yields_of_choose ht hs hg' hnext (by omega)
      intro s' g'' p' last' hs' hg'' hcalls'
      have hlength : p'.tokens.length = p.tokens.length + 1 := by simp [hg''.split_eq]
      exact ih hs' hg'' hcalls' (by omega)

theorem yields_of_scored (ht : t.IsSound) (hs : s.IsAt t.codec g) (hg : g.IsScored t p plan)
    (hcalls : g.session.engine.calls = p.tokens.length + 1 + others)
    (hmax : p.tokens.length < t.config.maxNewTokens)
    : s.Yields (t.config.maxNewTokens - p.tokens.length + 1) t
        (t.run (t.config.maxNewTokens - p.tokens.length) p) plan others := by
  have hfuel : t.config.maxNewTokens - p.tokens.length
      = (t.config.maxNewTokens - p.tokens.length - 1) + 1 := by omega
  rw [hfuel]
  apply yields_of_choose ht hs hg.toTracks (Generation.next_of_scored hg hmax) hcalls
  intro s' g' p' last hs' hg' hcalls'
  have hlength : p'.tokens.length = p.tokens.length + 1 := by simp [hg'.split_eq]
  exact yields_of_pending ht hs' hg' hcalls' (by omega)

end TokenStream

end TextGen
