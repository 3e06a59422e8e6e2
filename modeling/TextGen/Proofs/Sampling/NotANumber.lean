import TextGen.Proofs.Sampling.Greedy
import TextGen.Proofs.Sampling.Shares

/-!
This module contains when a token is chosen whose score is NaN. Such a score counts as `-∞`, and a
candidate at `-∞` has no share of the draw as long as any score is above `-∞`. But without such a
score there is only a tie, and then the first token is chosen whatever its score is.
-/

namespace TextGen

open Binary32

variable {logits : List Float32}

namespace Sampler

open Candidate TextGen.Random

/-! ## The candidates -/

theorem hasNumbers_ofScores (scores : List Float32) : HasNumbers (ofScores scores) := by
  intro c hc
  rcases mem_ofScores_iff.mp hc with ⟨index, score, _, rfl⟩
  rw [score_ofScore]
  split
  . decide
  . next hnot =>
    rw [isNaN_iff] at hnot
    omega

theorem select_of_doSample (sampler : Sampler) (hlogits : logits ≠ []) (history : List TokenId)
    {config : SamplingConfig} (hsample : config.doSample = true)
    : ∃ c ∈ entries logits history config, (sampler.select logits history config).1 = c.id
        ∧ (c.score = negativeInfinity →
          ∀ d ∈ entries logits history config, c.ranksBefore d = true) := by
  rcases isBest_candidates hlogits history config with ⟨count, hpos, _, _, hbest⟩
  have hne : candidates logits history config ≠ [] := by
    rw [← List.length_pos_iff, hbest.length_eq]
    exact hpos
  have hnumbers : HasNumbers (candidates logits history config) := fun c hc =>
    hasNumbers_ofScores _ c (hbest.mem c hc)
  rcases draw_of_hasNumbers sampler hnumbers hne with ⟨c, hc, hid, hfirst⟩
  refine ⟨c, hbest.mem c hc, ?_, ?_⟩
  . unfold select
    rw [if_pos hsample]
    exact hid
  . intro hscore
    exact hbest.ranksBefore hc (hfirst hscore)

/-! ## The choice -/

def NaNAt (logits : List Float32) (index : Nat) : Prop :=
  ∃ score, logits[index]? = some score ∧ score.isNaN = true

/--
A choice whose score is NaN is the first token, and then no other score is above `-∞`.
-/
def ChoosesNaNOnlyIfForced (logits : List Float32) (choice : TokenId) : Prop :=
  ∃ index : Nat, choice = index ∧ index < logits.length
    ∧ (NaNAt logits index ↔ NaNAt logits 0 ∧ ∀ score ∈ logits, ¬negativeInfinity < score)

theorem argmax_choosesNaN (hlogits : logits ≠ [])
    : ChoosesNaNOnlyIfForced logits (argmax logits) := by
  refine ⟨argmax logits, rfl, argmax_lt (List.length_pos_iff.mpr hlogits), ?_⟩
  cases argmax_cases logits with
  | inl hnothing =>
    rw [hnothing.1]
    exact ⟨fun h => ⟨h, hnothing.2⟩, fun h => h.1⟩
  | inr hfound =>
    rcases hfound with ⟨value, hmaximum⟩
    have hvalue := lt_iff.mp hmaximum.above
    constructor
    . intro h
      rcases h with ⟨score, hscore, hnan⟩
      rw [hmaximum.getElem?_eq, Option.some_inj] at hscore
      rw [← hscore, isNaN_iff] at hnan
      omega
    . intro h
      exact absurd hmaximum.above (h.2 value (List.mem_of_getElem? hmaximum.getElem?_eq))

theorem scaled_one (score : Float32)
    : scaled 1 score = if score.isNaN then negativeInfinity else score := by
  unfold scaled
  rw [div_one_eq]

theorem scaled_one_eq_negativeInfinity_iff {score : Float32}
    : scaled 1 score = negativeInfinity ↔ ¬negativeInfinity < score := by
  rw [scaled_one]
  split
  . next hnan =>
    rw [isNaN_iff] at hnan
    refine iff_of_true rfl ?_
    rw [lt_iff]
    omega
  . next hnumber =>
    rw [isNaN_iff] at hnumber
    constructor
    . intro heq
      rw [heq]
      exact not_lt_self _
    . intro hnot
      exact eq_negativeInfinity_of_not_lt (by omega) hnot

theorem select_choosesNaN (sampler : Sampler) (hlogits : logits ≠ []) (history : List TokenId)
    {config : SamplingConfig} (hsample : config.doSample = true)
    (hpenalty : config.repeatPenalty = 1) (htemperature : config.temperature = 1)
    : ChoosesNaNOnlyIfForced logits (sampler.select logits history config).1 := by
  have hentries : entries logits history config = ofScores (logits.map (· / 1)) := by
    have hscale := isScale_one
    rw [← htemperature] at hscale ⊢
    exact entries_of_repeatPenalty_one hscale hpenalty
  rcases select_of_doSample sampler hlogits history hsample with ⟨c, hc, hid, hfirst⟩
  rw [hentries] at hc hfirst
  rcases mem_ofScores_map_div_iff.mp hc with ⟨index, score, hscore, rfl⟩
  rw [score_ofScore] at hfirst
  have hindex : index < logits.length := (List.getElem?_eq_some_iff.mp hscore).1
  -- A tie at `-∞` goes to the first token.
  have hforced : scaled 1 score = negativeInfinity →
      index = 0 ∧ ∀ other ∈ logits, ¬negativeInfinity < other := by
    intro hleast
    have hahead : ∀ position : Nat, ∀ other, logits[position]? = some other →
        orderKey (scaled 1 other).toBits < orderKey negativeInfinity.toBits
          ∨ orderKey (scaled 1 other).toBits = orderKey negativeInfinity.toBits
            ∧ (index : Int) ≤ (position : Int) := by
      intro position other hother
      have hbefore := hfirst hleast _ (mem_ofScores_map_div_iff.mpr ⟨position, other, hother, rfl⟩)
      rw [ranksBefore_eq_true_iff, hleast] at hbefore
      exact hbefore
    have hall : ∀ other ∈ logits, ¬negativeInfinity < other := by
      intro other hother hlt
      rcases List.mem_iff_getElem?.mp hother with ⟨position, hposition⟩
      have hle := hahead position other hposition
      have hgt := orderKey_lt_of_rankOf_lt (lt_iff.mp hlt).2
      have hnumber : other.isNaN = false := by
        have := (lt_iff.mp hlt).1
        rw [← Bool.not_eq_true, isNaN_iff]
        omega
      rw [scaled_one, hnumber, if_neg Bool.false_ne_true] at hle
      omega
    refine ⟨?_, hall⟩
    have hzero := List.getElem?_eq_getElem (List.length_pos_iff.mpr hlogits)
    have hle := hahead 0 _ hzero
    rw [scaled_one_eq_negativeInfinity_iff.mpr (hall _ (List.getElem_mem _))] at hle
    omega
  refine ⟨index, hid, hindex, ?_⟩
  constructor
  . intro h
    rcases h with ⟨nan, hnan, hisNaN⟩
    rw [hscore, Option.some_inj] at hnan
    have hleast : scaled 1 score = negativeInfinity := by
      rw [hnan]
      exact scaled_of_isNaN hisNaN
    have hall := hforced hleast
    refine ⟨⟨score, ?_, ?_⟩, hall.2⟩
    . rw [← hall.1]
      exact hscore
    . rw [hnan]
      exact hisNaN
  . intro h
    have hnot := h.2 score (List.mem_of_getElem? hscore)
    rw [(hforced (scaled_one_eq_negativeInfinity_iff.mpr hnot)).1]
    exact h.1

theorem choosesNaNOnlyIfForced (sampler : Sampler) (hlogits : logits ≠ []) (history : List TokenId)
    {config : SamplingConfig} (hpenalty : config.repeatPenalty = 1)
    (htemperature : config.temperature = 1)
    : ChoosesNaNOnlyIfForced logits (argmax logits)
        ∧ ChoosesNaNOnlyIfForced logits (sampler.select logits history config).1 := by
  refine ⟨argmax_choosesNaN hlogits, ?_⟩
  cases hsample : config.doSample with
  | true => exact select_choosesNaN sampler hlogits history hsample hpenalty htemperature
  | false =>
    unfold select
    rw [if_neg (by simp [hsample])]
    exact argmax_choosesNaN hlogits

theorem choosesNaNOnlyIfForced_of_infinite_score
    : let logits : List Float32 := [nan, infinity, nan]
      let config : SamplingConfig := { temperature := 1, repeatPenalty := 1 }
      (logits ≠ [] ∧ config.repeatPenalty = 1 ∧ config.temperature = 1)
        ∧ ChoosesNaNOnlyIfForced logits (argmax logits)
        ∧ ChoosesNaNOnlyIfForced logits ((ofSeed 7).select logits [] config).1 :=
  ⟨⟨by simp, rfl, rfl⟩, choosesNaNOnlyIfForced (ofSeed 7) (by simp) [] rfl rfl⟩

theorem not_forall_argmax_isNumber
    : ¬∀ (logits : List Float32), (∃ score ∈ logits, score.isNaN = false) →
        ¬NaNAt logits (argmax logits) := by
  intro h
  apply h [nan, negativeInfinity] ⟨negativeInfinity, by simp, rfl⟩
  exact ⟨nan, rfl, rfl⟩

end Sampler

end TextGen
