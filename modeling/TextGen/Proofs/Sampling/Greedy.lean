import TextGen.Proofs.Numeric.Arithmetic
import TextGen.Proofs.Sampling.Argmax
import TextGen.Proofs.Sampling.Draw

/-!
This module compares a cut to the one best candidate with the scan for the largest score. The scan
looks at the scores as they are, the cut at what the division by the temperature makes of them. The
division keeps the order, but it may round a smaller score to the same number as the largest one,
and then the cut keeps the earlier token.
-/

namespace TextGen

open Binary32

variable {logits : List Float32} {score largest temperature : Float32} {index : Nat}

/-! ## The settings -/

theorem penalizeRepeats_one (scores : List Float32) (history : List TokenId) (count : Nat)
    : penalizeRepeats scores history 1 count = scores := rfl

namespace SamplingConfig

theorem isScale_temperature {config : SamplingConfig} (hvalid : config.validate = .ok ())
    (hsample : config.doSample = true) : IsScale config.temperature := by
  have hchecked : config.temperature.isFinite = true ∧ 0 < config.temperature := by
    unfold validate at hvalid
    rw [if_pos hsample] at hvalid
    by_contra hnot
    rw [← decide_eq_true_iff (p := 0 < config.temperature), ← Bool.and_eq_true] at hnot
    rw [if_pos (by rw [eq_false_of_ne_true hnot, Bool.not_false])] at hvalid
    contradiction
  have hpositive := (lt_iff.mp hchecked.2).2
  have hzero : rankOf 0 = 0 := rfl
  have hkey := orderKey_cases config.temperature
  rw [hzero] at hpositive
  cases hkey with
  | inl h => exact ⟨h.1, by omega, isFinite_iff.mp hchecked.1⟩
  | inr h => omega

end SamplingConfig

def scaled (temperature score : Float32) : Float32 :=
  if (score / temperature).isNaN then negativeInfinity else score / temperature

theorem scaled_of_isNaN (h : score.isNaN = true) : scaled temperature score = negativeInfinity := by
  unfold scaled
  rw [if_pos (isNaN_of_toNat (toNat_toBits_div_of_isNaN h))]

theorem scaled_eq_div (h : IsScale temperature) (hscore : patternOf score ≤ 0x7f800000)
    : scaled temperature score = score / temperature := by
  have := h.patternOf_div_le hscore
  unfold scaled
  rw [if_neg]
  rw [isNaN_iff]
  omega

theorem orderKey_scaled_le (h : IsScale temperature) (hlargest : patternOf largest ≤ 0x7f800000)
    (hle : patternOf score ≤ 0x7f800000 → orderKey score.toBits ≤ orderKey largest.toBits)
    : orderKey (scaled temperature score).toBits ≤ orderKey (scaled temperature largest).toBits := by
  rw [scaled_eq_div h hlargest]
  by_cases hnumber : patternOf score ≤ 0x7f800000
  . rw [scaled_eq_div h hnumber]
    exact h.orderKey_div_le hnumber hlargest (hle hnumber)
  . have hquotient := h.patternOf_div_le hlargest
    have hkey := orderKey_cases (largest / temperature)
    have hleast : orderKey negativeInfinity.toBits = -1 - 0x7f800000 := rfl
    rw [scaled_of_isNaN (isNaN_iff.mpr (Nat.not_le.mp hnumber)), hleast]
    omega

/--
The first token whose score is scaled to the same number as that of another token, or that one.
-/
structure IsFirstTie (temperature : Float32) (logits : List Float32) (token index : Nat)
    : Prop where
  index_le : index ≤ token
  scaled_eq : logits[index]?.map (scaled temperature) = logits[token]?.map (scaled temperature)
  first : ∀ earlier < index,
    logits[earlier]?.map (scaled temperature) ≠ logits[token]?.map (scaled temperature)

theorem IsFirstTie.eq_iff {token : Nat} (h : IsFirstTie temperature logits token index)
    : index = token
        ↔ ∀ earlier < token,
          logits[earlier]?.map (scaled temperature) ≠ logits[token]?.map (scaled temperature) := by
  constructor
  . intro heq
    rw [heq] at h
    exact h.first
  . intro hfirst
    apply Nat.le_antisymm h.index_le
    apply Nat.le_of_not_lt
    intro hlt
    exact hfirst index hlt h.scaled_eq

/-! ## The largest score -/

theorem orderKey_le_of_not_lt (hnumber : patternOf score ≤ 0x7f800000)
    (hlargest : patternOf largest ≤ 0x7f800000) (hnot : ¬largest < score)
    (hzeros : ¬(largest = -0 ∧ score = 0)) : orderKey score.toBits ≤ orderKey largest.toBits := by
  -- The zeros are equal for the scan, and the zero without sign is the larger one for the cut.
  have hkey := orderKey_cases score
  have hkey' := orderKey_cases largest
  have hrank : ¬rankOf largest < rankOf score := fun h => hnot (lt_iff.mpr ⟨⟨hlargest, hnumber⟩, h⟩)
  by_contra hgt
  apply hzeros
  constructor
  . apply eq_of_orderKey_eq
    have : orderKey (-0 : Float32).toBits = -1 := rfl
    omega
  . apply eq_of_orderKey_eq
    have : orderKey (0 : Float32).toBits = 0 := rfl
    omega

theorem orderKey_scaled_le_argmax (hscale : IsScale temperature)
    (hlargest : logits[argmax logits]? = some largest) (hzeros : ¬(largest = -0 ∧ 0 ∈ logits))
    (hscore : score ∈ logits)
    : orderKey (scaled temperature score).toBits ≤ orderKey (scaled temperature largest).toBits := by
  have hinfinity : patternOf negativeInfinity = 0x7f800000 := rfl
  cases argmax_cases logits with
  -- Without a score above `-∞` all of them are scaled to `-∞`.
  | inl hnothing =>
    have hall : ∀ other ∈ logits, scaled temperature other = negativeInfinity := by
      intro other hother
      by_cases hnumber : patternOf other ≤ 0x7f800000
      . rw [scaled_eq_div hscale hnumber,
          eq_negativeInfinity_of_not_lt hnumber (hnothing.2 other hother),
          hscale.div_of_infinite hinfinity]
      . exact scaled_of_isNaN (isNaN_iff.mpr (Nat.not_le.mp hnumber))
    rw [hall score hscore, hall largest (List.mem_of_getElem? hlargest)]
  | inr hfound =>
    rcases hfound with ⟨value, hmaximum⟩
    have heq : value = largest := by
      rw [← Option.some_inj, ← hlargest, hmaximum.getElem?_eq]
    rw [heq] at hmaximum
    have hnumber := (lt_iff.mp hmaximum.above).1.2
    apply orderKey_scaled_le hscale hnumber
    intro hscoreNumber
    apply orderKey_le_of_not_lt hscoreNumber hnumber (hmaximum.greatest score hscore)
    intro hboth
    rw [hboth.2] at hscore
    exact hzeros ⟨hboth.1, hscore⟩

/-! ## The choice -/

namespace Candidate

theorem mem_ofScores_map_div_iff {c : Candidate}
    : c ∈ ofScores (logits.map (· / temperature))
        ↔ ∃ index : Nat, ∃ score, logits[index]? = some score
          ∧ c = .ofScore index (scaled temperature score) := by
  rw [mem_ofScores_iff]
  constructor
  . intro h
    rcases h with ⟨index, quotient, hquotient, rfl⟩
    rw [List.getElem?_map, Option.map_eq_some_iff] at hquotient
    rcases hquotient with ⟨score, hscore, rfl⟩
    exact ⟨index, score, hscore, rfl⟩
  . intro h
    rcases h with ⟨index, score, hscore, rfl⟩
    exact ⟨index, score / temperature, by rw [List.getElem?_map, hscore, Option.map_some], rfl⟩

end Candidate

namespace Sampler

open Candidate TextGen.Random

theorem select_of_topK_one (sampler : Sampler) (hlogits : logits ≠ []) (history : List TokenId)
    {config : SamplingConfig} (hsample : config.doSample = true) (htop : config.topK = 1)
    : ∃ best ∈ entries logits history config, (sampler.select logits history config).1 = best.id
        ∧ ∀ c ∈ entries logits history config, best.ranksBefore c = true := by
  rcases isBest_candidates hlogits history config with ⟨count, hpos, hle, hcut, hbest⟩
  have hcount : count = 1 := by
    rw [htop] at hcut
    omega
  have hlength := hbest.length_eq
  rw [hcount] at hlength
  rcases List.length_eq_one_iff.mp hlength with ⟨best, hkept⟩
  have hmem : best ∈ candidates logits history config := by
    rw [hkept]
    exact List.mem_singleton_self best
  refine ⟨best, hbest.mem best hmem, ?_, ?_⟩
  . unfold select
    rw [if_pos hsample, hkept]
    cases hweights : isDistribution (shares [best]) with
    | true =>
      rcases draw_of_isDistribution sampler hweights with ⟨index, hindex, _, hid⟩
      have hfirst : index = 0 := by simpa using hindex
      simp only [hid, hfirst, List.getElem_cons_zero]
    | false =>
      rcases draw_of_not_isDistribution sampler (by simp) hweights with ⟨c, hc, heq, _⟩
      rw [heq, List.mem_singleton.mp hc]
  . apply hbest.ranksBefore hmem
    intro c hc
    rw [hkept] at hc
    rw [List.mem_singleton.mp hc]
    exact ranksBefore_refl best

theorem entries_of_repeatPenalty_one {history : List TokenId} {config : SamplingConfig}
    (hscale : IsScale config.temperature) (hpenalty : config.repeatPenalty = 1)
    : entries logits history config = ofScores (logits.map (· / config.temperature)) := by
  have hzero : rankOf 0 = 0 := rfl
  have hpositive : ¬config.temperature ≤ 0 := by
    have hpos := hscale.pos
    have hrank := rankOf_of_positive hscale.sign_eq
    rw [le_iff, hzero]
    omega
  unfold entries applyTemperature
  rw [hpenalty, penalizeRepeats_one, if_neg hpositive]

theorem select_isFirstTie (sampler : Sampler) (hlogits : logits ≠ []) (history : List TokenId)
    {config : SamplingConfig} (hscale : IsScale config.temperature)
    (hsample : config.doSample = true) (htop : config.topK = 1)
    (hpenalty : config.repeatPenalty = 1)
    (hzeros : ¬(logits[argmax logits]? = some (-0) ∧ 0 ∈ logits))
    : ∃ index : Nat, (sampler.select logits history config).1 = index
        ∧ IsFirstTie config.temperature logits (argmax logits) index := by
  have hargmax := argmax_lt (List.length_pos_iff.mpr hlogits)
  have hlargest := List.getElem?_eq_getElem hargmax
  generalize logits[argmax logits] = largest at hlargest
  rw [hlargest, Option.some_inj] at hzeros
  rcases select_of_topK_one sampler hlogits history hsample htop with ⟨best, hmem, hid, hbest⟩
  rw [entries_of_repeatPenalty_one hscale hpenalty] at hmem hbest
  rcases mem_ofScores_map_div_iff.mp hmem with ⟨index, score, hscore, rfl⟩
  have hahead : ∀ other : Nat, ∀ otherScore, logits[other]? = some otherScore →
      orderKey (scaled config.temperature otherScore).toBits
          < orderKey (scaled config.temperature score).toBits
        ∨ orderKey (scaled config.temperature otherScore).toBits
            = orderKey (scaled config.temperature score).toBits ∧ index ≤ other := by
    intro other otherScore hother
    have hbefore := hbest _ (mem_ofScores_map_div_iff.mpr ⟨other, otherScore, hother, rfl⟩)
    rw [ranksBefore_eq_true_iff] at hbefore
    cases hbefore with
    | inl hlt => exact .inl hlt
    | inr heq => exact .inr ⟨heq.1, Int.ofNat_le.mp heq.2⟩
  have hle := orderKey_scaled_le_argmax hscale hlargest hzeros (List.mem_of_getElem? hscore)
  have hlargestAhead := hahead (argmax logits) largest hlargest
  refine ⟨index, hid, ?_, ?_, ?_⟩
  . omega
  . rw [hscore, hlargest]
    apply congrArg some
    apply eq_of_orderKey_eq
    omega
  . intro earlier hearlier heq
    have hearlierScore := List.getElem?_eq_getElem (l := logits) (i := earlier) (by omega)
    rw [hearlierScore, hlargest] at heq
    have htie : scaled config.temperature logits[earlier] = scaled config.temperature largest :=
      Option.some_inj.mp heq
    have hearlierAhead := hahead earlier _ hearlierScore
    rw [htie] at hearlierAhead
    omega

structure MatchesArgmax (temperature : Float32) (logits : List Float32) (choice : TokenId)
    : Prop where
  isFirstTie : ∃ index : Nat, choice = index
    ∧ IsFirstTie temperature logits (argmax logits) index
  eq_argmax_iff : choice = argmax logits
    ↔ ∀ earlier < argmax logits, logits[earlier]?.map (scaled temperature)
        ≠ logits[argmax logits]?.map (scaled temperature)

/--
With a single candidate left, sampling is greedy as far as the scaled scores can tell. The scan does
not tell the two zeros apart, so that it must not have stopped at the smaller one.
-/
theorem select_matchesArgmax (sampler : Sampler) (hlogits : logits ≠ []) (history : List TokenId)
    {config : SamplingConfig} (hvalid : config.validate = .ok ()) (hsample : config.doSample = true)
    (htop : config.topK = 1) (hpenalty : config.repeatPenalty = 1)
    (hzeros : ¬(logits[argmax logits]? = some (-0) ∧ 0 ∈ logits))
    : MatchesArgmax config.temperature logits (sampler.select logits history config).1 := by
  have hscale := SamplingConfig.isScale_temperature hvalid hsample
  rcases select_isFirstTie sampler hlogits history hscale hsample htop hpenalty hzeros with
    ⟨index, hid, htie⟩
  constructor
  . exact ⟨index, hid, htie⟩
  . rw [hid, Int.ofNat_inj]
    exact htie.eq_iff

theorem select_matchesArgmax_of_tie
    : let logits : List Float32 := [0.5, 2, -1, 2]
      let config : SamplingConfig := { temperature := 0.7, topK := 1, repeatPenalty := 1 }
      (logits ≠ [] ∧ config.validate = .ok () ∧ config.doSample = true ∧ config.topK = 1
          ∧ config.repeatPenalty = 1 ∧ ¬(logits[argmax logits]? = some (-0) ∧ 0 ∈ logits))
        ∧ MatchesArgmax config.temperature logits ((ofSeed 7).select logits [1, 1] config).1 :=
  have hzeros : ¬([0.5, 2, -1, 2][argmax [0.5, 2, -1, 2]]? = some (-0 : Float32)
      ∧ (0 : Float32) ∈ [0.5, 2, -1, 2]) := fun h => absurd h.1 (by decide +kernel)
  ⟨⟨by simp, rfl, rfl, rfl, rfl, hzeros⟩,
    select_matchesArgmax (ofSeed 7) (by simp) [1, 1] rfl rfl rfl rfl hzeros⟩

theorem not_forall_select_eq_argmax
    : ¬∀ (sampler : Sampler) (logits : List Float32) (history : List TokenId)
          (config : SamplingConfig),
        logits ≠ [] → config.validate = .ok () → config.doSample = true → config.topK = 1 →
          config.repeatPenalty = 1 → (sampler.select logits history config).1 = argmax logits := by
  intro h
  have hargmax : argmax [16777213, 16777214] = 1 := rfl
  have hcollision : scaled 1.5 16777213 = scaled 1.5 16777214 := rfl
  have hzeros : ¬([16777213, 16777214][argmax [16777213, 16777214]]? = some (-0 : Float32)
      ∧ (0 : Float32) ∈ [16777213, 16777214]) := fun h => absurd h.1 (by decide +kernel)
  generalize hconfig : ({ temperature := 1.5, topK := 1, topP := 1, repeatPenalty := 1 }
    : SamplingConfig) = config
  have hvalid : config.validate = .ok () := by
    rw [← hconfig]
    rfl
  have htemperature : config.temperature = 1.5 := by rw [← hconfig]
  have hsample : config.doSample = true := by rw [← hconfig]
  have htop : config.topK = 1 := by rw [← hconfig]
  have hpenalty : config.repeatPenalty = 1 := by rw [← hconfig]
  have hscale := SamplingConfig.isScale_temperature hvalid hsample
  rcases select_isFirstTie (ofSeed 1) (by simp) [] hscale hsample htop hpenalty hzeros with
    ⟨index, hid, htie⟩
  have heq := h (ofSeed 1) [16777213, 16777214] [] config (by simp) hvalid hsample htop hpenalty
  rw [hid, hargmax] at heq
  have hindex : index = 1 := Int.ofNat_inj.mp heq
  rw [hindex, hargmax, htemperature] at htie
  exact htie.first 0 Nat.zero_lt_one (congrArg some hcollision)

end Sampler

end TextGen
