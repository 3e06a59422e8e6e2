import TextGen.Proofs.Sampling.Penalty
import TextGen.Proofs.Sampling.Ranking

/-!
This module contains what a sampled choice is made from: whatever the scores and the settings are,
some best candidates are left, and the choice is one of them. If their weights form no distribution,
it is the very best one.
-/

namespace TextGen

namespace Random

theorem length_go (weights : List Float32) (sum : Float32)
    : (partialSums.go sum weights).length = weights.length := by
  induction weights generalizing sum with
  | nil => rfl
  | cons w ws ih => simp [partialSums.go, ih]

theorem indexAt_lt {weights : List Float32} (h : weights ≠ []) (word : UInt32)
    : indexAt weights word < weights.length := by
  -- The last partial sum is left out, so that no point lies behind the last index.
  have hlength : 0 < weights.length := List.length_pos_iff.mpr h
  have hsums : (partialSums weights).dropLast.length = weights.length - 1 := by
    rw [List.length_dropLast, partialSums, length_go]
  have hprefix := (List.takeWhile_prefix (l := (partialSums weights).dropLast)
    fun sum => decide (sum ≤ unitPoint word * total weights)).length_le
  unfold indexAt
  dsimp only
  omega

theorem ne_nil_of_isDistribution {weights : List Float32} (h : isDistribution weights = true)
    : weights ≠ [] := by
  rintro rfl
  simp [isDistribution] at h

end Random

theorem getElem?_applyTemperature (scores : List Float32) (temperature : Float32) (index : Nat)
    : (applyTemperature scores temperature)[index]?
        =
      scores[index]?.map fun score =>
        if temperature ≤ 0 then score else score / temperature := by
  unfold applyTemperature
  split <;> simp

namespace Candidate

theorem map_id_ofScores (scores : List Float32)
    : (ofScores scores).map (·.id) = (List.range scores.length).map fun index : Nat => (index : Int)
    := by
  rw [List.range_eq_range', ← List.zipIdx_map_snd 0 scores, List.map_map]
  unfold ofScores
  rw [List.map_map]
  rfl

theorem nodup_id_ofScores (scores : List Float32) : ((ofScores scores).map (·.id)).Nodup := by
  rw [map_id_ofScores]
  exact List.nodup_range.map fun _ _ h => Int.ofNat_inj.mp h

@[simp]
theorem length_softmax (candidates : List Candidate)
    : (softmax candidates).length = candidates.length := by
  simp [softmax, weights]

end Candidate

namespace Sampler

open Candidate TextGen.Random

variable {kept : List Candidate}

def entries (logits : List Float32) (history : List TokenId) (config : SamplingConfig) :
    List Candidate :=
  Candidate.ofScores (applyTemperature
    (penalizeRepeats logits history config.repeatPenalty config.repeatLastN) config.temperature)

def adjusted (history : List TokenId) (config : SamplingConfig) (index : Nat) (score : Float32) :
    Float32 :=
  let score :=
    if (config.repeatPenalty == 1) = false
        ∧ (index : TokenId) ∈ recent history config.repeatLastN then
      if 0 < score then score / config.repeatPenalty else score * config.repeatPenalty
    else score
  let score := if config.temperature ≤ 0 then score else score / config.temperature
  if score.isNaN then Binary32.negativeInfinity else score

theorem getElem?_entries (logits : List Float32) (history : List TokenId) (config : SamplingConfig)
    (index : Nat)
    : (entries logits history config)[index]?
        =
      logits[index]?.map fun score => .ofScore index (adjusted history config index score) := by
  unfold entries
  rw [getElem?_ofScores, getElem?_applyTemperature, getElem?_penalizeRepeats, Option.map_map,
    Option.map_map]
  rfl

def shares (kept : List Candidate) : List Float32 := (softmax kept).map (·.score)

theorem draw_of_isDistribution (sampler : Sampler) (h : isDistribution (shares kept) = true)
    : ∃ index, ∃ hindex : index < kept.length,
        (sampler.generator.weighted? (shares kept)).1 = some index
          ∧ (sampler.draw kept).1 = kept[index].id := by
  have hword := indexAt_lt (ne_nil_of_isDistribution h) sampler.generator.next.1
  have hlength : (shares kept).length = kept.length := by
    unfold shares
    rw [List.length_map, length_softmax]
  have hdrawn : sampler.generator.weighted? (shares kept)
      = (some (indexAt (shares kept) sampler.generator.next.1), sampler.generator.next.2) := by
    unfold Generator.weighted?
    rw [if_pos h]
  rw [hlength] at hword
  refine ⟨_, hword, congrArg Prod.fst hdrawn, ?_⟩
  have hshares : (softmax kept).map (·.score) = shares kept := rfl
  simp only [draw, hshares, hdrawn, List.getElem?_eq_getElem hword, Option.elim_some]

theorem draw_of_not_isDistribution (sampler : Sampler) (hne : kept ≠ [])
    (h : isDistribution (shares kept) = false)
    : ∃ best ∈ kept, sampler.draw kept = (best.id, sampler)
        ∧ ∀ c ∈ kept, best.ranksBefore c = true := by
  rcases best?_of_ne_nil hne with ⟨best, hmem, hbest, hfirst⟩
  refine ⟨best, hmem, ?_, hfirst⟩
  have hdrawn : sampler.generator.weighted? (shares kept) = (none, sampler.generator) := by
    unfold Generator.weighted?
    rw [if_neg (by simp [h])]
  have hshares : (softmax kept).map (·.score) = shares kept := rfl
  simp only [draw, hshares, hdrawn, hbest, Option.elim_some]

theorem map_id_entries (logits : List Float32) (history : List TokenId) (config : SamplingConfig)
    : (entries logits history config).map (·.id)
        =
      (List.range logits.length).map fun index : Nat => (index : Int) := by
  unfold entries
  rw [map_id_ofScores, length_applyTemperature, length_penalizeRepeats]

theorem length_entries (logits : List Float32) (history : List TokenId) (config : SamplingConfig)
    : (entries logits history config).length = logits.length := by
  have := congrArg List.length (map_id_entries logits history config)
  simpa using this

theorem id_lt_of_mem_entries {c : Candidate} {logits : List Float32} {history : List TokenId}
    {config : SamplingConfig} (h : c ∈ entries logits history config)
    : 0 ≤ c.id ∧ c.id < logits.length := by
  have hid : c.id ∈ (entries logits history config).map (·.id) := List.mem_map_of_mem h
  rw [map_id_entries] at hid
  rcases List.mem_map.mp hid with ⟨index, hindex, heq⟩
  rw [← heq]
  exact ⟨Int.natCast_nonneg index, Int.ofNat_lt.mpr (List.mem_range.mp hindex)⟩

theorem isBest_candidates {logits : List Float32} (hlogits : logits ≠ [])
    (history : List TokenId) (config : SamplingConfig)
    : ∃ count, 1 ≤ count ∧ count ≤ logits.length
        ∧ (0 < config.topK → config.topK < logits.length → count ≤ config.topK)
        ∧ IsBest (candidates logits history config) (entries logits history config) count := by
  have hlength := length_entries logits history config
  have hne : entries logits history config ≠ [] := by
    rw [← List.length_pos_iff, hlength]
    exact List.length_pos_iff.mpr hlogits
  rcases exists_perm_take_of_cuts hne config.topK config.topP with
    ⟨count, hpos, hle, hcut, hperm⟩
  have hbest := isBest_of_perm_take (nodup_id_ofScores _) hle hperm
  rw [hlength] at hle hcut
  exact ⟨count, hpos, hle, hcut, hbest⟩

/--
A choice is made among the best candidates of the whole vocabulary: it is the one that is drawn, or
the very best one if the weights of the candidates form no distribution.
-/
structure ChoosesAmong (sampler : Sampler) (logits : List Float32) (history : List TokenId)
    (config : SamplingConfig) (choice : TokenId × Sampler) : Prop where
  entries_eq : (entries logits history config).map (·.id)
    = (List.range logits.length).map fun index : Nat => (index : Int)
  scores_eq : ∀ index : Nat, (entries logits history config)[index]?.map (·.score)
    = logits[index]?.map (adjusted history config index)
  isBest : ∃ count, 1 ≤ count ∧ count ≤ logits.length
    ∧ (0 < config.topK → config.topK < logits.length → count ≤ config.topK)
    ∧ IsBest (candidates logits history config) (entries logits history config) count
  isKept : ∃ c ∈ candidates logits history config, choice.1 = c.id
  inRange : 0 ≤ choice.1 ∧ choice.1 < logits.length
  drawn : isDistribution (shares (candidates logits history config)) = true →
    ∃ index, ∃ hindex : index < (candidates logits history config).length,
      (sampler.generator.weighted? (shares (candidates logits history config))).1 = some index
        ∧ choice.1 = (candidates logits history config)[index].id
  fallback : isDistribution (shares (candidates logits history config)) = false →
    ∃ best ∈ candidates logits history config, choice = (best.id, sampler)
      ∧ ∀ c ∈ entries logits history config, best.ranksBefore c = true

theorem select_choosesAmong (sampler : Sampler) {logits : List Float32} (hlogits : logits ≠ [])
    (history : List TokenId) {config : SamplingConfig} (hsample : config.doSample = true)
    : sampler.ChoosesAmong logits history config (sampler.select logits history config) := by
  rcases isBest_candidates hlogits history config with ⟨count, hpos, hle, hcut, hbest⟩
  have hkept : candidates logits history config ≠ [] := by
    rw [← List.length_pos_iff, hbest.length_eq]
    exact hpos
  have hselect : sampler.select logits history config
      = sampler.draw (candidates logits history config) := if_pos hsample
  have hdrawn : isDistribution (shares (candidates logits history config)) = true → _ :=
    draw_of_isDistribution sampler
  have hfallback := draw_of_not_isDistribution sampler hkept
  rw [← hselect] at hdrawn hfallback
  have hchosen : ∃ c ∈ candidates logits history config,
      (sampler.select logits history config).1 = c.id := by
    cases hweights : isDistribution (shares (candidates logits history config)) with
    | true =>
      rcases hdrawn hweights with ⟨index, hindex, _, hid⟩
      exact ⟨_, List.getElem_mem hindex, hid⟩
    | false =>
      rcases hfallback hweights with ⟨best, hmem, heq, _⟩
      exact ⟨best, hmem, congrArg Prod.fst heq⟩
  constructor
  . exact map_id_entries logits history config
  . intro index
    rw [getElem?_entries, Option.map_map]
    apply Option.map_congr
    exact fun score _ => score_ofScore index _
  . exact ⟨count, hpos, hle, hcut, hbest⟩
  . exact hchosen
  . rcases hchosen with ⟨c, hc, hid⟩
    rw [hid]
    exact id_lt_of_mem_entries (hbest.mem c hc)
  . exact hdrawn
  -- The best of the candidates is the best of all, since what was cut off ranks behind it.
  . intro hweights
    rcases hfallback hweights with ⟨best, hmem, heq, hfirst⟩
    refine ⟨best, hmem, heq, ?_⟩
    intro c hc
    by_cases hin : c ∈ candidates logits history config
    . exact hfirst c hin
    . exact ranksBefore_of_not (hbest.ahead best hmem c hc hin)

theorem select_choosesAmong_of_degenerate_scores
    : let logits : List Float32 := [0 / 0, 1 / 0, -1 / 0, 1 / 0]
      let config : SamplingConfig := { topK := 2, temperature := 0 }
      (logits ≠ [] ∧ config.doSample = true)
        ∧ (ofSeed 7).ChoosesAmong logits [1, 1] config ((ofSeed 7).select logits [1, 1] config) :=
  ⟨⟨by simp, rfl⟩, select_choosesAmong (ofSeed 7) (by simp) [1, 1] rfl⟩

end Sampler

end TextGen
