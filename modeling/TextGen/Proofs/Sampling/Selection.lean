import TextGen.Proofs.Backend.Scores
import TextGen.Sampling.Sampler

/-!
This module contains the range of what is chosen from scores: every choice is the index of a score,
and so a choice from the scores of a model is a token of its vocabulary.
-/

namespace TextGen

/-! ## The largest score -/

theorem foldl_argmax_lt {count : Nat} (entries : List (Float32 × Nat)) (best : Nat × Float32)
    (hbest : best.1 < count) (hentries : ∀ entry ∈ entries, entry.2 < count)
    : (entries.foldl argmax.step best).1 < count := by
  induction entries generalizing best with
  | nil => exact hbest
  | cons entry entries ih =>
    apply ih
    . unfold argmax.step
      split
      . exact hentries entry (by simp)
      . exact hbest
    . intro other hother
      exact hentries other (by simp [hother])

theorem snd_lt_of_mem_zipIdx {xs : List α} {entry : α × Nat} (h : entry ∈ xs.zipIdx)
    : entry.2 < xs.length := by
  have := List.snd_lt_of_mem_zipIdx h
  simpa using this

theorem argmax_lt {scores : List Float32} (h : 0 < scores.length)
    : argmax scores < scores.length :=
  foldl_argmax_lt _ _ h fun _ hentry => snd_lt_of_mem_zipIdx hentry

/-! ## The candidates -/

namespace Candidate

theorem mem_topK {c : Candidate} {candidates : List Candidate} {count : Nat}
    (h : c ∈ topK candidates count) : c ∈ candidates := by
  unfold topK at h
  split at h
  . exact h
  . have := List.mem_of_mem_take h
    simpa [ranked] using this

theorem mem_topP {c : Candidate} {candidates : List Candidate} {share : Float32}
    (h : c ∈ topP candidates share) : c ∈ candidates := by
  unfold topP at h
  split at h
  . split at h
    . simp at h
    . next hranked =>
      have := List.mem_of_mem_take h
      rw [← hranked] at this
      simpa [ranked] using this
  . exact h

theorem getElem?_ofScores (scores : List Float32) (index : Nat)
    : (ofScores scores)[index]?
        =
      scores[index]?.map fun score =>
        .ofScore index (if score.isNaN then Binary32.negativeInfinity else score) := by
  unfold ofScores
  rw [List.getElem?_map, List.getElem?_zipIdx, Option.map_map, Nat.zero_add]
  rfl

theorem mem_ofScores_iff {c : Candidate} {scores : List Float32}
    : c ∈ ofScores scores
        ↔ ∃ index : Nat, ∃ score, scores[index]? = some score
          ∧ .ofScore index (if score.isNaN then Binary32.negativeInfinity else score) = c := by
  rw [List.mem_iff_getElem?]
  simp only [getElem?_ofScores, Option.map_eq_some_iff]

theorem exists_index_of_mem_ofScores {c : Candidate} {scores : List Float32}
    (h : c ∈ ofScores scores) : ∃ index < scores.length, c.id = index := by
  rcases mem_ofScores_iff.mp h with ⟨index, score, hscore, rfl⟩
  exact ⟨index, (List.getElem?_eq_some_iff.mp hscore).1, rfl⟩

theorem mem_of_foldl {α : Type} {step : Option α → α → Option α}
    (hstep : ∀ best x y, step best x = some y → best = some y ∨ x = y) {y : α} (xs : List α)
    (best : Option α) (h : xs.foldl step best = some y) : best = some y ∨ y ∈ xs := by
  induction xs generalizing best with
  | nil => exact .inl h
  | cons x xs ih =>
    rcases ih _ h with hhead | htail
    . rcases hstep best x y hhead with hbest | rfl
      . exact .inl hbest
      . simp
    . simp [htail]

theorem mem_of_best? {c : Candidate} {candidates : List Candidate} (h : best? candidates = some c)
    : c ∈ candidates := by
  have hmem := mem_of_foldl ?_ candidates none h
  . rcases hmem with hnone | hmem
    . contradiction
    . exact hmem
  . intro best x y hstep
    split at hstep
    . exact .inr (Option.some.inj hstep)
    . split at hstep
      . exact .inl hstep
      . exact .inr (Option.some.inj hstep)

end Candidate

/-! ## The choice -/

@[simp]
theorem length_penalizeRepeats (scores : List Float32) (history : List TokenId) (penalty : Float32)
    (count : Nat) : (penalizeRepeats scores history penalty count).length = scores.length := by
  unfold penalizeRepeats
  split
  . rfl
  . simp

@[simp]
theorem length_applyTemperature (scores : List Float32) (temperature : Float32)
    : (applyTemperature scores temperature).length = scores.length := by
  unfold applyTemperature
  split
  . rfl
  . simp

namespace Sampler

theorem exists_index_of_mem_candidates {c : Candidate} {logits : List Float32}
    {history : List TokenId} {config : SamplingConfig} (h : c ∈ candidates logits history config)
    : ∃ index < logits.length, c.id = index := by
  have := Candidate.exists_index_of_mem_ofScores (Candidate.mem_topK (Candidate.mem_topP h))
  simpa using this

theorem exists_index_draw (sampler : Sampler) {candidates : List Candidate} {count : Nat}
    (hcount : 0 < count) (h : ∀ c ∈ candidates, ∃ index < count, c.id = index)
    : ∃ index < count, (sampler.draw candidates).1 = index := by
  have hfallback : ∃ index < count, (Candidate.best? candidates).elim 0 (·.id) = index := by
    cases hbest : Candidate.best? candidates with
    | none => exact ⟨0, hcount, rfl⟩
    | some c => exact h c (Candidate.mem_of_best? hbest)
  unfold draw
  dsimp only
  split
  . exact hfallback
  . next index _ _ =>
    cases hget : candidates[index]? with
    | none => exact hfallback
    | some c => exact h c (List.mem_of_getElem? hget)

theorem exists_index_select (sampler : Sampler) {logits : List Float32}
    (hlogits : 0 < logits.length) (history : List TokenId) (config : SamplingConfig)
    : ∃ index < logits.length, (sampler.select logits history config).1 = index := by
  unfold select
  split
  . exact exists_index_draw sampler hlogits fun _ hc => exists_index_of_mem_candidates hc
  . exact ⟨argmax logits, argmax_lt hlogits, rfl⟩

end Sampler

/-! ## The vocabulary -/

namespace BigramModel

structure IsRunnable (model : BigramModel) : Prop where
  valid : model.validate = .ok ()
  vocabSize_lt : model.shape.vocabSize < wordCount 64

theorem IsRunnable.isPositive {model : BigramModel} (h : model.IsRunnable)
    : model.shape.IsPositive :=
  isPositive_of_validate h.valid

theorem IsRunnable.inVocabulary {model : BigramModel} (h : model.IsRunnable) {id : TokenId}
    (hid : model.inVocabulary id = true) {index : Nat} (hindex : index < model.shape.vocabSize)
    : model.inVocabulary index = true := by
  have hbound : model.shape.vocabSize < 18446744073709551616 := h.vocabSize_lt
  have hend : model.vocabularyEnd = Int.bmod model.shape.vocabSize 18446744073709551616 := rfl
  have hid : 0 ≤ id ∧ id < model.vocabularyEnd := by simpa [BigramModel.inVocabulary] using hid
  have hpositive : (0 : Int) < model.vocabularyEnd := Int.lt_of_le_of_lt hid.1 hid.2
  have : (index : Int) < model.vocabularyEnd := by
    rw [hend, Int.bmod_def] at hpositive ⊢
    -- A vocabulary that has wrapped around to a negative end has no token.
    split at hpositive
    . next hlow =>
      rw [if_pos hlow]
      omega
    . omega
  simpa [BigramModel.inVocabulary] using this

theorem IsRunnable.inVocabulary_select {model : BigramModel} (h : model.IsRunnable) {id : TokenId}
    (hid : model.inVocabulary id = true) (sampler : Sampler) (tokens history : List TokenId)
    (config : SamplingConfig)
    : model.inVocabulary (sampler.select (model.scoresAfter tokens) history config).1 = true := by
  have hscores : 0 < (model.scoresAfter tokens).length := by
    rw [length_scoresAfter]
    exact h.isPositive.vocabSize
  rcases sampler.exists_index_select hscores history config with ⟨index, hindex, hselect⟩
  rw [length_scoresAfter] at hindex
  rw [hselect]
  exact h.inVocabulary hid hindex

end BigramModel

end TextGen
