import Mathlib.Data.List.Induction
import TextGen.Proofs.Numeric.Decoding
import TextGen.Sampling.Sampler

/-!
This module contains what the scan for the largest score has found after any number of scores: the
first one among the largest, or nothing if no score so far is above `-∞`.
-/

namespace TextGen

open Binary32 (negativeInfinity)

structure IsFirstMaximum (scores : List Float32) (index : Nat) (value : Float32) : Prop where
  getElem?_eq : scores[index]? = some value
  above : negativeInfinity < value
  greatest : ∀ score ∈ scores, ¬value < score
  first : ∀ earlier < index, ∀ score, scores[earlier]? = some score → ¬value ≤ score

inductive Scanned (scores : List Float32) : Nat × Float32 → Prop
  | nothing (h : ∀ score ∈ scores, ¬negativeInfinity < score) : Scanned scores (0, negativeInfinity)
  | found (best : Nat × Float32) (h : IsFirstMaximum scores best.1 best.2) : Scanned scores best

variable {scores : List Float32} {score value : Float32} {index : Nat}

theorem IsFirstMaximum.index_lt (h : IsFirstMaximum scores index value) : index < scores.length :=
  (List.getElem?_eq_some_iff.mp h.getElem?_eq).1

theorem IsFirstMaximum.isNaN_eq_false (h : IsFirstMaximum scores index value)
    : value.isNaN = false := by
  have habove := Binary32.lt_iff.mp h.above
  rw [← Bool.not_eq_true, Binary32.isNaN_iff]
  omega

theorem IsFirstMaximum.isNaN_or_lt (h : IsFirstMaximum scores index value) {earlier : Nat}
    (hearlier : earlier < index) (hscore : scores[earlier]? = some score)
    : score.isNaN = true ∨ score < value := by
  have habove := Binary32.lt_iff.mp h.above
  have hnot := h.first earlier hearlier score hscore
  rw [Binary32.le_iff] at hnot
  rw [Binary32.isNaN_iff, Binary32.lt_iff]
  omega

theorem IsFirstMaximum.append_of_lt (h : ∀ other ∈ scores, ¬score ≤ other)
    (habove : negativeInfinity < score)
    : IsFirstMaximum (scores ++ [score]) scores.length score := by
  constructor
  . simp
  . exact habove
  . intro other hother
    cases List.mem_append.mp hother with
    | inl hmem => exact Binary32.not_lt_of_not_le (h other hmem)
    | inr hlast =>
      rw [List.mem_singleton.mp hlast]
      exact Binary32.not_lt_self score
  . intro earlier hearlier other hother
    rw [List.getElem?_append_left hearlier] at hother
    exact h other (List.mem_of_getElem? hother)

theorem IsFirstMaximum.append_of_not_lt (h : IsFirstMaximum scores index value)
    (hnot : ¬value < score) : IsFirstMaximum (scores ++ [score]) index value := by
  have hindex := h.index_lt
  constructor
  . rw [List.getElem?_append_left hindex]
    exact h.getElem?_eq
  . exact h.above
  . intro other hother
    cases List.mem_append.mp hother with
    | inl hmem => exact h.greatest other hmem
    | inr hlast =>
      rw [List.mem_singleton.mp hlast]
      exact hnot
  . intro earlier hearlier other hother
    rw [List.getElem?_append_left (by omega)] at hother
    exact h.first earlier hearlier other hother

theorem Scanned.step {best : Nat × Float32} (h : Scanned scores best)
    : Scanned (scores ++ [score]) (argmax.step best (score, scores.length)) := by
  unfold argmax.step
  cases h with
  | nothing h =>
    dsimp only
    split
    . next hlt =>
      apply Scanned.found (_, _)
      apply IsFirstMaximum.append_of_lt _ hlt
      exact fun other hother => Binary32.not_le_of_lt_of_not_lt hlt (h other hother)
    . next hnot =>
      apply Scanned.nothing
      intro other hother
      cases List.mem_append.mp hother with
      | inl hmem => exact h other hmem
      | inr hlast =>
        rw [List.mem_singleton.mp hlast]
        exact hnot
  | found best h =>
    dsimp only
    split
    . next hlt =>
      apply Scanned.found (_, _)
      apply IsFirstMaximum.append_of_lt _ (Binary32.lt_of_lt_of_lt h.above hlt)
      exact fun other hother => Binary32.not_le_of_lt_of_not_lt hlt (h.greatest other hother)
    . next hnot => exact Scanned.found best (h.append_of_not_lt hnot)

theorem scanned_foldl (scores : List Float32)
    : Scanned scores (scores.zipIdx.foldl argmax.step (0, negativeInfinity)) := by
  induction scores using List.reverseRecOn with
  | nil => exact Scanned.nothing nofun
  | append_singleton scores score ih =>
    rw [List.zipIdx_append, List.foldl_append, Nat.zero_add]
    exact ih.step

theorem argmax_cases (scores : List Float32)
    : (argmax scores = 0 ∧ ∀ score ∈ scores, ¬negativeInfinity < score)
        ∨ ∃ value, IsFirstMaximum scores (argmax scores) value := by
  have hscan := scanned_foldl scores
  unfold argmax
  generalize scores.zipIdx.foldl argmax.step (0, negativeInfinity) = best at hscan ⊢
  cases hscan with
  | nothing h => exact .inl ⟨rfl, h⟩
  | found best h => exact .inr ⟨best.2, h⟩

/--
With a score above `-∞`, the index is that of a number that no score exceeds and that exceeds every
number before it. Without one, the index is zero.
-/
structure PointsAtFirstMaximum (scores : List Float32) (index : Nat) : Prop where
  of_above : (∃ score ∈ scores, negativeInfinity < score) →
    ∃ h : index < scores.length, scores[index].isNaN = false
      ∧ (∀ score ∈ scores, ¬scores[index] < score)
      ∧ ∀ (earlier : Nat) (hearlier : earlier < index),
        scores[earlier].isNaN = true ∨ scores[earlier] < scores[index]
  of_not_above : (∀ score ∈ scores, ¬negativeInfinity < score) → index = 0

theorem argmax_pointsAtFirstMaximum (scores : List Float32)
    : PointsAtFirstMaximum scores (argmax scores) := by
  rcases argmax_cases scores with ⟨hzero, hnothing⟩ | ⟨value, hmaximum⟩
  . constructor
    . rintro ⟨score, hmem, habove⟩
      exact absurd habove (hnothing score hmem)
    . exact fun _ => hzero
  . rcases List.getElem?_eq_some_iff.mp hmaximum.getElem?_eq with ⟨hlt, hvalue⟩
    constructor
    . intro _
      refine ⟨hlt, ?_, ?_, ?_⟩
      . rw [hvalue]
        exact hmaximum.isNaN_eq_false
      . rw [hvalue]
        exact hmaximum.greatest
      . intro earlier hearlier
        rw [hvalue]
        apply hmaximum.isNaN_or_lt hearlier
        simp
    . intro hnot
      exact absurd hmaximum.above (hnot value (List.mem_of_getElem? hmaximum.getElem?_eq))

end TextGen
