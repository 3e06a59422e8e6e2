import Mathlib.Data.List.Nodup
import TextGen.Proofs.Sampling.Selection

/-!
This module contains the repetition penalty as an operation on sets: what it does to a score depends
on whether the token is among the recent ones at all, and on nothing else. So the scores may as well
be dampened in place, one recent token after the other and in any order.
-/

namespace TextGen

variable {scores : List Float32} {history other : List TokenId} {penalty : Float32}
variable {count otherCount : Nat} {id : TokenId}

/-! ## The window -/

def OccursAmongLast (history : List TokenId) (count : Nat) (id : TokenId) : Prop :=
  ∃ position, history.length - min history.length count ≤ position
    ∧ history[position]? = some id

theorem mem_recent_iff : id ∈ recent history count ↔ OccursAmongLast history count id := by
  unfold recent OccursAmongLast
  rw [List.mem_iff_getElem?]
  constructor
  . intro h
    cases h with
    | intro index hindex =>
      rw [List.getElem?_drop] at hindex
      exact ⟨_, Nat.le_add_right _ index, hindex⟩
  . intro h
    cases h with
    | intro position hposition =>
      exists position - (history.length - min history.length count)
      rw [List.getElem?_drop, Nat.add_sub_cancel' hposition.1]
      exact hposition.2

theorem recent_of_length_le (h : history.length ≤ count) : recent history count = history := by
  unfold recent
  rw [Nat.min_eq_left h, Nat.sub_self, List.drop_zero]

theorem length_recent_le : (recent history count).length ≤ count := by
  unfold recent
  rw [List.length_drop]
  omega

/-! ## One score -/

theorem getElem?_penalizeRepeats (index : Nat)
    : (penalizeRepeats scores history penalty count)[index]?
        =
      scores[index]?.map fun score =>
        if (penalty == 1) = false ∧ (index : TokenId) ∈ recent history count then
          dampen penalty score
        else
          score := by
  unfold penalizeRepeats
  split
  . next hone => simp [hone]
  . next hother =>
    rw [List.getElem?_map, List.getElem?_zipIdx, Option.map_map]
    apply Option.map_congr
    intro score _
    simp [hother]

theorem penalizeRepeats_congr
    (h : ∀ index : Nat, index < scores.length →
      ((index : TokenId) ∈ recent history count ↔ (index : TokenId) ∈ recent other otherCount))
    : penalizeRepeats scores history penalty count
        =
      penalizeRepeats scores other penalty otherCount := by
  apply List.ext_getElem?
  intro index
  rw [getElem?_penalizeRepeats, getElem?_penalizeRepeats]
  apply Option.map_congr
  intro score hscore
  have hindex : index < scores.length := (List.getElem?_eq_some_iff.mp hscore).1
  simp only [h index hindex]

/-! ## One token after the other -/

def dampenAt (penalty : Float32) (scores : List Float32) (id : TokenId) : List Float32 :=
  if id < 0 then scores else scores.modify id.toNat (dampen penalty)

theorem getElem?_dampenAt (index : Nat)
    : (dampenAt penalty scores id)[index]?
        =
      scores[index]?.map fun score => if id = index then dampen penalty score else score := by
  unfold dampenAt
  split
  . next hnegative =>
    have hne : id ≠ index := by
      intro heq
      rw [heq] at hnegative
      exact absurd hnegative (Int.not_lt.mpr (Int.natCast_nonneg index))
    simp [hne]
  . next hindex =>
    have hiff : id.toNat = index ↔ id = index := by
      rw [← Int.toNat_of_nonneg (Int.not_lt.mp hindex), Int.toNat_natCast, Int.natCast_inj]
    rw [List.getElem?_modify]
    simp only [hiff]
    rfl

theorem getElem?_foldl_dampenAt {order : List TokenId} (hnodup : order.Nodup) (index : Nat)
    : (order.foldl (dampenAt penalty) scores)[index]?
        =
      scores[index]?.map fun score =>
        if (index : TokenId) ∈ order then dampen penalty score else score := by
  -- No token is visited twice, so that what is dampened is always the score that was there first.
  induction order generalizing scores with
  | nil => simp
  | cons id order ih =>
    have hfresh : id ∉ order := (List.nodup_cons.mp hnodup).1
    rw [List.foldl_cons, ih (List.nodup_cons.mp hnodup).2, getElem?_dampenAt, Option.map_map]
    apply Option.map_congr
    intro score _
    by_cases hid : id = index
    . subst hid
      simp [hfresh]
    . have : (index : TokenId) ∈ id :: order ↔ (index : TokenId) ∈ order := by
        simp [Ne.symm hid]
      simp [hid, this]

theorem foldl_dampenAt_eq_penalizeRepeats {order : List TokenId} (hnodup : order.Nodup)
    (hmem : ∀ id, id ∈ order ↔ id ∈ recent history count) (hpenalty : (penalty == 1) = false)
    : order.foldl (dampenAt penalty) scores = penalizeRepeats scores history penalty count := by
  apply List.ext_getElem?
  intro index
  rw [getElem?_foldl_dampenAt hnodup, getElem?_penalizeRepeats]
  simp [hmem, hpenalty]

/-! ## The penalty -/

structure DampensOnce (scores : List Float32) (history : List TokenId) (penalty : Float32)
    (count : Nat) (result : List Float32) : Prop where
  length_eq : result.length = scores.length
  dampened : ∀ (index : Nat) (score : Float32), scores[index]? = some score →
    (penalty == 1) = false → OccursAmongLast history count index →
    result[index]? = some (if 0 < score then score / penalty else score * penalty)
  kept : ∀ (index : Nat) (score : Float32), scores[index]? = some score →
    (penalty == 1) = true ∨ ¬OccursAmongLast history count index → result[index]? = some score
  ignoresForeign :
    penalizeRepeats scores
      ((recent history count).filter fun id => decide (0 ≤ id ∧ id < scores.length)) penalty count
      = result
  dependsOnSet : ∀ (other : List TokenId) (otherCount : Nat),
    (∀ index : Nat, index < scores.length →
      (OccursAmongLast history count index ↔ OccursAmongLast other otherCount index)) →
    penalizeRepeats scores other penalty otherCount = result
  inAnyOrder : ∀ order : List TokenId, order.Nodup →
    (∀ id, id ∈ order ↔ OccursAmongLast history count id) → (penalty == 1) = false →
    order.foldl (dampenAt penalty) scores = result

theorem penalizeRepeats_dampensOnce (scores : List Float32) (history : List TokenId)
    (penalty : Float32) (count : Nat)
    : DampensOnce scores history penalty count (penalizeRepeats scores history penalty count) := by
  constructor
  . exact length_penalizeRepeats scores history penalty count
  . intro index score hscore hpenalty hoccurs
    rw [getElem?_penalizeRepeats, hscore, Option.map_some,
      if_pos ⟨hpenalty, mem_recent_iff.mpr hoccurs⟩]
    rfl
  . intro index score hscore hkept
    rw [getElem?_penalizeRepeats, hscore, Option.map_some, if_neg]
    intro hdampened
    cases hkept with
    | inl hone => rw [hdampened.1] at hone; contradiction
    | inr habsent => exact habsent (mem_recent_iff.mp hdampened.2)
  . apply penalizeRepeats_congr
    intro index hindex
    rw [recent_of_length_le (Nat.le_trans (List.length_filter_le _ _) length_recent_le)]
    simp [hindex]
  . intro other otherCount hsame
    apply penalizeRepeats_congr
    intro index hindex
    rw [mem_recent_iff, mem_recent_iff, hsame index hindex]
  . intro order hnodup hmem hpenalty
    apply foldl_dampenAt_eq_penalizeRepeats hnodup _ hpenalty
    intro id
    rw [hmem, mem_recent_iff]

end TextGen
