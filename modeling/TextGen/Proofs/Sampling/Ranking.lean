import Mathlib.Data.List.Nodup
import TextGen.Proofs.Numeric.Decoding
import TextGen.Sampling.Filter

/-!
This module contains the ranking of candidates: it is a total order, and whatever the settings of
the two cuts are, what is left of a list of candidates are its best ones.
-/

namespace TextGen

namespace Candidate

variable {a b c d : Candidate} {all kept candidates : List Candidate} {count : Nat}

@[simp]
theorem score_ofScore (id : TokenId) (score : Float32) : (ofScore id score).score = score :=
  Float32.ofBits_toBits score

theorem toBits_score (h : Binary32.patternOf c.score ≤ 0x7f800000) : c.score.toBits = c.bits :=
  Binary32.toBits_ofBits h

/-! ## The order -/

theorem ranksBefore_eq_true_iff
    : a.ranksBefore b = true
        ↔ Binary32.orderKey b.bits < Binary32.orderKey a.bits
          ∨ Binary32.orderKey b.bits = Binary32.orderKey a.bits ∧ a.id ≤ b.id := by
  simp [ranksBefore]

theorem ranksBefore_refl (a : Candidate) : a.ranksBefore a = true := by
  simp [ranksBefore]

theorem ranksBefore_total (a b : Candidate) : (a.ranksBefore b || b.ranksBefore a) = true := by
  rw [Bool.or_eq_true, ranksBefore_eq_true_iff, ranksBefore_eq_true_iff]
  have := Int.le_total a.id b.id
  grind

theorem ranksBefore_trans (a b c : Candidate) (hab : a.ranksBefore b = true)
    (hbc : b.ranksBefore c = true) : a.ranksBefore c = true := by
  rw [ranksBefore_eq_true_iff] at *
  have := @Int.le_trans a.id b.id c.id
  grind

theorem ranksBefore_of_not (h : ¬b.ranksBefore a = true) : a.ranksBefore b = true := by
  have := ranksBefore_total a b
  simp_all

theorem ranksBefore_antisymm (hab : a.ranksBefore b = true) (hba : b.ranksBefore a = true)
    : a = b := by
  rw [ranksBefore_eq_true_iff] at *
  have hbits : a.bits = b.bits := Binary32.orderKey_injective (by omega)
  have hid : a.id = b.id := by
    have := @Int.le_antisymm a.id b.id
    grind
  cases a
  cases b
  exact congrArg₂ Candidate.mk hid hbits

theorem pairwise_ranked (candidates : List Candidate)
    : (ranked candidates).Pairwise fun a b => a.ranksBefore b = true :=
  List.pairwise_mergeSort ranksBefore_trans ranksBefore_total candidates

theorem perm_ranked (candidates : List Candidate) : (ranked candidates).Perm candidates :=
  List.mergeSort_perm candidates ranksBefore

@[simp]
theorem length_ranked (candidates : List Candidate)
    : (ranked candidates).length = candidates.length := (perm_ranked candidates).length_eq

theorem ranked_take (candidates : List Candidate) (count : Nat)
    : ranked ((ranked candidates).take count) = (ranked candidates).take count :=
  List.mergeSort_of_pairwise ((pairwise_ranked candidates).sublist (List.take_sublist _ _))

/-! ## The best candidates -/

structure IsBest (kept all : List Candidate) (count : Nat) : Prop where
  length_eq : kept.length = count
  nodup : kept.Nodup
  mem : ∀ c ∈ kept, c ∈ all
  ahead : ∀ c ∈ kept, ∀ d ∈ all, d ∉ kept → ¬d.ranksBefore c = true

theorem isBest_of_perm_take (hids : (all.map (·.id)).Nodup) (hcount : count ≤ all.length)
    (h : kept.Perm ((ranked all).take count)) : IsBest kept all count := by
  have hnodup : (ranked all).Nodup := (perm_ranked all).nodup_iff.mpr (List.Nodup.of_map _ hids)
  have hsub := List.take_sublist count (ranked all)
  have hmem : ∀ c ∈ kept, c ∈ all := fun c hc =>
    (perm_ranked all).mem_iff.mp (hsub.subset (h.mem_iff.mp hc))
  constructor
  . rw [h.length_eq, List.length_take, length_ranked]
    omega
  . exact h.nodup_iff.mpr (hnodup.sublist hsub)
  . exact hmem
  . intro c hc d hd hdropped hbefore
    have hsplit := pairwise_ranked all
    rw [← List.take_append_drop count (ranked all), List.pairwise_append] at hsplit
    have hrest : d ∈ (ranked all).drop count := by
      have hin : d ∈ (ranked all).take count ++ (ranked all).drop count := by
        rw [List.take_append_drop]
        exact (perm_ranked all).mem_iff.mpr hd
      rcases List.mem_append.mp hin with htaken | hrest
      . exact absurd (h.mem_iff.mpr htaken) hdropped
      . exact hrest
    have hsame := ranksBefore_antisymm hbefore (hsplit.2.2 c (h.mem_iff.mp hc) d hrest)
    exact hdropped (hsame ▸ hc)

theorem IsBest.ranksBefore (h : IsBest kept all count) (hc : c ∈ kept)
    (hfirst : ∀ d ∈ kept, c.ranksBefore d = true) : ∀ d ∈ all, c.ranksBefore d = true := by
  intro d hd
  by_cases hkept : d ∈ kept
  . exact hfirst d hkept
  . exact ranksBefore_of_not (h.ahead c hc d hd hkept)

theorem best_of_foldl {step : Option Candidate → Candidate → Option Candidate}
    (hstep : ∀ b c, step (some b) c = if b.ranksBefore c then some b else some c)
    (first : Candidate) (rest : List Candidate)
    : ∃ best ∈ first :: rest, rest.foldl step (some first) = some best
        ∧ ∀ c ∈ first :: rest, best.ranksBefore c = true := by
  induction rest generalizing first with
  | nil => exact ⟨first, by simp, rfl, by simp [ranksBefore_refl]⟩
  | cons c rest ih =>
    rw [List.foldl_cons, hstep]
    by_cases hbefore : first.ranksBefore c = true
    . rcases ih first with ⟨best, hmem, hbest, hall⟩
      have hfirst := hall first List.mem_cons_self
      refine ⟨best, by grind, by rw [if_pos hbefore, hbest], ?_⟩
      grind [ranksBefore_trans]
    . rcases ih c with ⟨best, hmem, hbest, hall⟩
      have hlast := hall c List.mem_cons_self
      have := ranksBefore_of_not hbefore
      refine ⟨best, by grind, by rw [if_neg hbefore, hbest], ?_⟩
      grind [ranksBefore_trans]

theorem best?_of_ne_nil (h : candidates ≠ [])
    : ∃ best ∈ candidates, best? candidates = some best
        ∧ ∀ c ∈ candidates, best.ranksBefore c = true := by
  cases candidates with
  | nil => contradiction
  | cons first rest => exact best_of_foldl (fun _ _ => rfl) first rest

/-! ## The cuts -/

theorem topK_cases (candidates : List Candidate) (count : Nat)
    : (topK candidates count = candidates ∧ (count = 0 ∨ candidates.length ≤ count))
        ∨
      topK candidates count = (ranked candidates).take count ∧ 0 < count
        ∧ count < candidates.length := by
  unfold topK
  split
  . next hskip => exact .inl ⟨rfl, hskip⟩
  . next hcut => exact .inr ⟨rfl, by omega, by omega⟩

theorem massPrefix_bounds (share total : Float32) (w : Float32) (ws : List Float32) (sum : Float32)
    : 1 ≤ massPrefix share total (w :: ws) sum
        ∧ massPrefix share total (w :: ws) sum ≤ (w :: ws).length := by
  -- whatever the comparisons of the sums come out as, so that NaN needs no case of its own
  induction ws generalizing w sum with
  | nil =>
    unfold massPrefix massPrefix
    dsimp only
    split <;> simp
  | cons w' ws ih =>
    have hrest := ih w' (sum + w / total)
    unfold massPrefix
    dsimp only
    split
    . simp
    . simp only [List.length_cons] at hrest ⊢
      omega

theorem topP_cases (h : candidates ≠ []) (share : Float32)
    : topP candidates share = candidates
        ∨ ∃ count, 1 ≤ count ∧ count ≤ candidates.length
          ∧ topP candidates share = (ranked candidates).take count := by
  unfold topP
  split
  . right
    cases hranked : ranked candidates with
    | nil =>
      have hlength := length_ranked candidates
      rw [hranked] at hlength
      exact absurd (List.length_eq_zero_iff.mp hlength.symm) h
    | cons first rest =>
      have hlength : (first :: rest).length = candidates.length := by
        rw [← hranked, length_ranked]
      rcases massPrefix_bounds share ((weights (first :: rest) first.score).foldl (· + ·) 0)
        (Binary32.exp (first.score - first.score)) (weights rest first.score) 0 with ⟨hpos, hle⟩
      refine ⟨_, hpos, ?_, rfl⟩
      simpa [weights, ← hlength] using hle
  . exact .inl rfl

theorem exists_perm_take_of_cuts (hne : candidates ≠ []) (count : Nat) (share : Float32)
    : ∃ left, 1 ≤ left ∧ left ≤ candidates.length
        ∧ (0 < count → count < candidates.length → left ≤ count)
        ∧ (topP (topK candidates count) share).Perm ((ranked candidates).take left) := by
  have hlength : 1 ≤ candidates.length := List.length_pos_iff.mpr hne
  -- A cut that keeps everything leaves the order alone; any other one sorts, and a second cut of a
  -- sorted prefix is a shorter prefix.
  rcases topK_cases candidates count with ⟨hk, hskip⟩ | ⟨hk, hpos, hlt⟩
  . rw [hk]
    rcases topP_cases hne share with hp | ⟨left, hleft, hle, hp⟩
    . refine ⟨candidates.length, hlength, Nat.le_refl _, by omega, ?_⟩
      rw [hp, List.take_of_length_le (by simp)]
      exact (perm_ranked candidates).symm
    . exact ⟨left, hleft, hle, by omega, by rw [hp]⟩
  . have hcut : ((ranked candidates).take count).length = count := by
      rw [List.length_take, length_ranked]
      omega
    have hcutNe : (ranked candidates).take count ≠ [] := by
      rw [← List.length_pos_iff, hcut]
      exact hpos
    rw [hk]
    rcases topP_cases hcutNe share with hp | ⟨left, hleft, hle, hp⟩
    . exact ⟨count, hpos, by omega, by omega, by rw [hp]⟩
    . rw [hcut] at hle
      refine ⟨left, hleft, by omega, fun _ _ => hle, ?_⟩
      rw [hp, ranked_take, List.take_take, Nat.min_eq_left hle]

end Candidate

end TextGen
