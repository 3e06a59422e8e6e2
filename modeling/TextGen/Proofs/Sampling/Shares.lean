import TextGen.Proofs.Numeric.Bounds
import TextGen.Proofs.Sampling.Draw

/-!
This module contains the draw from a distribution. The point that is drawn lies below the total of
the shares even after rounding, and so the index that it falls to has a share of its own: nothing
whose share is zero is ever drawn. In particular no candidate at `-∞` is drawn.
-/

namespace TextGen

namespace Random

open Binary32

variable {weights : List Float32} {sum point : Float32}

/-! ## Sums of shares -/

theorem zero_within : Within 0 0x4b800000 0 := ⟨rfl, Nat.le_refl _, by decide⟩

theorem foldl_add_within (hall : ∀ w ∈ weights, Within 0 0x3f800000 w)
    (hsum : Within 0 0x4b800000 sum)
    : Within 0 0x4b800000 (weights.foldl (· + ·) sum)
        ∧ patternOf sum ≤ patternOf (weights.foldl (· + ·) sum)
        ∧ ∀ w ∈ weights, patternOf w ≤ patternOf (weights.foldl (· + ·) sum) := by
  induction weights generalizing sum with
  | nil => exact ⟨hsum, Nat.le_refl _, nofun⟩
  | cons w ws ih =>
    have hw := hall w List.mem_cons_self
    have hnext := hsum.add_le hw
    have hle := hsum.le_add (hw.mono (by decide : _ ≤ 0x4b800000)) (by decide)
    rcases ih (fun w' hw' => hall w' (List.mem_cons_of_mem w hw')) hnext with
      ⟨hwithin, hsumLe, hallLe⟩
    rw [List.foldl_cons]
    refine ⟨hwithin, Nat.le_trans hle.1 hsumLe, ?_⟩
    intro w' hw'
    cases List.mem_cons.mp hw' with
    | inl heq =>
      rw [heq]
      exact Nat.le_trans hle.2 hsumLe
    | inr hmem => exact hallLe w' hmem

/-! ## The drawn point -/

theorem toNat_toBits_toFloat32 (word : UInt32)
    : word.toFloat32.toBits.toNat = nearest word.toNat := by
  have hpack := bitsOf_normalize word.toNat 0
  rw [zpow_zero, mul_one] at hpack
  exact hpack

theorem amount_two_pow_23 : amount 0x4b000000 = 8388608 := by
  rw [amount_of_le (by decide) (by decide)]
  norm_num

theorem amount_two_pow_23_sub : amount 0x4afffffe = 8388607 := by
  rw [amount_of_le (by decide) (by decide)]
  norm_num

theorem unitPoint_within (word : UInt32) : Within 0 0x3f7ffffe (unitPoint word) := by
  have hword : (word >>> 9).toNat ≤ 8388607 := by
    have := UInt32.toNat_lt word
    have hshift : (word >>> 9).toNat = word.toNat / 512 := by
      rw [UInt32.toNat_shiftRight, Nat.shiftRight_eq_div_pow]
      rfl
    omega
  have hscale : IsScale 8388608 := ⟨rfl, by decide +kernel, by decide +kernel⟩
  have hpattern : patternOf 8388608 = 0x4b000000 := rfl
  have hnearest : nearest (word >>> 9).toNat ≤ 0x4afffffe := by
    apply nearest_le_of_le_amount (by decide)
    rw [amount_two_pow_23_sub]
    exact_mod_cast hword
  have hfraction := within_of_toNat (toNat_toBits_toFloat32 (word >>> 9)) (Nat.zero_le _)
    hnearest (by decide)
  have hle := hfraction.pattern_le
  have hquotient := hscale.div_of_finite (x := (word >>> 9).toFloat32) (by omega)
  refine ⟨hquotient.1.trans hfraction.sign_eq, Nat.zero_le _, ?_⟩
  have hgoal : patternOf (unitPoint word) = _ := hquotient.2
  rw [hgoal, hpattern, amount_two_pow_23]
  apply nearest_le_of_le_amount (by decide)
  have hamount := (amount_le_iff (by omega) (by decide)).mpr hle
  rw [amount_two_pow_23_sub] at hamount
  rw [amount_one_sub]
  linarith

theorem getElem?_takeWhile_go (hall : ∀ w ∈ weights, Within 0 0x3f800000 w)
    (hsum : Within 0 0x4b800000 sum) (hreached : sum ≤ point)
    (hbelow : ¬weights.foldl (· + ·) sum ≤ point)
    : ∃ w, weights[((partialSums.go sum weights).dropLast.takeWhile
          fun sum => decide (sum ≤ point)).length]? = some w ∧ 0 < patternOf w := by
  -- While the sum stays below the point, the next share is looked at; where it does not, the
  -- share is not zero.
  induction weights generalizing sum with
  | nil => contradiction
  | cons w ws ih =>
    have hw := hall w List.mem_cons_self
    by_cases hnext : sum + w ≤ point
    . cases ws with
      | nil => contradiction
      | cons w' ws =>
        have hrest : ∀ v ∈ w' :: ws, Within 0 0x3f800000 v := fun v hv =>
          hall v (List.mem_cons_of_mem w hv)
        rcases ih hrest (hsum.add_le hw) hnext hbelow with ⟨drawn, hdrawn, hpos⟩
        have hsums : (partialSums.go sum (w :: w' :: ws)).dropLast
            = (sum + w) :: (partialSums.go (sum + w) (w' :: ws)).dropLast := rfl
        refine ⟨drawn, ?_, hpos⟩
        rw [hsums, List.takeWhile_cons, if_pos (decide_eq_true hnext)]
        exact hdrawn
    . refine ⟨w, ?_, ?_⟩
      . cases ws with
        | nil => rfl
        | cons w' ws =>
          have hsums : (partialSums.go sum (w :: w' :: ws)).dropLast
              = (sum + w) :: (partialSums.go (sum + w) (w' :: ws)).dropLast := rfl
          rw [hsums, List.takeWhile_cons, if_neg (by simpa using hnext)]
          rfl
      . by_contra hzero
        rw [hsum.add_of_zero (hw.mono (by decide)) (by decide) (by omega)] at hnext
        exact hnext hreached

theorem getElem?_indexAt (hall : ∀ w ∈ weights, Within 0 0x3f800000 w)
    (hlarge : ∃ w ∈ weights, 0x33800000 ≤ patternOf w) (word : UInt32)
    : ∃ w, weights[indexAt weights word]? = some w ∧ 0 < patternOf w := by
  rcases foldl_add_within hall zero_within with ⟨hwithin, _, hle⟩
  rcases hlarge with ⟨w, hw, hlarge⟩
  have htotal : Within 0x33800000 0x4b800000 (total weights) :=
    ⟨hwithin.sign_eq, Nat.le_trans hlarge (hle w hw), hwithin.pattern_le⟩
  have hpoint := (unitPoint_within word).mul_lt htotal
  have hbound := htotal.pattern_le
  apply getElem?_takeWhile_go hall zero_within
  . rw [zero_within.le_iff_patternOf_le (by decide) hpoint.1 (by omega)]
    exact Nat.zero_le _
  . show ¬total weights ≤ _
    rw [htotal.le_iff_patternOf_le (by decide) hpoint.1 (by omega)]
    omega

end Random

open Binary32

variable {kept : List Candidate} {c : Candidate} {m : Float32}

/-! ## The largest score of the candidates -/

namespace Candidate

def HasNumbers (kept : List Candidate) : Prop := ∀ c ∈ kept, patternOf c.score ≤ 0x7f800000

theorem foldl_maxScore (hm : patternOf m ≤ 0x7f800000) (hnumbers : HasNumbers kept)
    : let largest := kept.foldl (fun m c => if m < c.score then c.score else m) m
      (largest = m ∨ ∃ c ∈ kept, c.score = largest) ∧ rankOf m ≤ rankOf largest
        ∧ ∀ c ∈ kept, rankOf c.score ≤ rankOf largest := by
  induction kept generalizing m with
  | nil => exact ⟨.inl rfl, Int.le_refl _, nofun⟩
  | cons c kept ih =>
    have hc := hnumbers c List.mem_cons_self
    have hrest : HasNumbers kept := fun d hd => hnumbers d (List.mem_cons_of_mem c hd)
    dsimp only [List.foldl_cons]
    by_cases hlt : m < c.score
    . rw [if_pos hlt]
      rcases ih hc hrest with ⟨horigin, hle, hall⟩
      have hrank := (lt_iff.mp hlt).2
      refine ⟨.inr ?_, by omega, ?_⟩
      . cases horigin with
        | inl heq => exact ⟨c, List.mem_cons_self, heq.symm⟩
        | inr hmem =>
          rcases hmem with ⟨d, hd, heq⟩
          exact ⟨d, List.mem_cons_of_mem c hd, heq⟩
      . intro d hd
        cases List.mem_cons.mp hd with
        | inl heq => rwa [heq]
        | inr hmem => exact hall d hmem
    . rw [if_neg hlt]
      rcases ih hm hrest with ⟨horigin, hle, hall⟩
      have hrank : ¬rankOf m < rankOf c.score := fun h => hlt (lt_iff.mpr ⟨⟨hm, hc⟩, h⟩)
      refine ⟨?_, hle, ?_⟩
      . cases horigin with
        | inl heq => exact .inl heq
        | inr hmem =>
          rcases hmem with ⟨d, hd, heq⟩
          exact .inr ⟨d, List.mem_cons_of_mem c hd, heq⟩
      . intro d hd
        cases List.mem_cons.mp hd with
        | inl heq =>
          rw [heq]
          omega
        | inr hmem => exact hall d hmem

theorem maxScore_mem (hnumbers : HasNumbers kept) (hne : kept ≠ [])
    : ∃ c ∈ kept, c.score = maxScore kept := by
  rcases foldl_maxScore (m := negativeInfinity) (by decide) hnumbers with ⟨horigin, _, hall⟩
  cases horigin with
  | inr hmem => exact hmem
  | inl hleast =>
    rcases List.exists_mem_of_ne_nil kept hne with ⟨c, hc⟩
    refine ⟨c, hc, ?_⟩
    have hle := hall c hc
    rw [hleast] at hle
    have heq : c.score = negativeInfinity := by
      apply eq_negativeInfinity_of_not_lt (hnumbers c hc)
      rw [lt_iff]
      omega
    exact heq.trans hleast.symm

theorem rankOf_le_maxScore (hnumbers : HasNumbers kept) (hc : c ∈ kept)
    : rankOf c.score ≤ rankOf (maxScore kept) :=
  (foldl_maxScore (m := negativeInfinity) (by decide) hnumbers).2.2 c hc

/-! ## The weights -/

theorem exp_sub_within (hc : patternOf c.score ≤ 0x7f800000) (hm : patternOf m < 0x7f800000)
    (hle : rankOf c.score ≤ rankOf m) : Within 0 0x3f800000 (Binary32.exp (c.score - m)) := by
  cases Nat.lt_or_eq_of_le hc with
  | inl hlt =>
    have hdifference := sub_nonpos hlt hm hle
    exact exp_within hdifference.1 hdifference.2
  | inr heq =>
    have hkey := orderKey_cases c.score
    have hkey' := orderKey_cases m
    rw [sub_of_infinite heq hm]
    exact exp_within hc (by omega)

end Candidate

namespace Sampler

open Candidate TextGen.Random

def weightSum (kept : List Candidate) : Float32 :=
  (weights kept (maxScore kept)).foldl (· + ·) 0

theorem shares_eq (kept : List Candidate)
    : shares kept = kept.map fun c => Binary32.exp (c.score - maxScore kept) / weightSum kept := by
  unfold shares softmax
  dsimp only
  rw [List.map_zipWith]
  unfold weights
  rw [List.zipWith_map_right, List.zipWith_self]
  simp only [score_ofScore]
  rfl

theorem isDistribution_of_infinite (hnumbers : HasNumbers kept) (hne : kept ≠ [])
    (h : patternOf (maxScore kept) = 0x7f800000) : isDistribution (shares kept) = false := by
  -- The difference of two equal infinities is NaN, and so is the share of such a candidate.
  rcases maxScore_mem hnumbers hne with ⟨c, hc, hscore⟩
  have hnan : (Binary32.exp (c.score - maxScore kept)).isNaN = true := by
    have hdifference := sub_self_of_infinite h
    rw [hscore, exp_of_isNaN hdifference]
    exact hdifference
  have hshare : Binary32.exp (c.score - maxScore kept) / weightSum kept ∈ shares kept := by
    rw [shares_eq]
    exact List.mem_map_of_mem hc
  have hnot : ¬0 ≤ Binary32.exp (c.score - maxScore kept) / weightSum kept := by
    have := isNaN_iff.mp (isNaN_of_toNat (toNat_toBits_div_of_isNaN (y := weightSum kept) hnan))
    rw [le_iff]
    omega
  have hall : (shares kept).all (fun w => decide (0 ≤ w)) = false := by
    rw [List.all_eq_false]
    exact ⟨_, hshare, by simpa using hnot⟩
  unfold isDistribution
  rw [hall, Bool.and_false, Bool.false_and]

theorem exists_weight_one (hnumbers : HasNumbers kept) (hne : kept ≠ [])
    (h : patternOf (maxScore kept) < 0x7f800000)
    : ∃ c ∈ kept, Binary32.exp (c.score - maxScore kept) = 1 := by
  rcases maxScore_mem hnumbers hne with ⟨c, hc, hscore⟩
  refine ⟨c, hc, ?_⟩
  rw [hscore, sub_self_eq_zero h, exp_zero]

theorem weightSum_within (hnumbers : HasNumbers kept) (hne : kept ≠ [])
    (h : patternOf (maxScore kept) < 0x7f800000)
    : Within 0x3f800000 0x4b800000 (weightSum kept) := by
  have hall : ∀ w ∈ weights kept (maxScore kept), Within 0 0x3f800000 w := by
    intro w hw
    rcases List.mem_map.mp hw with ⟨c, hc, rfl⟩
    exact exp_sub_within (hnumbers c hc) h (rankOf_le_maxScore hnumbers hc)
  rcases foldl_add_within hall zero_within with ⟨hwithin, _, hle⟩
  rcases exists_weight_one hnumbers hne h with ⟨c, hc, hone⟩
  have hlarge := hle _ (List.mem_map_of_mem hc)
  rw [hone] at hlarge
  exact ⟨hwithin.sign_eq, hlarge, hwithin.pattern_le⟩

theorem getElem?_indexAt_shares (hnumbers : HasNumbers kept) (hne : kept ≠ [])
    (h : patternOf (maxScore kept) < 0x7f800000) (word : UInt32)
    : ∃ c, kept[indexAt (shares kept) word]? = some c ∧ c.score ≠ negativeInfinity := by
  have hsum := weightSum_within hnumbers hne h
  have hall : ∀ w ∈ shares kept, Within 0 0x3f800000 w := by
    intro w hw
    rw [shares_eq] at hw
    rcases List.mem_map.mp hw with ⟨c, hc, rfl⟩
    apply Within.div_le _ hsum
    exact exp_sub_within (hnumbers c hc) h (rankOf_le_maxScore hnumbers hc)
  have hlarge : ∃ w ∈ shares kept, 0x33800000 ≤ patternOf w := by
    rcases exists_weight_one hnumbers hne h with ⟨c, hc, hone⟩
    refine ⟨1 / weightSum kept, ?_, Within.le_one_div rfl hsum⟩
    rw [shares_eq, ← hone]
    exact List.mem_map_of_mem hc
  rcases getElem?_indexAt hall hlarge word with ⟨share, hshare, hpos⟩
  nth_rewrite 1 [shares_eq] at hshare
  rw [List.getElem?_map, Option.map_eq_some_iff] at hshare
  rcases hshare with ⟨c, hc, rfl⟩
  refine ⟨c, hc, ?_⟩
  -- A candidate at `-∞` has the weight zero.
  intro hscore
  have hweight : Binary32.exp (c.score - maxScore kept) = 0 := by
    rw [hscore, sub_of_infinite rfl h, exp_negativeInfinity]
  rw [hweight, Within.div_of_zero rfl hsum] at hpos
  contradiction

theorem draw_of_hasNumbers (sampler : Sampler) (hnumbers : HasNumbers kept) (hne : kept ≠ [])
    : ∃ c ∈ kept, (sampler.draw kept).1 = c.id
        ∧ (c.score = negativeInfinity → ∀ d ∈ kept, c.ranksBefore d = true) := by
  cases hweights : isDistribution (shares kept) with
  | true =>
    rcases draw_of_isDistribution sampler hweights with ⟨index, hindex, hdrawn, hid⟩
    have hfinite : patternOf (maxScore kept) < 0x7f800000 := by
      rcases maxScore_mem hnumbers hne with ⟨c, hc, hscore⟩
      have hle := hnumbers c hc
      rw [hscore] at hle
      apply lt_of_le_of_ne hle
      intro hinfinite
      rw [isDistribution_of_infinite hnumbers hne hinfinite] at hweights
      contradiction
    have hindexAt : indexAt (shares kept) sampler.generator.next.1 = index := by
      unfold Generator.weighted? at hdrawn
      rw [if_pos hweights] at hdrawn
      exact Option.some_inj.mp hdrawn
    rcases getElem?_indexAt_shares hnumbers hne hfinite sampler.generator.next.1 with
      ⟨c, hc, hscore⟩
    rw [hindexAt, List.getElem?_eq_getElem hindex, Option.some_inj] at hc
    rw [hc] at hid
    refine ⟨c, ?_, hid, fun heq => absurd heq hscore⟩
    rw [← hc]
    exact List.getElem_mem hindex
  | false =>
    rcases draw_of_not_isDistribution sampler hne hweights with ⟨best, hbest, heq, hfirst⟩
    exact ⟨best, hbest, congrArg Prod.fst heq, fun _ => hfirst⟩

end Sampler

end TextGen
