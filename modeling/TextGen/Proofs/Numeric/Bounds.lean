import TextGen.Proofs.Numeric.Arithmetic

/-!
This module contains bounds for numbers without sign. Sums of numbers up to one do not grow beyond
`2 ^ 24`, shares of such a sum lie between zero and one, and a fraction of a number stays below the
number after rounding. The pattern of one is `0x3f800000`, that of `2 ^ 24` is `0x4b800000` and that
of `2 ^ -24` is `0x33800000`.
-/

namespace TextGen

namespace Binary32

open Float.Model UnpackedFloat

variable {x y : Float32} {low high : Nat}

structure Within (low high : Nat) (x : Float32) : Prop where
  sign_eq : signOf x = .positive
  le_pattern : low ≤ patternOf x
  pattern_le : patternOf x ≤ high

theorem within_of_toNat {pattern : Nat} (h : x.toBits.toNat = pattern) (hlow : low ≤ pattern)
    (hhigh : pattern ≤ high) (hlt : high < 0x80000000) : Within low high x := by
  have hbits := @signOf_eq_of_toNat x .positive pattern (by omega)
    (h.trans (Nat.zero_add _).symm)
  exact ⟨hbits.1, by omega, by omega⟩

theorem Within.mono {high' : Nat} (h : Within low high x) (hhigh : high ≤ high')
    : Within low high' x :=
  ⟨h.sign_eq, h.le_pattern, Nat.le_trans h.pattern_le hhigh⟩

theorem Within.le_iff_patternOf_le (hx : Within low high x) (hhigh : high ≤ 0x7f800000)
    (hsign : signOf y = .positive) (hy : patternOf y ≤ 0x7f800000)
    : x ≤ y ↔ patternOf x ≤ patternOf y := by
  have hle := hx.pattern_le
  rw [le_iff, rankOf_of_positive hx.sign_eq, rankOf_of_positive hsign]
  omega

/-! ## Sums -/

theorem Within.add (hx : Within 0 high x) (hy : Within 0 high y) (hhigh : high < 0x7f800000)
    : signOf (x + y) = .positive
        ∧ patternOf (x + y) = nearest (amount (patternOf x) + amount (patternOf y)) := by
  have hle := hx.pattern_le
  have hle' := hy.pattern_le
  have hnearest := nearest_le (amount (patternOf x) + amount (patternOf y))
  apply signOf_eq_of_toNat (by omega)
  rw [toNat_toBits_add (by omega) (by omega) hx.sign_eq hy.sign_eq]
  exact (Nat.zero_add _).symm

theorem Within.le_add (hx : Within 0 high x) (hy : Within 0 high y) (hhigh : high < 0x7f800000)
    : patternOf x ≤ patternOf (x + y) ∧ patternOf y ≤ patternOf (x + y) := by
  have hle := hx.pattern_le
  have hle' := hy.pattern_le
  rw [(hx.add hy hhigh).2]
  constructor
  . apply le_nearest_of_amount_le (by omega)
    exact le_add_of_nonneg_right (amount_nonneg _)
  . apply le_nearest_of_amount_le (by omega)
    exact le_add_of_nonneg_left (amount_nonneg _)

theorem Within.add_of_zero (hx : Within 0 high x) (hy : Within 0 high y)
    (hhigh : high < 0x7f800000) (hzero : patternOf y = 0) : x + y = x := by
  have hle := hx.pattern_le
  have hsum := hx.add hy hhigh
  rw [hzero, amount_zero, add_zero, nearest_amount (by omega)] at hsum
  exact eq_of_patternOf_eq (hsum.1.trans hx.sign_eq.symm) hsum.2

theorem amount_two_pow : amount 0x4b800000 = 16777216 := by
  rw [amount_of_le (by decide) (by decide)]
  norm_num

theorem nearest_tie : nearest 16777217 = 0x4b800000 := by
  have hplace : lastPlace 16777217 = 1 := by
    apply lastPlace_eq_of_bounds (by decide)
    . norm_num
    . right
      norm_num
  have hrounded : roundEven (16777217 / 2 ^ (1 : Int)) = 0x800000 := by
    rw [roundEven_of_tie (n := 0x800000)]
    norm_num
  unfold nearest steps
  rw [hplace, hrounded]
  decide

theorem Within.add_le (hx : Within 0 0x4b800000 x) (hy : Within 0 0x3f800000 y)
    : Within 0 0x4b800000 (x + y) := by
  have hle := hx.pattern_le
  have hle' := hy.pattern_le
  have hsum := hx.add (y := y) ⟨hy.sign_eq, Nat.zero_le _, by omega⟩ (by decide)
  refine ⟨hsum.1, Nat.zero_le _, ?_⟩
  rw [hsum.2, ← nearest_tie]
  apply nearest_mono
  have hamount := (amount_le_iff (by omega) (by decide)).mpr hle
  have hamount' := (amount_le_iff (by omega) (by decide)).mpr hle'
  rw [amount_two_pow] at hamount
  rw [amount_one] at hamount'
  linarith

/-! ## Shares -/

theorem Within.isScale (h : Within 0x3f800000 0x4b800000 x) : IsScale x := by
  have hle := h.le_pattern
  have hge := h.pattern_le
  exact ⟨h.sign_eq, by omega, by omega⟩

theorem Within.div_le (hx : Within 0 0x3f800000 x) (hy : Within 0x3f800000 0x4b800000 y)
    : Within 0 0x3f800000 (x / y) := by
  have hle := hx.pattern_le
  have hge := hy.le_pattern
  have hquotient := hy.isScale.div_of_finite (x := x) (by omega)
  refine ⟨hquotient.1.trans hx.sign_eq, Nat.zero_le _, ?_⟩
  rw [hquotient.2]
  apply nearest_le_of_le_amount (by decide)
  have hamount := (amount_le_iff (by omega) (by decide)).mpr hle
  have hamount' := (amount_le_iff (by decide) hy.isScale.lt).mpr hge
  rw [amount_one] at hamount hamount' ⊢
  rw [div_le_one (by linarith)]
  linarith

theorem amount_two_pow_neg : amount 0x33800000 = 1 / 16777216 := by
  rw [amount_of_le (by decide) (by decide)]
  norm_num

theorem Within.le_one_div (hx : patternOf x = 0x3f800000) (hy : Within 0x3f800000 0x4b800000 y)
    : 0x33800000 ≤ patternOf (x / y) := by
  have hle := hy.pattern_le
  have hge := hy.le_pattern
  rw [(hy.isScale.div_of_finite (by omega)).2, hx]
  apply le_nearest_of_amount_le (by decide)
  have hamount := (amount_le_iff hy.isScale.lt (by decide)).mpr hle
  have hamount' := (amount_le_iff (by decide) hy.isScale.lt).mpr hge
  rw [amount_one] at hamount' ⊢
  rw [amount_two_pow] at hamount
  rw [amount_two_pow_neg]
  exact one_div_le_one_div_of_le (by linarith) hamount

theorem Within.div_of_zero (hx : patternOf x = 0) (hy : Within 0x3f800000 0x4b800000 y)
    : patternOf (x / y) = 0 := by
  rw [(hy.isScale.div_of_finite (by omega)).2, hx, amount_zero, zero_div, nearest_zero]

/-! ## Points below a number -/

theorem amount_one_sub : amount 0x3f7ffffe = 1 - 1 / 8388608 := by
  rw [amount_of_le (by decide) (by decide)]
  norm_num

theorem amount_mul_le {pattern : Nat} (hlow : 0x800000 < pattern) (hhigh : pattern < 0x7f800000)
    : amount pattern * (1 - 1 / 8388608) ≤ amount (pattern - 1) := by
  rw [amount_of_le (by omega) hhigh, amount_of_le (by omega) (by omega)]
  by_cases hfirst : pattern % 0x800000 = 0
  . have hfield : ((pattern / 0x800000 : Nat) - 150 : Int)
        = ((pattern - 1) / 0x800000 : Nat) - 150 + 1 := by omega
    have hstored : (pattern - 1) % 0x800000 = 0x7fffff := by omega
    have hunit := zpow_pos_two (((pattern - 1) / 0x800000 : Nat) - 150 : Int)
    rw [hfirst, hstored, hfield, zpow_two_add]
    generalize (2 : Rat) ^ (((pattern - 1) / 0x800000 : Nat) - 150 : Int) = unit at hunit ⊢
    norm_num
    linarith
  . have hfield : (pattern - 1) / 0x800000 = pattern / 0x800000 := by omega
    have hstored : ((pattern % 0x800000 : Nat) : Rat) = ((pattern - 1) % 0x800000 : Nat) + 1 := by
      have : pattern % 0x800000 = (pattern - 1) % 0x800000 + 1 := by omega
      exact_mod_cast this
    rw [hfield, mul_right_comm]
    apply mul_le_mul_of_nonneg_right _ (le_of_lt (zpow_pos_two _))
    push_cast at hstored ⊢
    rw [hstored]
    have : (0 : Rat) ≤ ((pattern - 1) % 0x800000 : Nat) := Nat.cast_nonneg _
    linarith

theorem Within.mul_lt (hx : Within 0 0x3f7ffffe x) (hy : Within 0x33800000 0x4b800000 y)
    : signOf (x * y) = .positive ∧ patternOf (x * y) < patternOf y := by
  have hle := hx.pattern_le
  have hlow := hy.le_pattern
  have hhigh := hy.pattern_le
  have hamount := (amount_le_iff (by omega) (by decide)).mpr hle
  rw [amount_one_sub] at hamount
  have hproduct : nearest (amount (patternOf x) * amount (patternOf y)) ≤ patternOf y - 1 := by
    apply nearest_le_of_le_amount (by omega)
    apply le_trans _ (amount_mul_le (by omega) (by omega))
    rw [mul_comm]
    exact mul_le_mul_of_nonneg_left hamount (amount_nonneg _)
  have hbits : (x * y).toBits.toNat
      = signBit .positive + nearest (amount (patternOf x) * amount (patternOf y)) := by
    rw [toNat_toBits_mul (by omega) (by omega), hx.sign_eq, hy.sign_eq]
    rfl
  have hresult := signOf_eq_of_toNat (by omega) hbits
  exact ⟨hresult.1, by omega⟩

/-! ## The exponential -/

theorem exp_of_isNaN (h : x.isNaN = true) : exp x = x := by
  unfold exp
  rw [if_pos h]

theorem exp_zero : exp 0 = 1 := rfl

theorem exp_negativeInfinity : exp negativeInfinity = 0 := rfl

theorem clampToUnit_within (x : Float32) : Within 0 0x3f800000 (clampToUnit x) := by
  have hone : patternOf 1 = 0x3f800000 := rfl
  have hzero : rankOf 0 = 0 := rfl
  unfold clampToUnit
  split
  . exact ⟨rfl, Nat.zero_le _, Nat.le_refl _⟩
  . next hle =>
    split
    . next hpos =>
      rw [lt_iff] at hle hpos
      have hkey := orderKey_cases x
      have hrank := hpos.2
      rw [hzero] at hrank
      have hbound : ¬rankOf 1 < rankOf x := fun h => hle ⟨⟨by decide, hpos.1.2⟩, h⟩
      have hone' : rankOf 1 = 0x3f800000 := rfl
      rw [hone'] at hbound
      cases hkey with
      | inl hpositive => exact ⟨hpositive.1, Nat.zero_le _, by omega⟩
      | inr hnegative => omega
    . exact ⟨rfl, Nat.zero_le _, by decide⟩

theorem exp_within (hx : patternOf x ≤ 0x7f800000) (h : rankOf x ≤ 0)
    : Within 0 0x3f800000 (exp x) := by
  have hzero : patternOf 0 = 0 ∧ rankOf 0 = 0 := ⟨rfl, rfl⟩
  unfold exp
  split
  . next hnan =>
    rw [isNaN_iff] at hnan
    omega
  . split
    . exact ⟨rfl, Nat.zero_le _, Nat.le_refl _⟩
    . next hne =>
      split
      . exact ⟨rfl, Nat.zero_le _, by decide⟩
      . split
        . exact clampToUnit_within _
        -- A number that is neither zero nor below it lies above it.
        . next hlt =>
          rw [beq_iff] at hne
          rw [lt_iff] at hlt
          omega

end Binary32

end TextGen
