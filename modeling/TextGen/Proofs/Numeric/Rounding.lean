import Mathlib.Tactic.FieldSimp
import Mathlib.Tactic.Ring
import TextGen.Proofs.Numeric.Nearest

/-!
This module contains the last step of all arithmetic on 32-bit numbers: an exact result, given as a
significand with what is known about the places below it, is rounded to the nearest bit pattern.
-/

namespace TextGen

namespace Binary32

open Float.Model UnpackedFloat

variable {q : Rat} {place target : Int} {significand : Nat} {sign : Sign}
variable {em : ExtendedMantissa} {accuracy : Accuracy}

/-! ## What rounding has to know -/

/--
A whole number and two residual bits tell a number apart from all that are rounded differently.
-/
structure Tells (em : ExtendedMantissa) (q : Rat) : Prop where
  le : em.mantissa ≤ q
  lt : q < em.mantissa + 1
  roundBit_iff : em.roundBit = true ↔ em.mantissa + 1 / 2 ≤ q
  stickyBit_iff : em.stickyBit = true ↔ q ≠ em.mantissa ∧ q ≠ em.mantissa + 1 / 2

theorem Tells.roundedMantissa_eq (h : Tells em q) : em.roundedMantissa = roundEven q := by
  cases em with
  | mk mantissa roundBit stickyBit =>
    have hround := h.roundBit_iff
    have hsticky := h.stickyBit_iff
    dsimp only at hround hsticky
    cases roundBit with
    | false =>
      have hlow : q < mantissa + 1 / 2 := by simpa using hround
      rw [roundEven_of_lt h.le hlow]
      cases stickyBit <;> rfl
    | true =>
      have hhigh : mantissa + 1 / 2 ≤ q := by simpa using hround
      cases stickyBit with
      | false =>
        have htie : q = mantissa + 1 / 2 := by
          by_contra hne
          have : q ≠ mantissa := by linarith
          simp_all
        rw [roundEven_of_tie htie]
        rfl
      | true =>
        have hne : q ≠ mantissa + 1 / 2 := (hsticky.mp rfl).2
        rw [roundEven_of_gt (lt_of_le_of_ne hhigh hne.symm) h.lt]
        rfl

theorem tells_exact (significand : Nat)
    : Tells (ExtendedMantissa.ofMantissaAndAccuracy significand .exact) significand := by
  constructor <;> simp [ExtendedMantissa.ofMantissaAndAccuracy]

theorem tells_below (hgt : significand < q) (hlt : q < significand + 1 / 2)
    : Tells ⟨significand, false, true⟩ q := by
  constructor <;> dsimp only
  . linarith
  . linarith
  . simpa using hlt
  . simpa using ⟨ne_of_gt hgt, by simpa using ne_of_lt hlt⟩

theorem tells_tie (heq : q = significand + 1 / 2) : Tells ⟨significand, true, false⟩ q := by
  constructor <;> dsimp only
  . linarith
  . linarith
  . simpa using le_of_eq heq.symm
  . simp [heq]

theorem tells_above (hgt : significand + 1 / 2 < q) (hlt : q < significand + 1)
    : Tells ⟨significand, true, true⟩ q := by
  constructor <;> dsimp only
  . linarith
  . linarith
  . simpa using le_of_lt hgt
  . refine iff_of_true rfl ⟨?_, ne_of_gt hgt⟩
    linarith

theorem tells_fraction {numerator denominator : Nat} (hpos : 0 < denominator)
    : Tells
        (ExtendedMantissa.ofMantissaAndAccuracy (numerator / denominator)
          (accuracyOfFraction (numerator % denominator) denominator))
        (numerator / denominator) := by
  have hdenominator : (0 : Rat) < denominator := by exact_mod_cast hpos
  have hvalue : (numerator : Rat) / denominator
      = (numerator / denominator : Nat) + (numerator % denominator : Nat) / denominator := by
    rw [div_eq_iff (ne_of_gt hdenominator), add_mul, div_mul_cancel₀ _ (ne_of_gt hdenominator)]
    exact_mod_cast (Nat.div_add_mod' numerator denominator).symm
  have hlt : ((numerator % denominator : Nat) : Rat) / denominator < 1 := by
    rw [div_lt_one hdenominator]
    exact_mod_cast Nat.mod_lt _ hpos
  unfold accuracyOfFraction
  rw [hvalue]
  by_cases hexact : numerator % denominator = 0
  . rw [if_pos hexact, hexact, Nat.cast_zero, zero_div, add_zero]
    exact tells_exact _
  . have hrest : (0 : Rat) < (numerator % denominator : Nat) / denominator :=
      div_pos (by exact_mod_cast Nat.pos_of_ne_zero hexact) hdenominator
    rw [if_neg hexact]
    cases hcompare : compare (2 * (numerator % denominator)) denominator with
    | lt =>
      have hhalf : ((numerator % denominator : Nat) : Rat) / denominator < 1 / 2 := by
        rw [div_lt_div_iff₀ hdenominator (by norm_num), one_mul, mul_comm]
        exact_mod_cast Nat.compare_eq_lt.mp hcompare
      exact tells_below (by linarith) (by linarith)
    | eq =>
      have hhalf : ((numerator % denominator : Nat) : Rat) / denominator = 1 / 2 := by
        rw [div_eq_div_iff (ne_of_gt hdenominator) (by norm_num), one_mul, mul_comm]
        exact_mod_cast Nat.compare_eq_eq.mp hcompare
      exact tells_tie (by rw [hhalf])
    | gt =>
      have hhalf : 1 / 2 < ((numerator % denominator : Nat) : Rat) / denominator := by
        rw [div_lt_div_iff₀ (by norm_num) hdenominator, one_mul, mul_comm]
        exact_mod_cast Nat.compare_eq_gt.mp hcompare
      exact tells_above (by linarith) (by linarith)

theorem Tells.residual_iff (h : Tells em q)
    : (em.roundBit || em.stickyBit) = true ↔ q ≠ em.mantissa := by
  rw [Bool.or_eq_true, h.roundBit_iff, h.stickyBit_iff]
  constructor
  . intro hresidual heq
    cases hresidual with
    | inl hround => linarith
    | inr hsticky => exact hsticky.1 heq
  . intro hne
    by_cases hround : em.mantissa + 1 / 2 ≤ q
    . exact .inl hround
    . exact .inr ⟨hne, fun htie => hround (ge_of_eq htie)⟩

theorem Tells.shiftRightOne (h : Tells em q) : Tells em.shiftRightOne (q / 2) := by
  have hresidual := h.residual_iff
  have hle := h.le
  have hlt := h.lt
  have hparity : em.mantissa = 2 * (em.mantissa / 2) + em.mantissa % 2 := by omega
  have hcast : (em.mantissa : Rat) = 2 * (em.mantissa / 2 : Nat) + (em.mantissa % 2 : Nat) := by
    exact_mod_cast hparity
  unfold ExtendedMantissa.shiftRightOne
  cases Nat.mod_two_eq_zero_or_one em.mantissa with
  | inl heven =>
    rw [heven, Nat.cast_zero] at hcast
    constructor <;> dsimp only
    . linarith
    . linarith
    . rw [heven]
      constructor
      . intro h
        contradiction
      . intro h
        linarith
    . rw [hresidual]
      constructor
      . intro hne
        refine ⟨?_, by linarith⟩
        intro heq
        apply hne
        linarith
      . intro hne heq
        apply hne.1
        linarith
  | inr hodd =>
    rw [hodd, Nat.cast_one] at hcast
    constructor <;> dsimp only
    . linarith
    . linarith
    . rw [hodd]
      constructor
      . intro _
        linarith
      . intro _
        rfl
    . rw [hresidual]
      constructor
      . intro hne
        refine ⟨by linarith, ?_⟩
        intro heq
        apply hne
        linarith
      . intro hne heq
        apply hne.2
        linarith

theorem Tells.shiftRight (h : Tells em q) (n : Nat) : Tells (em >>> n) (q / 2 ^ n) := by
  show Tells (n.repeat ExtendedMantissa.shiftRightOne em) _
  induction n with
  | zero => simpa [Nat.repeat] using h
  | succ n ih =>
    rw [pow_succ, ← div_div]
    exact ih.shiftRightOne

/-! ## The places that are kept -/

theorem targetExponent_eq (total : Int)
    : Format.binary32.targetExponent total = max (total - 24) (-149) := rfl

theorem targetExponent_totalExponent (hle : significand * 2 ^ place ≤ q)
    (hlt : q < (significand + 1) * 2 ^ place) (h : 0 < significand ∨ place ≤ lastPlace q)
    : Format.binary32.targetExponent (totalExponent significand place) = lastPlace q := by
  rw [targetExponent_eq]
  unfold totalExponent
  symm
  apply lastPlace_eq_of_bounds (by omega)
  . calc q
      _ < (significand + 1) * 2 ^ place := hlt
      _ ≤ 2 ^ ((significand.log2 + 1 : Nat) : Int) * 2 ^ place := by
        apply mul_le_mul_of_nonneg_right _ (le_of_lt (zpow_pos_two place))
        rw [zpow_natCast]
        exact_mod_cast Nat.lt_log2_self
      _ = 2 ^ (((significand.log2 + 1 : Nat) : Int) + place) := (zpow_two_add _ _).symm
      _ ≤ 2 ^ (max ((significand.log2 : Int) + 1 + place - 24) (-149) + 24) :=
        zpow_two_le_iff.mpr (by omega)
  . by_cases hsmall : max ((significand.log2 : Int) + 1 + place - 24) (-149) = -149
    . exact .inl hsmall
    . right
      have hplace : max ((significand.log2 : Int) + 1 + place - 24) (-149) + 23
          = significand.log2 + place := by omega
      rw [hplace]
      cases Nat.eq_zero_or_pos significand with
      | inl hzero =>
        -- The number lies below its own last place, so that this is the smallest one.
        have hbelow : lastPlace q = -149 := by
          by_contra hne
          have hgt := lt_of_le_of_ne (le_lastPlace q) (Ne.symm hne)
          have := lt_of_le_of_lt (zpow_lastPlace_le hgt) hlt
          rw [hzero, Nat.cast_zero, zero_add, one_mul, zpow_two_lt_iff] at this
          omega
        rw [hzero] at hsmall h
        simp at hsmall h
        omega
      | inr hpos =>
        rw [zpow_two_add, zpow_natCast]
        apply le_trans _ hle
        apply mul_le_mul_of_nonneg_right _ (le_of_lt (zpow_pos_two place))
        exact_mod_cast Nat.log2_self_le (Nat.pos_iff_ne_zero.mp hpos)

theorem shiftToExponent_snd (h : place ≤ target)
    : (shiftToExponent significand place accuracy target).2 = target := by
  unfold shiftToExponent
  dsimp only
  omega

theorem tells_shiftToExponent (hplace : place ≤ target)
    (h : Tells (ExtendedMantissa.ofMantissaAndAccuracy significand accuracy) (q / 2 ^ place))
    : Tells (shiftToExponent significand place accuracy target).1 (q / 2 ^ target) := by
  have hshift := h.shiftRight (target - place).toNat
  rw [div_div, ← zpow_natCast, ← zpow_two_add, Int.toNat_of_nonneg (by omega),
    add_sub_cancel] at hshift
  exact hshift

/-! ## Rounding -/

def unpacked (sign : Sign) (place : Int) (significand : Nat) : UnpackedFloat :=
  if h : significand = 0 then .zero sign
  else .finite sign significand place (Nat.pos_of_ne_zero h)

theorem carry_isCanonical (hplace : -149 ≤ place) (hle : significand ≤ 0x1000000)
    (hnormal : place = -149 ∨ 0x800000 ≤ significand)
    : IsCanonical (shiftToTargetExponent .binary32 significand place .exact).2
          (shiftToTargetExponent .binary32 significand place .exact).1.mantissa
        ∧ steps (shiftToTargetExponent .binary32 significand place .exact).2
            (shiftToTargetExponent .binary32 significand place .exact).1.mantissa
          = steps place significand := by
  unfold shiftToTargetExponent shiftToExponent
  rw [targetExponent_eq]
  unfold totalExponent
  dsimp only
  cases Nat.lt_or_eq_of_le hle with
  | inl hlt =>
    have hlog : significand.log2 < 24 := by
      by_cases hzero : significand = 0
      . simp [hzero]
      . exact (Nat.log2_lt hzero).mpr hlt
    have hstay : (max ((significand.log2 : Int) + 1 + place - 24) (-149) - place).toNat = 0 := by
      omega
    rw [hstay, Nat.cast_zero, Int.add_zero]
    exact ⟨⟨hplace, hlt, hnormal⟩, rfl⟩
  | inr heq =>
    have hlog : significand.log2 = 24 := by
      rw [heq]
      decide
    have hmove : (max ((significand.log2 : Int) + 1 + place - 24) (-149) - place).toNat = 1 := by
      omega
    have hhalf : (ExtendedMantissa.ofMantissaAndAccuracy significand .exact >>> 1).mantissa
        = 0x800000 := by
      rw [heq]
      rfl
    rw [hmove, hhalf, heq]
    unfold steps
    refine ⟨⟨?_, ?_, ?_⟩, ?_⟩ <;> omega

theorem roundWithAccuracy_eq (hle : place ≤ lastPlace q)
    (h : Tells (ExtendedMantissa.ofMantissaAndAccuracy significand accuracy) (q / 2 ^ place))
    : ∃ place' significand', IsCanonical place' significand'
        ∧ steps place' significand' = steps (lastPlace q) (roundEven (q / 2 ^ lastPlace q))
        ∧ roundWithAccuracy .binary32 sign significand place accuracy
          = unpacked sign place' significand' := by
  have hmantissa : (ExtendedMantissa.ofMantissaAndAccuracy significand accuracy).mantissa
      = significand := by
    cases accuracy with
    | exact => rfl
    | inexact half => cases half <;> rfl
  have htarget : Format.binary32.targetExponent (totalExponent significand place)
      = lastPlace q := by
    have hlow := h.le
    have hhigh := h.lt
    rw [hmantissa] at hlow hhigh
    rw [le_div_iff₀ (zpow_pos_two _)] at hlow
    rw [div_lt_iff₀ (zpow_pos_two _)] at hhigh
    exact targetExponent_totalExponent hlow hhigh (.inr hle)
  have hfirst : (shiftToTargetExponent .binary32 significand place accuracy).2 = lastPlace q := by
    unfold shiftToTargetExponent
    rw [htarget]
    exact shiftToExponent_snd hle
  have hrounded : (shiftToTargetExponent .binary32 significand place accuracy).1.roundedMantissa
      = roundEven (q / 2 ^ lastPlace q) := by
    unfold shiftToTargetExponent
    rw [htarget]
    exact (tells_shiftToExponent hle h).roundedMantissa_eq
  have hcarry := carry_isCanonical (le_lastPlace q) (roundEven_lastPlace_le q) (by
    cases Int.lt_or_eq_of_le (le_lastPlace q) with
    | inl hlt => exact .inr (le_roundEven_lastPlace hlt)
    | inr heq => exact .inl heq.symm)
  refine ⟨_, _, hcarry.1, hcarry.2, ?_⟩
  unfold roundWithAccuracy unpacked
  dsimp only
  rw [hfirst, hrounded]

/-! ## Packing -/

def signBit : Sign → Nat
  | .negative => 0x80000000
  | .positive => 0

theorem toNat_packComponents (field : BitVec 8) (stored : BitVec 23)
    : (packComponents .binary32 sign field stored).toNat
        = signBit sign + field.toNat * 0x800000 + stored.toNat := by
  have hfield := field.isLt
  have hstored := stored.isLt
  unfold packComponents
  rw [BitVec.toNat_append, BitVec.toNat_append, ← Nat.shiftLeft_add_eq_or_of_lt hstored,
    ← Nat.shiftLeft_add_eq_or_of_lt hfield, Nat.shiftLeft_eq, Nat.shiftLeft_eq]
  cases sign <;> simp only [Sign.toBitVec, signBit, BitVec.toNat_ofNat] <;> omega

def bitsOf (x : UnpackedFloat) : Nat := (UnpackedFloat.pack .binary32 x).toNat

theorem bitsOf_unpacked (h : IsCanonical place significand)
    : bitsOf (unpacked sign place significand)
        = signBit sign + min 0x7f800000 (steps place significand) := by
  have hplace := h.le_place
  have hlt := h.lt_significand
  have hnormal := h.is_normal
  unfold bitsOf unpacked steps
  by_cases hzero : significand = 0
  . rw [dif_pos hzero]
    unfold UnpackedFloat.pack packedZero
    rw [toNat_packComponents]
    simp
    omega
  . rw [dif_neg hzero]
    unfold UnpackedFloat.pack
    dsimp only
    have hfield : (place + Format.binary32.exponentBias + (23 : Nat)).toNat
        = (place + 150).toNat := by
      show (place + 127 + 23).toNat = _
      omega
    rw [hfield]
    split
    . next hinfinite =>
      have : 256 ≤ (place + 150).toNat + 1 := hinfinite
      have hones : (-1#8).toNat = 255 := rfl
      have hempty : (0 : BitVec 23).toNat = 0 := rfl
      unfold packedInfinity
      rw [toNat_packComponents, hones, hempty]
      omega
    . next hfinite =>
      have : ¬256 ≤ (place + 150).toNat + 1 := hfinite
      split
      . next hlog =>
        have hlarge : 2 ^ 23 ≤ significand := (Nat.le_log2 hzero).mp (by
          have : significand.log2 + 1 = 24 := hlog
          omega)
        rw [toNat_packComponents, BitVec.toNat_ofNat, BitVec.toNat_ofNat]
        omega
      . next hlog =>
        have hsmall : significand < 2 ^ 23 := (Nat.log2_lt hzero).mp (by
          have hne : significand.log2 + 1 ≠ 24 := hlog
          have hlt : significand.log2 < 24 := (Nat.log2_lt hzero).mpr hlt
          omega)
        have hempty : (0#8).toNat = 0 := rfl
        rw [toNat_packComponents, hempty, BitVec.toNat_ofNat]
        omega

theorem bitsOf_roundWithAccuracy (hle : place ≤ lastPlace q)
    (h : Tells (ExtendedMantissa.ofMantissaAndAccuracy significand accuracy) (q / 2 ^ place))
    : bitsOf (roundWithAccuracy .binary32 sign significand place accuracy)
        = signBit sign + nearest q := by
  rcases roundWithAccuracy_eq hle h with ⟨place', significand', hcanonical, hsteps, heq⟩
  rw [heq, bitsOf_unpacked hcanonical, hsteps]
  rfl

theorem bitsOf_round (hpos : 0 < significand)
    : bitsOf (UnpackedFloat.round .binary32 sign significand place)
        = signBit sign + nearest (significand * 2 ^ place) := by
  -- A significand at any place; if it has too few places, it is shifted before it is rounded.
  have htarget : Format.binary32.targetExponent (totalExponent significand place)
      = lastPlace (significand * 2 ^ place) := by
    apply targetExponent_totalExponent (le_refl _) _ (.inl hpos)
    apply mul_lt_mul_of_pos_right _ (zpow_pos_two place)
    linarith
  unfold UnpackedFloat.round decreaseExponent
  rw [htarget]
  dsimp only
  generalize hshift : (place - lastPlace (significand * 2 ^ place)).toNat = shift
  apply bitsOf_roundWithAccuracy
  . omega
  . have hexact := tells_exact (significand <<< shift)
    rw [Nat.shiftLeft_eq] at hexact ⊢
    have hvalue : (significand * 2 ^ place : Rat) / 2 ^ (place - shift)
        = (significand * 2 ^ shift : Nat) := by
      rw [div_eq_iff (ne_of_gt (zpow_pos_two _)), Nat.cast_mul, mul_assoc]
      push_cast
      rw [← zpow_natCast, ← zpow_two_add, add_sub_cancel]
    rw [hvalue]
    exact hexact

end Binary32

end TextGen
