import TextGen.Proofs.Numeric.Decoding

/-!
This module contains arithmetic on 32-bit numbers: a quotient, a product and a sum of finite numbers
have the pattern nearest to the exact result.
-/

namespace TextGen

namespace Binary32

open Float.Model UnpackedFloat

variable {x y : Float32} {place place' : Int} {significand significand' : Nat} {sign sign' : Sign}

theorem unpack_eq_finite (hpos : 0 < patternOf x) (h : patternOf x < 0x7f800000)
    : ∃ place significand, ∃ hsignificand : 0 < significand,
        (IsCanonical place significand ∧ steps place significand = patternOf x)
        ∧ amount (patternOf x) = significand * 2 ^ place
        ∧ x.toModel.unpack = .finite (signOf x) significand place hsignificand := by
  have hbits := isCanonical_ofBits h
  have hsignificand : (BinaryParts.ofBits (patternOf x) 23 8 (-149)).significand ≠ 0 := by
    intro hzero
    have := steps_eq_zero hbits.1 hzero
    omega
  refine ⟨_, _, Nat.pos_of_ne_zero hsignificand, hbits, rfl, ?_⟩
  rw [unpack_of_lt h]
  unfold unpacked
  rw [dif_neg hsignificand]

theorem unpack_eq_zero (h : patternOf x = 0) : x.toModel.unpack = .zero (signOf x) := by
  have hbits := @ofBits_of_lt (patternOf x) (by omega)
  rw [unpack_of_lt (by omega)]
  unfold unpacked
  rw [dif_pos (hbits.2.trans h)]

theorem bits_div (x y : Float32)
    : (x / y).toBits.toNat = bitsOf (.div .binary32 x.toModel.unpack y.toModel.unpack) := rfl

theorem bits_mul (x y : Float32)
    : (x * y).toBits.toNat = bitsOf (.mul .binary32 x.toModel.unpack y.toModel.unpack) := rfl

theorem bits_add (x y : Float32)
    : (x + y).toBits.toNat = bitsOf (.add .binary32 x.toModel.unpack y.toModel.unpack) := rfl

theorem bits_sub (x y : Float32)
    : (x - y).toBits.toNat = bitsOf (.sub .binary32 x.toModel.unpack y.toModel.unpack) := rfl

theorem bitsOf_unpack (x : Float32) : bitsOf x.toModel.unpack = x.toBits.toNat :=
  congrArg BitVec.toNat (pack_unpack_of_valid x.toModel.valid)

/-! ## Division -/

theorem divCore_place_le (hpos : 0 < significand) (hpos' : 0 < significand')
    : min (place - place')
          (Format.binary32.targetExponent
            (totalExponent significand place - totalExponent significand' place'))
        ≤
      lastPlace ((significand * 2 ^ place : Rat) / (significand' * 2 ^ place')) := by
  -- The quotient is formed with enough places for its first one to be known.
  have hlower : (2 : Rat) ^ (significand.log2 + place) ≤ significand * 2 ^ place := by
    rw [zpow_two_add, zpow_natCast]
    apply mul_le_mul_of_nonneg_right _ (le_of_lt (zpow_pos_two place))
    exact_mod_cast Nat.log2_self_le (Nat.pos_iff_ne_zero.mp hpos)
  have hupper : (significand' * 2 ^ place' : Rat) < 2 ^ (significand'.log2 + 1 + place') := by
    rw [zpow_two_add]
    apply mul_lt_mul_of_pos_right _ (zpow_pos_two place')
    exact_mod_cast Nat.lt_log2_self
  have hdenominator : (0 : Rat) < significand' * 2 ^ place' :=
    mul_pos (by exact_mod_cast hpos') (zpow_pos_two place')
  have hbound := lt_zpow_lastPlace
    ((significand * 2 ^ place : Rat) / (significand' * 2 ^ place'))
  rw [div_lt_iff₀ hdenominator] at hbound
  have hpowers : (2 : Rat) ^ (significand.log2 + place)
      < 2 ^ (lastPlace ((significand * 2 ^ place : Rat) / (significand' * 2 ^ place')) + 24
          + (significand'.log2 + 1 + place')) :=
    calc (2 : Rat) ^ (significand.log2 + place)
      _ ≤ significand * 2 ^ place := hlower
      _ < _ := hbound
      _ < _ := by
        rw [zpow_two_add _ (significand'.log2 + 1 + place')]
        exact mul_lt_mul_of_pos_left hupper (zpow_pos_two _)
  have hlow := le_lastPlace ((significand * 2 ^ place : Rat) / (significand' * 2 ^ place'))
  rw [zpow_two_lt_iff] at hpowers
  rw [targetExponent_eq]
  unfold totalExponent
  omega

theorem bitsOf_div (hpos : 0 < significand) (hpos' : 0 < significand')
    : bitsOf (.div .binary32 (.finite sign significand place hpos)
          (.finite sign' significand' place' hpos'))
        =
      signBit (sign / sign')
        + nearest ((significand * 2 ^ place : Rat) / (significand' * 2 ^ place')) := by
  have hplace := @divCore_place_le place place' _ _ hpos hpos'
  unfold UnpackedFloat.div divCore
  dsimp only
  apply bitsOf_roundWithAccuracy hplace
  generalize htarget : min (place - place')
    (Format.binary32.targetExponent
      (totalExponent significand place - totalExponent significand' place')) = target
  have hshift : ((place - place' - target).toNat : Int) = place - place' - target := by omega
  have hdenominator : (significand' : Rat) ≠ 0 := by exact_mod_cast Nat.pos_iff_ne_zero.mp hpos'
  have hvalue : (significand * 2 ^ place : Rat) / (significand' * 2 ^ place') / 2 ^ target
      = (significand <<< (place - place' - target).toNat : Nat) / significand' := by
    rw [Nat.shiftLeft_eq]
    push_cast
    rw [← zpow_natCast, hshift, div_div, mul_assoc, ← zpow_two_add]
    have hsplit : place = place - place' - target + (place' + target) := by omega
    rw [div_eq_div_iff (mul_ne_zero hdenominator (ne_of_gt (zpow_pos_two _))) hdenominator]
    nth_rewrite 1 [hsplit]
    rw [zpow_two_add _ (place' + target)]
    ring
  rw [hvalue]
  exact tells_fraction hpos'

theorem toNat_toBits_div (hx : patternOf x < 0x7f800000) (hpos : 0 < patternOf y)
    (hy : patternOf y < 0x7f800000)
    : (x / y).toBits.toNat
        = signBit (signOf x / signOf y)
          + nearest (amount (patternOf x) / amount (patternOf y)) := by
  rcases unpack_eq_finite hpos hy with ⟨place', significand', hpos', _, hamount', hunpack'⟩
  rw [bits_div, hunpack', hamount']
  cases Nat.eq_zero_or_pos (patternOf x) with
  | inl hzero =>
    rw [unpack_eq_zero hzero, hzero, amount_zero, zero_div, nearest_zero]
    cases signOf x <;> cases signOf y <;> rfl
  | inr hpos =>
    rcases unpack_eq_finite hpos hx with ⟨place, significand, hsignificand, _, hamount, hunpack⟩
    rw [hunpack, hamount]
    exact bitsOf_div hsignificand hpos'

/-! ## Multiplication -/

theorem mul_place_le (h : IsCanonical place significand) (h' : IsCanonical place' significand')
    (hpos : 0 < significand) (hpos' : 0 < significand')
    : place + place'
        ≤ lastPlace ((significand * 2 ^ place : Rat) * (significand' * 2 ^ place')) := by
  have hlow := le_lastPlace ((significand * 2 ^ place : Rat) * (significand' * 2 ^ place'))
  have hnormal := h.is_normal
  have hnormal' := h'.is_normal
  by_cases hlarge : 0x800000 ≤ significand * significand'
  . have hpowers : (2 : Rat) ^ (23 + (place + place'))
        < 2 ^ (lastPlace ((significand * 2 ^ place : Rat) * (significand' * 2 ^ place')) + 24) := by
      apply lt_of_le_of_lt _ (lt_zpow_lastPlace _)
      rw [mul_mul_mul_comm, ← zpow_two_add, zpow_two_add 23]
      apply mul_le_mul_of_nonneg_right _ (le_of_lt (zpow_pos_two _))
      have : ((0x800000 : Nat) : Rat) ≤ (significand * significand' : Nat) := by
        exact_mod_cast hlarge
      norm_num at this ⊢
      exact this
    rw [zpow_two_lt_iff] at hpowers
    omega
  -- Otherwise both significands stand at the smallest place.
  . have := Nat.le_mul_of_pos_right significand hpos'
    have := Nat.le_mul_of_pos_left significand' hpos
    omega

theorem toNat_toBits_mul (hx : patternOf x < 0x7f800000) (hy : patternOf y < 0x7f800000)
    : (x * y).toBits.toNat
        = signBit (signOf x * signOf y)
          + nearest (amount (patternOf x) * amount (patternOf y)) := by
  rw [bits_mul]
  cases Nat.eq_zero_or_pos (patternOf x) with
  | inl hzero =>
    rw [unpack_eq_zero hzero, hzero, amount_zero, zero_mul, nearest_zero]
    cases Nat.eq_zero_or_pos (patternOf y) with
    | inl hzero' =>
      rw [unpack_eq_zero hzero']
      cases signOf x <;> cases signOf y <;> rfl
    | inr hpos' =>
      rcases unpack_eq_finite hpos' hy with ⟨_, _, _, _, _, hunpack'⟩
      rw [hunpack']
      cases signOf x <;> cases signOf y <;> rfl
  | inr hpos =>
    rcases unpack_eq_finite hpos hx with ⟨place, significand, hsignificand, hcanonical, hamount,
      hunpack⟩
    rw [hunpack, hamount]
    cases Nat.eq_zero_or_pos (patternOf y) with
    | inl hzero' =>
      rw [unpack_eq_zero hzero', hzero', amount_zero, mul_zero, nearest_zero]
      cases signOf x <;> cases signOf y <;> rfl
    | inr hpos' =>
      rcases unpack_eq_finite hpos' hy with ⟨place', significand', hsignificand', hcanonical',
        hamount', hunpack'⟩
      rw [hunpack', hamount']
      apply bitsOf_roundWithAccuracy
        (mul_place_le hcanonical.1 hcanonical'.1 hsignificand hsignificand')
      have hvalue : (significand * 2 ^ place : Rat) * (significand' * 2 ^ place')
          / 2 ^ (place + place') = (significand * significand' : Nat) := by
        rw [mul_mul_mul_comm, ← zpow_two_add, mul_div_cancel_right₀ _ (ne_of_gt (zpow_pos_two _))]
        push_cast
        rfl
      rw [hvalue]
      exact tells_exact _

/-! ## Addition and subtraction -/

theorem cast_decreaseExponent {target : Int} (h : target ≤ place)
    : (((decreaseExponent significand place target).1 : Nat) : Rat) * 2 ^ target
        = significand * 2 ^ place := by
  have hshift : ((place - target).toNat : Int) = place - target := by omega
  unfold decreaseExponent
  dsimp only
  rw [Nat.shiftLeft_eq]
  push_cast
  rw [← zpow_natCast, hshift, mul_assoc, ← zpow_two_add, sub_add_cancel]

theorem bitsOf_normalize (mantissa : Nat) (place : Int)
    : bitsOf (.normalize .binary32 mantissa place .positive)
        = nearest (mantissa * 2 ^ place) := by
  unfold UnpackedFloat.normalize
  cases Nat.eq_zero_or_pos mantissa with
  | inl hzero =>
    rw [hzero, Nat.cast_zero, Nat.cast_zero, zero_mul, nearest_zero]
    rfl
  | inr hpos =>
    rw [Int.compare_eq_gt.mpr (by omega)]
    exact (bitsOf_round hpos).trans (Nat.zero_add _)

theorem toNat_toBits_add (hx : patternOf x < 0x7f800000) (hy : patternOf y < 0x7f800000)
    (hsign : signOf x = .positive) (hsign' : signOf y = .positive)
    : (x + y).toBits.toNat = nearest (amount (patternOf x) + amount (patternOf y)) := by
  have hbits : bitsOf x.toModel.unpack = patternOf x := by
    rw [bitsOf_unpack, toNat_toBits, hsign]
    exact Nat.zero_add _
  have hbits' : bitsOf y.toModel.unpack = patternOf y := by
    rw [bitsOf_unpack, toNat_toBits, hsign']
    exact Nat.zero_add _
  rw [bits_add]
  cases Nat.eq_zero_or_pos (patternOf x) with
  | inl hzero =>
    rw [unpack_eq_zero hzero, hsign, hzero, amount_zero, zero_add, nearest_amount hy]
    cases Nat.eq_zero_or_pos (patternOf y) with
    | inl hzero' =>
      rw [unpack_eq_zero hzero', hsign', hzero']
      rfl
    | inr hpos' =>
      rcases unpack_eq_finite hpos' hy with ⟨place', significand', hsignificand', _, _, hunpack'⟩
      rw [hunpack'] at hbits' ⊢
      exact hbits'
  | inr hpos =>
    rcases unpack_eq_finite hpos hx with ⟨place, significand, hsignificand, _, hamount, hunpack⟩
    rw [hunpack] at hbits ⊢
    cases Nat.eq_zero_or_pos (patternOf y) with
    | inl hzero' =>
      rw [unpack_eq_zero hzero', hzero', amount_zero, add_zero, nearest_amount hx]
      exact hbits
    | inr hpos' =>
      rcases unpack_eq_finite hpos' hy with ⟨place', significand', hsignificand', _, hamount',
        hunpack'⟩
      rw [hunpack', hsign, hsign', hamount, hamount',
        ← cast_decreaseExponent (min_le_left place place'),
        ← cast_decreaseExponent (min_le_right place place'), ← add_mul, ← Nat.cast_add]
      exact bitsOf_normalize _ _

theorem sub_self_eq_zero (h : patternOf x < 0x7f800000) : x - x = 0 := by
  apply Float32.toBits_inj.mp
  rw [← UInt32.toNat_inj, bits_sub]
  cases Nat.eq_zero_or_pos (patternOf x) with
  | inl hzero =>
    rw [unpack_eq_zero hzero]
    cases signOf x <;> rfl
  | inr hpos =>
    rcases unpack_eq_finite hpos h with ⟨place, significand, hsignificand, _, _, hunpack⟩
    rw [hunpack]
    unfold UnpackedFloat.sub
    dsimp only
    rw [Int.sub_self]
    rfl

theorem sub_of_zero (hpos : 0 < patternOf x) (hx : patternOf x < 0x7f800000)
    (hy : patternOf y = 0) : x - y = x := by
  rcases unpack_eq_finite hpos hx with ⟨place, significand, hsignificand, _, _, hunpack⟩
  apply Float32.toBits_inj.mp
  rw [← UInt32.toNat_inj, ← bitsOf_unpack x, bits_sub, hunpack, unpack_eq_zero hy]
  rfl

theorem toNat_toBits_zero_sub (hx : patternOf x = 0) (hpos : 0 < patternOf y)
    (hy : patternOf y < 0x7f800000)
    : (x - y).toBits.toNat = signBit (-signOf y) + patternOf y := by
  rcases unpack_eq_finite hpos hy with ⟨place, significand, hsignificand, hcanonical, _, hunpack⟩
  have hbits := @bitsOf_unpacked _ _ (-signOf y) hcanonical.1
  unfold unpacked at hbits
  rw [dif_neg (Nat.pos_iff_ne_zero.mp hsignificand), hcanonical.2,
    Nat.min_eq_right (le_of_lt hy)] at hbits
  rw [bits_sub, unpack_eq_zero hx, hunpack]
  exact hbits

def signed (sign : Sign) (q : Rat) : Rat :=
  match sign with
  | .negative => -q
  | .positive => q

theorem signed_amount_le (hx : patternOf x < 0x7f800000) (hy : patternOf y < 0x7f800000)
    (h : rankOf x ≤ rankOf y)
    : signed (signOf x) (amount (patternOf x)) ≤ signed (signOf y) (amount (patternOf y)) := by
  have hnonneg := amount_nonneg (patternOf x)
  have hnonneg' := amount_nonneg (patternOf y)
  unfold rankOf at h
  unfold signed
  cases hsign : signOf x with
  | negative =>
    cases hsign' : signOf y with
    | negative =>
      rw [hsign, hsign'] at h
      dsimp only [Sign.apply] at h
      exact neg_le_neg ((amount_le_iff hy hx).mpr (by omega))
    | positive => exact le_trans (neg_nonpos.mpr hnonneg) hnonneg'
  | positive =>
    cases hsign' : signOf y with
    | negative =>
      rw [hsign, hsign'] at h
      dsimp only [Sign.apply] at h
      have hzero : patternOf x = 0 := by omega
      have hzero' : patternOf y = 0 := by omega
      rw [hzero, hzero', amount_zero, neg_zero]
    | positive =>
      rw [hsign, hsign'] at h
      dsimp only [Sign.apply] at h
      exact (amount_le_iff hx hy).mpr (by omega)

theorem cast_apply_decreaseExponent {target : Int} (h : target ≤ place)
    : ((sign.apply (decreaseExponent significand place target).1 : Int) : Rat) * 2 ^ target
        = signed sign (significand * 2 ^ place) := by
  unfold signed
  rw [← cast_decreaseExponent h]
  cases sign with
  | negative =>
    dsimp only [Sign.apply]
    push_cast
    exact neg_mul _ _
  | positive =>
    dsimp only [Sign.apply]
    push_cast
    rfl

theorem nonpos_of_toNat {pattern : Nat} (h : x.toBits.toNat = signBit sign + pattern)
    (hle : pattern ≤ 0x7f800000) (hsigned : sign.apply pattern ≤ 0)
    : patternOf x ≤ 0x7f800000 ∧ rankOf x ≤ 0 := by
  rcases signOf_eq_of_toNat (by omega) h with ⟨hsign, hpattern⟩
  unfold rankOf
  rw [hsign, hpattern]
  exact ⟨hle, hsigned⟩

theorem nonpos_of_normalize {mantissa : Int} (h : mantissa ≤ 0)
    (hbits : x.toBits.toNat = bitsOf (.normalize .binary32 mantissa place .positive))
    : patternOf x ≤ 0x7f800000 ∧ rankOf x ≤ 0 := by
  unfold UnpackedFloat.normalize at hbits
  cases Int.lt_or_eq_of_le h with
  | inl hlt =>
    rw [Int.compare_eq_lt.mpr hlt] at hbits
    apply nonpos_of_toNat (hbits.trans (bitsOf_round (by omega))) (nearest_le _)
    dsimp only [Sign.apply]
    omega
  | inr heq =>
    rw [heq] at hbits
    exact @nonpos_of_toNat x .positive 0 hbits (by omega) (by decide)

theorem sub_nonpos (hx : patternOf x < 0x7f800000) (hy : patternOf y < 0x7f800000)
    (h : rankOf x ≤ rankOf y) : patternOf (x - y) ≤ 0x7f800000 ∧ rankOf (x - y) ≤ 0 := by
  have hkey := orderKey_cases x
  have hkey' := orderKey_cases y
  cases Nat.eq_zero_or_pos (patternOf x) with
  | inl hzero =>
    cases Nat.eq_zero_or_pos (patternOf y) with
    | inl hzero' =>
      have hbits := bits_sub x y
      rw [unpack_eq_zero hzero, unpack_eq_zero hzero'] at hbits
      cases hsign : signOf x <;> cases hsign' : signOf y <;> rw [hsign, hsign'] at hbits
      . exact @nonpos_of_toNat _ .positive 0 hbits (by omega) (by decide)
      . exact @nonpos_of_toNat _ .negative 0 hbits (by omega) (by decide)
      . exact @nonpos_of_toNat _ .positive 0 hbits (by omega) (by decide)
      . exact @nonpos_of_toNat _ .positive 0 hbits (by omega) (by decide)
    | inr hpos' =>
      have hsign' : signOf y = .positive := by
        cases hkey' with
        | inl hpositive => exact hpositive.1
        | inr hnegative => omega
      apply nonpos_of_toNat (toNat_toBits_zero_sub hzero hpos' hy) (by omega)
      rw [hsign']
      exact Int.neg_nonpos_of_nonneg (Int.natCast_nonneg _)
  | inr hpos =>
    cases Nat.eq_zero_or_pos (patternOf y) with
    | inl hzero' =>
      rw [sub_of_zero hpos hx hzero']
      omega
    | inr hpos' =>
      rcases unpack_eq_finite hpos hx with ⟨place, significand, hsignificand, _, hamount, hunpack⟩
      rcases unpack_eq_finite hpos' hy with ⟨place', significand', hsignificand', _, hamount',
        hunpack'⟩
      have hamounts := signed_amount_le hx hy h
      have hbits := bits_sub x y
      rw [hunpack, hunpack'] at hbits
      apply nonpos_of_normalize _ hbits
      rw [hamount, hamount', ← cast_apply_decreaseExponent (min_le_left place place'),
        ← cast_apply_decreaseExponent (min_le_right place place')] at hamounts
      have := le_of_mul_le_mul_right hamounts (zpow_pos_two _)
      exact Int.sub_nonpos_of_le (by exact_mod_cast this)

/-! ## Infinities and what is not a number -/

theorem sub_of_infinite (hx : patternOf x = 0x7f800000) (hy : patternOf y < 0x7f800000)
    : x - y = x := by
  apply Float32.toBits_inj.mp
  rcases unpack_eq_unpacked hy with ⟨place, significand, _, _, hunpack⟩
  rw [← UInt32.toNat_inj, ← bitsOf_unpack x, bits_sub, unpack_of_eq hx, hunpack]
  rcases unpacked_cases (signOf y) place significand with heq | ⟨_, heq⟩ <;> rw [heq] <;>
    cases signOf x <;> rfl

theorem sub_self_of_infinite (h : patternOf x = 0x7f800000) : (x - x).isNaN = true := by
  apply isNaN_of_toNat
  rw [bits_sub, unpack_of_eq h]
  cases signOf x <;> rfl

theorem toNat_toBits_div_of_isNaN (h : x.isNaN = true) : (x / y).toBits.toNat = 0x7fc00000 := by
  rw [bits_div, unpack_of_gt (isNaN_iff.mp h)]
  rfl

/-! ## Scaling -/

structure IsScale (x : Float32) : Prop where
  sign_eq : signOf x = .positive
  pos : 0 < patternOf x
  lt : patternOf x < 0x7f800000

variable {scale : Float32}

theorem IsScale.div_of_finite (h : IsScale scale) (hx : patternOf x < 0x7f800000)
    : signOf (x / scale) = signOf x
        ∧ patternOf (x / scale) = nearest (amount (patternOf x) / amount (patternOf scale)) := by
  have hle := nearest_le (amount (patternOf x) / amount (patternOf scale))
  apply signOf_eq_of_toNat (by omega)
  rw [toNat_toBits_div hx h.pos h.lt, h.sign_eq]
  cases signOf x <;> rfl

theorem IsScale.div_of_infinite (h : IsScale scale) (hx : patternOf x = 0x7f800000)
    : x / scale = x := by
  rcases unpack_eq_finite h.pos h.lt with ⟨place, significand, hsignificand, _, _, hunpack⟩
  apply Float32.toBits_inj.mp
  rw [← UInt32.toNat_inj, ← bitsOf_unpack x, unpack_of_eq hx]
  rw [bits_div, unpack_of_eq hx, hunpack, h.sign_eq]
  cases signOf x <;> rfl

theorem IsScale.signOf_div (h : IsScale scale) (hx : patternOf x ≤ 0x7f800000)
    : signOf (x / scale) = signOf x := by
  cases Nat.lt_or_eq_of_le hx with
  | inl hlt => exact (h.div_of_finite hlt).1
  | inr heq => rw [h.div_of_infinite heq]

theorem IsScale.patternOf_div_le (h : IsScale scale) (hx : patternOf x ≤ 0x7f800000)
    : patternOf (x / scale) ≤ 0x7f800000 := by
  cases Nat.lt_or_eq_of_le hx with
  | inl hlt =>
    rw [(h.div_of_finite hlt).2]
    exact nearest_le _
  | inr heq =>
    rw [h.div_of_infinite heq]
    exact hx

theorem IsScale.patternOf_div_mono (h : IsScale scale) (hle : patternOf x ≤ patternOf y)
    (hy : patternOf y ≤ 0x7f800000) : patternOf (x / scale) ≤ patternOf (y / scale) := by
  cases Nat.lt_or_eq_of_le hy with
  | inl hlt =>
    have hx := Nat.lt_of_le_of_lt hle hlt
    rw [(h.div_of_finite hlt).2, (h.div_of_finite hx).2]
    apply nearest_mono
    exact div_le_div_of_nonneg_right ((amount_le_iff hx hlt).mpr hle) (amount_nonneg _)
  | inr heq =>
    rw [h.div_of_infinite heq, heq]
    exact h.patternOf_div_le (Nat.le_trans hle hy)

theorem IsScale.orderKey_div_le (h : IsScale scale) (hx : patternOf x ≤ 0x7f800000)
    (hy : patternOf y ≤ 0x7f800000) (hle : orderKey x.toBits ≤ orderKey y.toBits)
    : orderKey (x / scale).toBits ≤ orderKey (y / scale).toBits := by
  have hsign := h.signOf_div hx
  have hsign' := h.signOf_div hy
  cases orderKey_cases x with
  | inl hpositive =>
    cases orderKey_cases y with
    | inl hpositive' =>
      rw [hpositive.1] at hsign
      rw [hpositive'.1] at hsign'
      have := h.patternOf_div_mono (x := x) (y := y) (by omega) hy
      rw [orderKey_of_positive hsign, orderKey_of_positive hsign']
      omega
    | inr hnegative' => omega
  | inr hnegative =>
    rw [hnegative.1] at hsign
    rw [orderKey_of_negative hsign]
    cases orderKey_cases y with
    | inl hpositive' =>
      rw [hpositive'.1] at hsign'
      rw [orderKey_of_positive hsign']
      omega
    | inr hnegative' =>
      rw [hnegative'.1] at hsign'
      have := h.patternOf_div_mono (x := y) (y := x) (by omega) hx
      rw [orderKey_of_negative hsign']
      omega

theorem isScale_one : IsScale 1 := ⟨rfl, by decide, by decide⟩

theorem div_one_eq (x : Float32) : x / 1 = x := by
  cases Nat.lt_trichotomy (patternOf x) 0x7f800000 with
  | inl hlt =>
    have hquotient := isScale_one.div_of_finite hlt
    have hone : patternOf 1 = 0x3f800000 := rfl
    apply eq_of_patternOf_eq hquotient.1
    rw [hquotient.2, hone, amount_one, div_one, nearest_amount hlt]
  | inr hge =>
    cases hge with
    | inl heq => exact isScale_one.div_of_infinite heq
    | inr hgt =>
      apply Float32.toBits_inj.mp
      rw [← UInt32.toNat_inj, toNat_toBits_of_gt hgt,
        toNat_toBits_div_of_isNaN (isNaN_iff.mpr hgt)]

end Binary32

end TextGen
