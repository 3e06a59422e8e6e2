import Mathlib
import TextGen.Proofs.Numeric.Rounding

/-!
This module contains what the bits of a 32-bit number mean: the number is a sign and a pattern, and
the comparisons and the total order of numbers are those of the patterns.
-/

namespace TextGen

namespace Binary32

open Float.Model UnpackedFloat

variable {x y : Float32} {place place' : Int} {significand significand' : Nat} {sign sign' : Sign}

/-! ## Sign and pattern -/

def signOf (x : Float32) : Sign :=
  if x.toBits.toNat < 0x80000000 then .positive else .negative

def patternOf (x : Float32) : Nat := x.toBits.toNat % 0x80000000

theorem toNat_toBits (x : Float32) : x.toBits.toNat = signBit (signOf x) + patternOf x := by
  have := UInt32.toNat_lt x.toBits
  unfold signOf patternOf
  split <;> dsimp only [signBit] <;> omega

theorem patternOf_lt (x : Float32) : patternOf x < 0x80000000 := Nat.mod_lt _ (by decide)

theorem signOf_eq_of_toNat {sign : Sign} {pattern : Nat} (hlt : pattern < 0x80000000)
    (h : x.toBits.toNat = signBit sign + pattern) : signOf x = sign ∧ patternOf x = pattern := by
  unfold signOf patternOf
  cases sign with
  | negative =>
    have hbits : x.toBits.toNat = 0x80000000 + pattern := h
    rw [if_neg (by omega)]
    exact ⟨rfl, by omega⟩
  | positive =>
    have hbits : x.toBits.toNat = 0 + pattern := h
    rw [if_pos (by omega)]
    exact ⟨rfl, by omega⟩

theorem eq_of_patternOf_eq (hsign : signOf x = signOf y) (hpattern : patternOf x = patternOf y)
    : x = y := by
  rw [← Float32.toBits_inj, ← UInt32.toNat_inj, toNat_toBits, toNat_toBits, hsign, hpattern]

/-! ## Unpacking -/

theorem toNat_unpackMantissa (bits : BitVec 32)
    : (@unpackMantissa .binary32 bits).toNat = bits.toNat % 0x800000 := by
  unfold unpackMantissa
  rw [BitVec.toNat_cast, BitVec.extractLsb_toNat]
  rfl

theorem toNat_unpackExponent (bits : BitVec 32)
    : (@unpackExponent .binary32 bits).toNat = bits.toNat / 0x800000 % 0x100 := by
  unfold unpackExponent
  rw [BitVec.toNat_cast, BitVec.extractLsb_toNat, Nat.shiftRight_eq_div_pow]
  rfl

theorem toNat_unpackSign (bits : BitVec 32)
    : (@unpackSign .binary32 bits).toNat = bits.toNat / 0x80000000 % 2 := by
  unfold unpackSign
  rw [BitVec.toNat_cast, BitVec.extractLsb_toNat, Nat.shiftRight_eq_div_pow]
  rfl

theorem ofBitVec_unpackSign (x : Float32)
    : Sign.ofBitVec (@unpackSign .binary32 x.toBits.toBitVec) = signOf x := by
  have hbits := UInt32.toNat_lt x.toBits
  unfold Sign.ofBitVec signOf
  apply if_congr _ rfl rfl
  rw [← BitVec.toNat_inj, toNat_unpackSign]
  show x.toBits.toNat / 0x80000000 % 2 = 0 ↔ _
  omega

theorem toNat_unpackMantissa_toBits (x : Float32)
    : (@unpackMantissa .binary32 x.toBits.toBitVec).toNat
        = patternOf x % 0x800000 := by
  rw [toNat_unpackMantissa]
  unfold patternOf
  show x.toBits.toNat % 0x800000 = _
  omega

theorem toNat_unpackExponent_toBits (x : Float32)
    : (@unpackExponent .binary32 x.toBits.toBitVec).toNat
        = patternOf x / 0x800000 := by
  rw [toNat_unpackExponent]
  unfold patternOf
  show x.toBits.toNat / 0x800000 % 0x100 = _
  omega

theorem unpack_toModel (x : Float32)
    : x.toModel.unpack = UnpackedFloat.unpack .binary32 x.toBits.toBitVec := rfl

theorem unpacked_cases (sign : Sign) (place : Int) (significand : Nat)
    : unpacked sign place significand = .zero sign
        ∨ ∃ hpos, unpacked sign place significand = .finite sign significand place hpos := by
  unfold unpacked
  by_cases h : significand = 0
  . exact .inl (dif_pos h)
  . exact .inr ⟨_, dif_neg h⟩

theorem finite_eq_unpacked (hpos : 0 < significand) (hplace : place = place')
    (hsignificand : significand = significand')
    : UnpackedFloat.finite sign significand place hpos = unpacked sign place' significand' := by
  subst hplace hsignificand
  unfold unpacked
  rw [dif_neg (Nat.pos_iff_ne_zero.mp hpos)]

theorem unpack_of_lt (h : patternOf x < 0x7f800000)
    : x.toModel.unpack
        =
      unpacked (signOf x) (BinaryParts.ofBits (patternOf x) 23 8 (-149)).exponent
        (BinaryParts.ofBits (patternOf x) 23 8 (-149)).significand := by
  have hexponent := toNat_unpackExponent_toBits x
  have hmantissa := toNat_unpackMantissa_toBits x
  have hfinite : @unpackExponent .binary32 x.toBits.toBitVec ≠ -1#8 := by
    intro heq
    rw [heq] at hexponent
    have hones : (-1#8).toNat = 255 := rfl
    omega
  rw [unpack_toModel]
  unfold UnpackedFloat.unpack
  dsimp only
  rw [if_neg hfinite, ofBitVec_unpackSign]
  by_cases hsubnormal : patternOf x < 0x800000
  . have hfield : @unpackExponent .binary32 x.toBits.toBitVec = 0#8 := by
      apply BitVec.eq_of_toNat_eq
      rw [hexponent]
      exact Nat.div_eq_of_lt hsubnormal
    have hzero : @unpackMantissa .binary32 x.toBits.toBitVec = 0#23
        ↔ patternOf x = 0 := by
      rw [← BitVec.toNat_inj, hmantissa, Nat.mod_eq_of_lt hsubnormal]
      rfl
    rw [if_pos hfield, (ofBits_of_lt hsubnormal).1, (ofBits_of_lt hsubnormal).2]
    by_cases hempty : @unpackMantissa .binary32 x.toBits.toBitVec = 0#23
    . rw [dif_pos hempty, hzero.mp hempty]
      rfl
    . rw [dif_neg hempty]
      apply finite_eq_unpacked
      . rw [hfield]
        rfl
      . rw [hmantissa, Nat.mod_eq_of_lt hsubnormal]
  . have hnormal := ofBits_of_le (Nat.not_lt.mp hsubnormal) h
    have hfield : @unpackExponent .binary32 x.toBits.toBitVec ≠ 0#8 := by
      intro heq
      rw [heq] at hexponent
      have hnone : (0#8).toNat = 0 := rfl
      omega
    have himplicit : (1#1 ++ @unpackMantissa .binary32 x.toBits.toBitVec).toNat
        = patternOf x % 0x800000 + 0x800000 := by
      rw [BitVec.toNat_append, ← Nat.shiftLeft_add_eq_or_of_lt (BitVec.isLt _), hmantissa]
      exact Nat.add_comm _ _
    rw [if_neg hfield, hnormal.1, hnormal.2]
    apply finite_eq_unpacked _ _ himplicit
    rw [hexponent]
    rfl

theorem unpack_of_eq (h : patternOf x = 0x7f800000)
    : x.toModel.unpack = .infinity (signOf x) := by
  have hexponent : @unpackExponent .binary32 x.toBits.toBitVec = -1#8 := by
    apply BitVec.eq_of_toNat_eq
    rw [toNat_unpackExponent_toBits, h]
    rfl
  have hmantissa : @unpackMantissa .binary32 x.toBits.toBitVec = 0#23 := by
    apply BitVec.eq_of_toNat_eq
    rw [toNat_unpackMantissa_toBits, h]
    rfl
  rw [unpack_toModel]
  unfold UnpackedFloat.unpack
  dsimp only
  rw [if_pos hexponent, if_pos hmantissa, ofBitVec_unpackSign]

theorem unpackFields_of_gt (h : 0x7f800000 < patternOf x)
    : @unpackExponent .binary32 x.toBits.toBitVec = -1#8
        ∧ @unpackMantissa .binary32 x.toBits.toBitVec ≠ 0#23 := by
  have hlt := patternOf_lt x
  constructor
  . apply BitVec.eq_of_toNat_eq
    rw [toNat_unpackExponent_toBits]
    show patternOf x / 0x800000 = 255
    omega
  . intro heq
    have hstored := toNat_unpackMantissa_toBits x
    rw [heq] at hstored
    have hnone : (0#23).toNat = 0 := rfl
    omega

theorem unpack_of_gt (h : 0x7f800000 < patternOf x) : x.toModel.unpack = .notANumber := by
  rcases unpackFields_of_gt h with ⟨hexponent, hmantissa⟩
  rw [unpack_toModel]
  unfold UnpackedFloat.unpack
  dsimp only
  rw [if_pos hexponent, if_neg hmantissa]

/-! ## Comparisons -/

/--
The pattern with the sign of the number, so that both zeros stand at one place.
-/
def rankOf (x : Float32) : Int := (signOf x).apply (patternOf x)

theorem rankOf_of_positive (h : signOf x = .positive) : rankOf x = patternOf x := by
  unfold rankOf
  rw [h]
  rfl

theorem compare_steps (h : IsCanonical place significand) (h' : IsCanonical place' significand')
    : (compare place place').then (compare significand significand')
        =
      compare (steps place significand : Int) (steps place' significand') := by
  have hlow := h.le_place
  have hlow' := h'.le_place
  have hlt := h.lt_significand
  have hlt' := h'.lt_significand
  have hnormal := h.is_normal
  have hnormal' := h'.is_normal
  rw [Int.compare_eq_ite_lt, Int.compare_eq_ite_lt, Nat.compare_eq_ite_lt]
  unfold steps
  split_ifs <;> first | rfl | omega

theorem some_lt_eq {a b : Int} (h : a < b) : some Ordering.lt = some (compare a b) :=
  congrArg some (Int.compare_eq_lt.mpr h).symm

theorem some_gt_eq {a b : Int} (h : b < a) : some Ordering.gt = some (compare a b) :=
  congrArg some (Int.compare_eq_gt.mpr h).symm

theorem compare_neg (a b : Int) : compare (-a) (-b) = (compare a b).swap := by
  rw [Int.compare_eq_ite_lt, Int.compare_eq_ite_lt]
  split_ifs <;> first | rfl | omega

theorem steps_pos (h : 0 < significand) : 0 < steps place significand := by
  unfold steps
  omega

theorem steps_eq_zero (h : IsCanonical place significand) (hzero : significand = 0)
    : steps place significand = 0 := by
  have hnormal := h.is_normal
  unfold steps
  omega

@[simp]
theorem apply_zero (sign : Sign) : sign.apply 0 = 0 := by
  cases sign <;> rfl

theorem compare_unpacked (h : IsCanonical place significand)
    (h' : IsCanonical place' significand')
    : (unpacked sign place significand).compare (unpacked sign' place' significand')
        =
      some (compare (sign.apply (steps place significand))
        (sign'.apply (steps place' significand'))) := by
  have hsteps := @steps_pos place significand
  have hsteps' := @steps_pos place' significand'
  unfold unpacked
  by_cases hzero : significand = 0
  . rw [dif_pos hzero, steps_eq_zero h hzero, Nat.cast_zero, apply_zero]
    by_cases hzero' : significand' = 0
    . rw [dif_pos hzero', steps_eq_zero h' hzero', Nat.cast_zero, apply_zero]
      rfl
    . rw [dif_neg hzero']
      cases sign' with
      | negative =>
        apply some_gt_eq
        dsimp only [Sign.apply]
        omega
      | positive =>
        apply some_lt_eq
        dsimp only [Sign.apply]
        omega
  . rw [dif_neg hzero]
    by_cases hzero' : significand' = 0
    . rw [dif_pos hzero', steps_eq_zero h' hzero', Nat.cast_zero, apply_zero]
      cases sign with
      | negative =>
        apply some_lt_eq
        dsimp only [Sign.apply]
        omega
      | positive =>
        apply some_gt_eq
        dsimp only [Sign.apply]
        omega
    . rw [dif_neg hzero']
      cases sign with
      | negative =>
        cases sign' with
        | negative =>
          dsimp only [UnpackedFloat.compare, Sign.apply]
          rw [compare_steps h h', compare_neg]
        | positive =>
          apply some_lt_eq
          dsimp only [Sign.apply]
          omega
      | positive =>
        cases sign' with
        | negative =>
          apply some_gt_eq
          dsimp only [Sign.apply]
          omega
        | positive =>
          dsimp only [UnpackedFloat.compare, Sign.apply]
          rw [compare_steps h h']

theorem compare_infinity_unpacked (sign : Sign)
    : (UnpackedFloat.infinity sign).compare (unpacked sign' place' significand')
          = some (match sign with | .positive => .gt | .negative => .lt)
        ∧ (unpacked sign' place' significand').compare (.infinity sign)
          = some (match sign with | .positive => .lt | .negative => .gt) := by
  rcases unpacked_cases sign' place' significand' with heq | ⟨_, heq⟩ <;> rw [heq] <;>
    cases sign <;> cases sign' <;> exact ⟨rfl, rfl⟩

theorem unpack_eq_unpacked (h : patternOf x < 0x7f800000)
    : ∃ place significand, IsCanonical place significand
        ∧ steps place significand = patternOf x
        ∧ x.toModel.unpack = unpacked (signOf x) place significand :=
  ⟨_, _, (isCanonical_ofBits h).1, (isCanonical_ofBits h).2, unpack_of_lt h⟩

theorem compare_eq (hx : patternOf x ≤ 0x7f800000) (hy : patternOf y ≤ 0x7f800000)
    : x.toModel.unpack.compare y.toModel.unpack = some (compare (rankOf x) (rankOf y)) := by
  unfold rankOf
  cases Nat.lt_or_eq_of_le hx with
  | inl hx =>
    rcases unpack_eq_unpacked hx with ⟨place, significand, hcanonical, hsteps, hunpack⟩
    rw [hunpack]
    cases Nat.lt_or_eq_of_le hy with
    | inl hy =>
      rcases unpack_eq_unpacked hy with ⟨place', significand', hcanonical', hsteps', hunpack'⟩
      rw [hunpack', compare_unpacked hcanonical hcanonical', hsteps, hsteps']
    | inr hy =>
      rw [unpack_of_eq hy, (compare_infinity_unpacked _).2, hy]
      cases signOf y with
      | negative =>
        apply some_gt_eq
        cases signOf x <;> dsimp only [Sign.apply] <;> omega
      | positive =>
        apply some_lt_eq
        cases signOf x <;> dsimp only [Sign.apply] <;> omega
  | inr hx =>
    rw [unpack_of_eq hx, hx]
    cases Nat.lt_or_eq_of_le hy with
    | inl hy =>
      rcases unpack_eq_unpacked hy with ⟨place', significand', _, _, hunpack'⟩
      rw [hunpack', (compare_infinity_unpacked _).1]
      cases signOf x with
      | negative =>
        apply some_lt_eq
        cases signOf y <;> dsimp only [Sign.apply] <;> omega
      | positive =>
        apply some_gt_eq
        cases signOf y <;> dsimp only [Sign.apply] <;> omega
    | inr hy =>
      rw [unpack_of_eq hy, hy]
      cases signOf x <;> cases signOf y <;> rfl

theorem compare_eq_ite (x y : Float32)
    : x.toModel.unpack.compare y.toModel.unpack
        =
      if patternOf x ≤ 0x7f800000 ∧ patternOf y ≤ 0x7f800000 then
        some (compare (rankOf x) (rankOf y))
      else none := by
  split
  . next h => exact compare_eq h.1 h.2
  . next h =>
    by_cases hx : patternOf x ≤ 0x7f800000
    . have hy : 0x7f800000 < patternOf y := Nat.not_le.mp fun hy => h ⟨hx, hy⟩
      rw [unpack_of_gt hy]
      cases x.toModel.unpack with
      | infinity sign => cases sign <;> rfl
      | notANumber => rfl
      | zero sign => rfl
      | finite sign mantissa exponent hpos => cases sign <;> rfl
    . rw [unpack_of_gt (Nat.not_le.mp hx)]
      rfl

theorem lt_iff
    : x < y
        ↔ (patternOf x ≤ 0x7f800000 ∧ patternOf y ≤ 0x7f800000) ∧ rankOf x < rankOf y := by
  have hcompare : x < y ↔ (x.toModel.unpack.compare y.toModel.unpack == some .lt) = true :=
    decide_eq_true_iff
  rw [hcompare, beq_iff_eq, compare_eq_ite]
  split
  . next h => rw [Option.some_inj, Int.compare_eq_lt, and_iff_right h]
  . next h => exact iff_of_false nofun fun hlt => h hlt.1

theorem le_iff
    : x ≤ y
        ↔ (patternOf x ≤ 0x7f800000 ∧ patternOf y ≤ 0x7f800000) ∧ rankOf x ≤ rankOf y := by
  have hcompare : x ≤ y ↔ (x.toModel.unpack.compare y.toModel.unpack).any (·.isLE) = true :=
    decide_eq_true_iff
  rw [hcompare, compare_eq_ite]
  split
  . next h => rw [Option.any_some, Int.isLE_compare, and_iff_right h]
  . next h => exact iff_of_false nofun fun hle => h hle.1

theorem beq_iff
    : (x == y) = true
        ↔ (patternOf x ≤ 0x7f800000 ∧ patternOf y ≤ 0x7f800000) ∧ rankOf x = rankOf y := by
  show (x.toModel.unpack.compare y.toModel.unpack == some .eq) = true ↔ _
  rw [beq_iff_eq, compare_eq_ite]
  split
  . next h => rw [Option.some_inj, Int.compare_eq_eq, and_iff_right h]
  . next h => exact iff_of_false nofun fun heq => h heq.1

theorem not_lt_self (x : Float32) : ¬x < x := by
  rw [lt_iff]
  omega

theorem lt_of_lt_of_lt {z : Float32} (hxy : x < y) (hyz : y < z) : x < z := by
  rw [lt_iff] at *
  omega

theorem not_lt_of_not_le (h : ¬x ≤ y) : ¬x < y := by
  rw [le_iff] at h
  rw [lt_iff]
  omega

theorem not_le_of_lt_of_not_lt {z : Float32} (hlt : x < y) (hnot : ¬x < z) : ¬y ≤ z := by
  rw [lt_iff] at hlt hnot
  rw [le_iff]
  omega

/-! ## The kinds of numbers -/

theorem isNaN_iff : x.isNaN = true ↔ 0x7f800000 < patternOf x := by
  show x.toModel.unpack.isNaN = true ↔ _
  cases Nat.lt_trichotomy (patternOf x) 0x7f800000 with
  | inl hlt =>
    rcases unpack_eq_unpacked hlt with ⟨place, significand, _, _, hunpack⟩
    rw [hunpack]
    refine iff_of_false ?_ (by omega)
    rcases unpacked_cases (signOf x) place significand with heq | ⟨_, heq⟩ <;> rw [heq] <;>
      exact Bool.false_ne_true
  | inr hge =>
    cases hge with
    | inl heq =>
      rw [unpack_of_eq heq]
      exact iff_of_false Bool.false_ne_true (by omega)
    | inr hgt =>
      rw [unpack_of_gt hgt]
      exact iff_of_true rfl hgt

theorem isFinite_iff : x.isFinite = true ↔ patternOf x < 0x7f800000 := by
  show x.toModel.unpack.isFinite = true ↔ _
  cases Nat.lt_trichotomy (patternOf x) 0x7f800000 with
  | inl hlt =>
    rcases unpack_eq_unpacked hlt with ⟨place, significand, _, _, hunpack⟩
    rw [hunpack]
    refine iff_of_true ?_ hlt
    rcases unpacked_cases (signOf x) place significand with heq | ⟨_, heq⟩ <;> rw [heq] <;> rfl
  | inr hge =>
    cases hge with
    | inl heq =>
      rw [unpack_of_eq heq]
      exact iff_of_false Bool.false_ne_true (by omega)
    | inr hgt =>
      rw [unpack_of_gt hgt]
      exact iff_of_false Bool.false_ne_true (by omega)

theorem toNat_toBits_of_gt (h : 0x7f800000 < patternOf x) : x.toBits.toNat = 0x7fc00000 := by
  rcases unpackFields_of_gt h with ⟨hexponent, hmantissa⟩
  have hbits := x.toModel.valid.eq_packedNaN hexponent hmantissa
  exact congrArg BitVec.toNat hbits

theorem isNaN_of_toNat (h : x.toBits.toNat = 0x7fc00000) : x.isNaN = true := by
  rw [isNaN_iff]
  unfold patternOf
  omega

theorem toBits_ofBits {bits : UInt32} (h : patternOf (.ofBits bits) ≤ 0x7f800000)
    : (Float32.ofBits bits).toBits = bits := by
  have hpack := @pack_unpack .binary32 bits.toBitVec (by decide)
  apply UInt32.toBitVec_inj.mp
  refine hpack.trans (if_neg ?_)
  intro hnan
  rw [if_pos hnan] at hpack
  have hbits : (Float32.ofBits bits).toBits.toNat = 0x7fc00000 := congrArg BitVec.toNat hpack
  have hpattern := isNaN_iff.mp (isNaN_of_toNat hbits)
  omega

/-! ## The total order -/

theorem orderKey_injective {a b : UInt32} (h : orderKey a = orderKey b) : a = b := by
  have hword : wordCount 31 = 0x80000000 := rfl
  unfold orderKey at h
  rw [hword] at h
  apply UInt32.toNat_inj.mp
  split at h <;> split at h <;> omega

theorem orderKey_of_positive (h : signOf x = .positive) : orderKey x.toBits = patternOf x := by
  have hbits := toNat_toBits x
  have hlt := patternOf_lt x
  have hword : wordCount 31 = 0x80000000 := rfl
  have hsign : signBit .positive = 0 := rfl
  rw [h, hsign] at hbits
  unfold orderKey
  rw [hword, if_pos (by omega)]
  omega

theorem orderKey_of_negative (h : signOf x = .negative)
    : orderKey x.toBits = -1 - patternOf x := by
  have hbits := toNat_toBits x
  have hword : wordCount 31 = 0x80000000 := rfl
  have hsign : signBit .negative = 0x80000000 := rfl
  rw [h, hsign] at hbits
  unfold orderKey
  rw [hword, if_neg (by omega)]
  omega

theorem orderKey_cases (x : Float32)
    : signOf x = .positive ∧ orderKey x.toBits = patternOf x ∧ rankOf x = patternOf x
        ∨ signOf x = .negative ∧ orderKey x.toBits = -1 - patternOf x
          ∧ rankOf x = -patternOf x := by
  unfold rankOf
  cases hsign : signOf x with
  | negative => exact .inr ⟨rfl, orderKey_of_negative hsign, rfl⟩
  | positive => exact .inl ⟨rfl, orderKey_of_positive hsign, rfl⟩

theorem eq_of_orderKey_eq (h : orderKey x.toBits = orderKey y.toBits) : x = y :=
  Float32.toBits_inj.mp (orderKey_injective h)

theorem orderKey_lt_of_rankOf_lt (h : rankOf x < rankOf y)
    : orderKey x.toBits < orderKey y.toBits := by
  have hx := orderKey_cases x
  have hy := orderKey_cases y
  omega

theorem eq_negativeInfinity_of_not_lt (hx : patternOf x ≤ 0x7f800000)
    (hnot : ¬negativeInfinity < x) : x = negativeInfinity := by
  have hleast : patternOf negativeInfinity = 0x7f800000
      ∧ rankOf negativeInfinity = -0x7f800000
      ∧ orderKey negativeInfinity.toBits = -1 - 0x7f800000 := ⟨rfl, rfl, rfl⟩
  have hkey := orderKey_cases x
  rw [lt_iff] at hnot
  apply eq_of_orderKey_eq
  omega

end Binary32

end TextGen
