import Mathlib.Algebra.Order.Floor.Semiring
import Mathlib.Data.Int.Log
import Mathlib.Data.Rat.Floor
import Mathlib.Tactic.Linarith
import Mathlib.Tactic.NormNum
import TextGen.Numeric.Binary

/-!
This module contains rounding to 32 bits as a function on rational numbers: the bit pattern of the
number nearest to a nonnegative rational one. It keeps the order, and a rational number that has a
pattern of its own is rounded to that pattern.
-/

namespace TextGen

namespace Binary32

variable {p q : Rat} {place : Int} {significand pattern : Nat}

/-! ## Whole numbers -/

def roundEven (q : Rat) : Nat :=
  if q - ⌊q⌋₊ < 1 / 2 then ⌊q⌋₊
  else if 1 / 2 < q - ⌊q⌋₊ then ⌊q⌋₊ + 1
  else ⌊q⌋₊ + ⌊q⌋₊ % 2

@[simp]
theorem roundEven_natCast (n : Nat) : roundEven n = n := by
  simp [roundEven]

theorem roundEven_of_lt {n : Nat} (hle : n ≤ q) (hlt : q < n + 1 / 2) : roundEven q = n := by
  have hfloor : ⌊q⌋₊ = n := by
    apply (Nat.floor_eq_iff (le_trans (Nat.cast_nonneg _) hle)).mpr
    exact ⟨hle, by linarith⟩
  unfold roundEven
  rw [hfloor, if_pos (by linarith)]

theorem roundEven_of_gt {n : Nat} (hgt : n + 1 / 2 < q) (hlt : q < n + 1)
    : roundEven q = n + 1 := by
  have hfloor : ⌊q⌋₊ = n := by
    apply (Nat.floor_eq_iff (by linarith [(Nat.cast_nonneg n : (0 : Rat) ≤ n)])).mpr
    exact ⟨by linarith, hlt⟩
  unfold roundEven
  rw [hfloor, if_neg (by linarith), if_pos (by linarith)]

theorem roundEven_of_tie {n : Nat} (h : q = n + 1 / 2) : roundEven q = n + n % 2 := by
  have hfloor : ⌊q⌋₊ = n := by
    apply (Nat.floor_eq_iff (by linarith [(Nat.cast_nonneg n : (0 : Rat) ≤ n)])).mpr
    constructor <;> linarith
  unfold roundEven
  rw [hfloor, if_neg (by linarith), if_neg (by linarith)]

theorem floor_le_roundEven (q : Rat) : ⌊q⌋₊ ≤ roundEven q := by
  unfold roundEven
  split_ifs <;> omega

theorem roundEven_le_floor_succ (q : Rat) : roundEven q ≤ ⌊q⌋₊ + 1 := by
  unfold roundEven
  split_ifs <;> omega

theorem roundEven_mono (h : p ≤ q) : roundEven p ≤ roundEven q := by
  cases Nat.eq_or_lt_of_le (Nat.floor_mono h) with
  | inl heq =>
    unfold roundEven
    rw [heq]
    split_ifs <;> first | omega | linarith
  | inr hlt =>
    calc roundEven p
      _ ≤ ⌊p⌋₊ + 1 := roundEven_le_floor_succ p
      _ ≤ ⌊q⌋₊ := hlt
      _ ≤ roundEven q := floor_le_roundEven q

theorem roundEven_le_of_le {n : Nat} (h : q ≤ n) : roundEven q ≤ n := by
  rw [← roundEven_natCast n]
  exact roundEven_mono h

theorem le_roundEven_of_le {n : Nat} (h : (n : Rat) ≤ q) : n ≤ roundEven q := by
  rw [← roundEven_natCast n]
  exact roundEven_mono h

/-! ## Places -/

theorem zpow_pos_two (place : Int) : (0 : Rat) < 2 ^ place := zpow_pos (by norm_num) place

theorem zpow_two_le_iff {a b : Int} : (2 : Rat) ^ a ≤ 2 ^ b ↔ a ≤ b :=
  zpow_le_zpow_iff_right₀ (by norm_num)

theorem zpow_two_lt_iff {a b : Int} : (2 : Rat) ^ a < 2 ^ b ↔ a < b :=
  zpow_lt_zpow_iff_right₀ (by norm_num)

theorem zpow_two_add (a b : Int) : (2 : Rat) ^ (a + b) = 2 ^ a * 2 ^ b :=
  zpow_add₀ (by norm_num) a b

/--
The power of two of the last place that a number of this size keeps: it has 24 places, unless they
would go below the smallest place there is.
-/
def lastPlace (q : Rat) : Int :=
  if q < 2 ^ (-126 : Int) then -149 else Int.log 2 q - 23

theorem lastPlace_eq_of_lt (h : q < 2 ^ (-126 : Int)) : lastPlace q = -149 := if_pos h

theorem lastPlace_eq_log (h : ¬q < 2 ^ (-126 : Int)) : lastPlace q = Int.log 2 q - 23 := if_neg h

theorem pos_of_not_lt (h : ¬q < 2 ^ (-126 : Int)) : 0 < q :=
  lt_of_lt_of_le (zpow_pos_two _) (not_lt.mp h)

theorem le_log_of_not_lt (h : ¬q < 2 ^ (-126 : Int)) : -126 ≤ Int.log 2 q :=
  (Int.zpow_le_iff_le_log Nat.one_lt_two (pos_of_not_lt h)).mp (not_lt.mp h)

theorem le_lastPlace (q : Rat) : -149 ≤ lastPlace q := by
  by_cases h : q < 2 ^ (-126 : Int)
  . rw [lastPlace_eq_of_lt h]
  . have := le_log_of_not_lt h
    rw [lastPlace_eq_log h]
    omega

theorem lt_zpow_lastPlace (q : Rat) : q < 2 ^ (lastPlace q + 24) := by
  by_cases h : q < 2 ^ (-126 : Int)
  . rw [lastPlace_eq_of_lt h]
    exact lt_trans h (zpow_two_lt_iff.mpr (by omega))
  . rw [lastPlace_eq_log h]
    apply (Int.lt_zpow_iff_log_lt Nat.one_lt_two (pos_of_not_lt h)).mpr
    omega

theorem zpow_lastPlace_le (h : -149 < lastPlace q) : 2 ^ (lastPlace q + 23) ≤ q := by
  by_cases hlt : q < 2 ^ (-126 : Int)
  . rw [lastPlace_eq_of_lt hlt] at h
    contradiction
  . rw [lastPlace_eq_log hlt]
    apply (Int.zpow_le_iff_le_log Nat.one_lt_two (pos_of_not_lt hlt)).mpr
    omega

theorem lastPlace_mono (h : p ≤ q) : lastPlace p ≤ lastPlace q := by
  apply Int.not_lt.mp
  intro hlt
  have hplace : (2 : Rat) ^ (lastPlace p + 23) < 2 ^ (lastPlace q + 24) :=
    calc (2 : Rat) ^ (lastPlace p + 23)
      _ ≤ p := zpow_lastPlace_le (lt_of_le_of_lt (le_lastPlace q) hlt)
      _ ≤ q := h
      _ < 2 ^ (lastPlace q + 24) := lt_zpow_lastPlace q
  rw [zpow_two_lt_iff] at hplace
  omega

theorem lastPlace_eq_of_bounds (hplace : -149 ≤ place) (hlt : q < 2 ^ (place + 24))
    (hge : place = -149 ∨ 2 ^ (place + 23) ≤ q) : lastPlace q = place := by
  have hupper : lastPlace q ≤ place := by
    apply Int.not_lt.mp
    intro h
    have := lt_of_le_of_lt (zpow_lastPlace_le (lt_of_le_of_lt hplace h)) hlt
    rw [zpow_two_lt_iff] at this
    omega
  have hlower : place ≤ lastPlace q := by
    cases hge with
    | inl heq =>
      rw [heq]
      exact le_lastPlace q
    | inr hge =>
      have := lt_of_le_of_lt hge (lt_zpow_lastPlace q)
      rw [zpow_two_lt_iff] at this
      omega
  exact Int.le_antisymm hupper hlower

/-! ## Patterns -/

def steps (place : Int) (significand : Nat) : Nat :=
  (place + 149).toNat * 0x800000 + significand

/--
The bit pattern of the number nearest to a nonnegative rational one, the pattern of infinity for one
that is too large.
-/
def nearest (q : Rat) : Nat :=
  min 0x7f800000 (steps (lastPlace q) (roundEven (q / 2 ^ lastPlace q)))

theorem nearest_le (q : Rat) : nearest q ≤ 0x7f800000 := Nat.min_le_left _ _

theorem roundEven_lastPlace_le (q : Rat) : roundEven (q / 2 ^ lastPlace q) ≤ 0x1000000 := by
  apply roundEven_le_of_le
  rw [div_le_iff₀ (zpow_pos_two _)]
  apply le_of_lt (lt_of_lt_of_eq (lt_zpow_lastPlace q) _)
  rw [zpow_two_add, mul_comm]
  norm_num

theorem le_roundEven_lastPlace (h : -149 < lastPlace q)
    : 0x800000 ≤ roundEven (q / 2 ^ lastPlace q) := by
  apply le_roundEven_of_le
  rw [le_div_iff₀ (zpow_pos_two _)]
  apply le_of_eq_of_le _ (zpow_lastPlace_le h)
  rw [zpow_two_add, mul_comm]
  norm_num

theorem nearest_mono (h : p ≤ q) : nearest p ≤ nearest q := by
  -- A larger number either has the same last place and then no smaller significand, or a higher
  -- last place and then at least the first pattern of it.
  apply min_le_min (Nat.le_refl _)
  unfold steps
  cases Int.lt_or_eq_of_le (lastPlace_mono h) with
  | inl hlt =>
    have hp := roundEven_lastPlace_le p
    have hq := le_roundEven_lastPlace (lt_of_le_of_lt (le_lastPlace p) hlt)
    have := le_lastPlace p
    omega
  | inr heq =>
    rw [heq]
    apply Nat.add_le_add_left
    apply roundEven_mono
    exact div_le_div_of_nonneg_right h (le_of_lt (zpow_pos_two _))

/-! ## Numbers that have a pattern -/

structure IsCanonical (place : Int) (significand : Nat) : Prop where
  le_place : -149 ≤ place
  lt_significand : significand < 0x1000000
  is_normal : place = -149 ∨ 0x800000 ≤ significand

theorem lastPlace_of_isCanonical (h : IsCanonical place significand)
    : lastPlace (significand * 2 ^ place) = place := by
  apply lastPlace_eq_of_bounds h.le_place
  . rw [add_comm, zpow_two_add]
    apply mul_lt_mul_of_pos_right _ (zpow_pos_two _)
    have : (significand : Rat) < 0x1000000 := by exact_mod_cast h.lt_significand
    norm_num at this ⊢
    exact this
  . cases h.is_normal with
    | inl hsmall => exact .inl hsmall
    | inr hlarge =>
      right
      rw [add_comm, zpow_two_add]
      apply mul_le_mul_of_nonneg_right _ (le_of_lt (zpow_pos_two _))
      have : (0x800000 : Rat) ≤ significand := by exact_mod_cast hlarge
      norm_num at this ⊢
      exact this

theorem nearest_of_isCanonical (h : IsCanonical place significand)
    : nearest (significand * 2 ^ place) = min 0x7f800000 (steps place significand) := by
  unfold nearest
  rw [lastPlace_of_isCanonical h, mul_div_cancel_right₀ _ (ne_of_gt (zpow_pos_two _)),
    roundEven_natCast]

def amount (pattern : Nat) : Rat :=
  (BinaryParts.ofBits pattern 23 8 (-149)).significand
    * 2 ^ (BinaryParts.ofBits pattern 23 8 (-149)).exponent

theorem ofBits_of_lt (h : pattern < 0x800000)
    : (BinaryParts.ofBits pattern 23 8 (-149)).exponent = -149
        ∧ (BinaryParts.ofBits pattern 23 8 (-149)).significand = pattern := by
  have hfield : pattern / Nat.pow 2 23 % Nat.pow 2 8 = 0 := by
    show pattern / 0x800000 % 256 = 0
    omega
  unfold BinaryParts.ofBits
  rw [if_pos hfield]
  exact ⟨rfl, Nat.mod_eq_of_lt h⟩

theorem ofBits_of_le (hle : 0x800000 ≤ pattern) (hlt : pattern < 0x7f800000)
    : (BinaryParts.ofBits pattern 23 8 (-149)).exponent = (pattern / 0x800000 : Nat) - 150
        ∧ (BinaryParts.ofBits pattern 23 8 (-149)).significand
          = pattern % 0x800000 + 0x800000 := by
  have hfield : pattern / Nat.pow 2 23 % Nat.pow 2 8 = pattern / 0x800000 := by
    show pattern / 0x800000 % 256 = pattern / 0x800000
    omega
  unfold BinaryParts.ofBits
  rw [hfield, if_neg (by omega)]
  refine ⟨?_, rfl⟩
  show (-149 : Int) + (pattern / 0x800000 - 1 : Nat) = _
  omega

theorem amount_of_le (hle : 0x800000 ≤ pattern) (hlt : pattern < 0x7f800000)
    : amount pattern
        = (pattern % 0x800000 + 0x800000 : Nat) * 2 ^ ((pattern / 0x800000 : Nat) - 150 : Int) := by
  unfold amount
  rw [(ofBits_of_le hle hlt).1, (ofBits_of_le hle hlt).2]

theorem amount_one : amount 0x3f800000 = 1 := by
  rw [amount_of_le (by decide) (by decide)]
  norm_num

theorem isCanonical_ofBits (h : pattern < 0x7f800000)
    : IsCanonical (BinaryParts.ofBits pattern 23 8 (-149)).exponent
          (BinaryParts.ofBits pattern 23 8 (-149)).significand
        ∧ steps (BinaryParts.ofBits pattern 23 8 (-149)).exponent
            (BinaryParts.ofBits pattern 23 8 (-149)).significand = pattern := by
  unfold steps
  by_cases hsubnormal : pattern < 0x800000
  . rw [(ofBits_of_lt hsubnormal).1, (ofBits_of_lt hsubnormal).2]
    refine ⟨⟨?_, ?_, ?_⟩, ?_⟩ <;> omega
  . have hnormal := ofBits_of_le (Nat.not_lt.mp hsubnormal) h
    rw [hnormal.1, hnormal.2]
    refine ⟨⟨?_, ?_, ?_⟩, ?_⟩ <;> omega

theorem nearest_amount (h : pattern < 0x7f800000) : nearest (amount pattern) = pattern := by
  have hbits := isCanonical_ofBits h
  unfold amount
  rw [nearest_of_isCanonical hbits.1, hbits.2]
  omega

theorem amount_nonneg (pattern : Nat) : 0 ≤ amount pattern :=
  mul_nonneg (Nat.cast_nonneg _) (le_of_lt (zpow_pos_two _))

theorem amount_lt_iff {other : Nat} (h : pattern < 0x7f800000) (hother : other < 0x7f800000)
    : amount pattern < amount other ↔ pattern < other := by
  have hmono {a b : Nat} (ha : a < 0x7f800000) (hb : b < 0x7f800000) (hab : amount a ≤ amount b)
      : a ≤ b := by
    rw [← nearest_amount ha, ← nearest_amount hb]
    exact nearest_mono hab
  constructor
  . intro hlt
    apply lt_of_le_of_ne (hmono h hother (le_of_lt hlt))
    intro heq
    rw [heq] at hlt
    exact lt_irrefl _ hlt
  . intro hlt
    apply not_le.mp
    intro hle
    exact Nat.not_le.mpr hlt (hmono hother h hle)

theorem amount_le_iff {other : Nat} (h : pattern < 0x7f800000) (hother : other < 0x7f800000)
    : amount pattern ≤ amount other ↔ pattern ≤ other := by
  rw [← not_lt, amount_lt_iff hother h, Nat.not_lt]

@[simp]
theorem amount_zero : amount 0 = 0 := by
  unfold amount BinaryParts.ofBits
  simp

@[simp]
theorem nearest_zero : nearest 0 = 0 := by
  rw [← amount_zero]
  exact nearest_amount (by decide)

theorem nearest_le_of_le_amount (h : pattern < 0x7f800000) (hle : q ≤ amount pattern)
    : nearest q ≤ pattern :=
  le_of_le_of_eq (nearest_mono hle) (nearest_amount h)

theorem le_nearest_of_amount_le (h : pattern < 0x7f800000) (hle : amount pattern ≤ q)
    : pattern ≤ nearest q :=
  le_of_eq_of_le (nearest_amount h).symm (nearest_mono hle)

end Binary32

end TextGen
