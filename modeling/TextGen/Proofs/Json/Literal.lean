import Mathlib.Data.List.Forall2
import TextGen.Json.Reader
import TextGen.Proofs.Except

/-!
This module contains which values a typed reader accepts and what it makes of them. An integer has
one literal, and so a reader of integers accepts the literals of the integers in its range and no
other value.
-/

namespace TextGen.Json

/-! ## Integers -/

def IsSignedWord (n : Int) : Prop := -(wordCount 63 : Int) ≤ n ∧ n < wordCount 63

variable {literal : Number} {v : Value} {low high n : Int} {x : Float32}

theorem number_eq_integer_iff
    : Value.number literal = .integer n ↔ literal.isInteger = true ∧ literal.toInt = n := by
  rcases literal with ⟨negative, digits, places, exponent⟩
  unfold Value.integer Number.isInteger Number.toInt
  rw [Value.number.injEq, Number.mk.injEq, decide_eq_true_iff]
  have hmagnitude := Int.natAbs_eq_iff (a := n) (n := digits)
  cases negative with
  | false => simp; grind
  | true => simp; grind

theorem integer_natCast (count : Nat) : Value.integer count = .natural count := by
  unfold Value.natural
  rw [eq_comm, number_eq_integer_iff]
  exact ⟨by simp [Number.isInteger], rfl⟩

theorem isWord_eq_true_iff
    : literal.isWord = true
        ↔ ∃ n, -(wordCount 63 : Int) ≤ n ∧ n < wordCount 64 ∧ Value.number literal = .integer n := by
  simp only [number_eq_integer_iff]
  unfold Number.isWord Number.toInt
  rw [decide_eq_true_iff]
  have hpos : 0 < wordCount 64 := by decide
  cases literal.negative with
  | false => simp; grind
  | true => simp; grind

theorem IsSignedWord.lt_wordCount (h : IsSignedWord n) : n < wordCount 64 := by
  have hdouble : wordCount 64 = 2 * wordCount 63 := rfl
  have hlt := h.2
  omega

namespace Value

theorem integerIn_eq_ok_iff
    : v.integerIn low high = .ok n ↔ v = .integer n ∧ low ≤ n ∧ n ≤ high := by
  cases v with
  | number literal =>
    rw [number_eq_integer_iff]
    unfold integerIn
    dsimp only
    split
    . next h => grind
    . next h => grind
  | _ => exact iff_of_false nofun nofun

theorem word_eq_ok_iff {count : Nat}
    : v.word = .ok count ↔ v = .natural count ∧ count < wordCount 64 := by
  have hword : v.word = .ok count ↔ v.integerIn 0 (wordCount 64 - 1) = .ok (count : Int) := by
    unfold word
    cases hread : v.integerIn 0 (wordCount 64 - 1) with
    | error problem => exact iff_of_false nofun nofun
    | ok n =>
      have hnonneg := (integerIn_eq_ok_iff.mp hread).2.1
      show Except.ok n.toNat = Except.ok count ↔ Except.ok n = Except.ok (count : Int)
      rw [Except.ok.injEq, Except.ok.injEq]
      omega
  rw [hword, integerIn_eq_ok_iff, integer_natCast]
  apply and_congr_right
  omega

theorem signed_eq_ok_iff : v.signed = .ok n ↔ v = .integer n ∧ IsSignedWord n := by
  unfold signed IsSignedWord
  rw [integerIn_eq_ok_iff, Int.le_sub_one_iff]

/-! ## Other values -/

theorem bool_eq_ok_iff {on : Bool} : v.bool = .ok on ↔ v = .boolean on := by
  cases v with
  | boolean b => simp [bool]
  | _ => exact iff_of_false nofun nofun

/--
The literal of a 32-bit number. An integer literal that fits into 64 bits is rounded once; any other
one is first read as a number of 64 bits, which has to be finite.
-/
inductive IsFloat32 : Value → Float32 → Prop
  | word (n : Int) (hlow : -(wordCount 63 : Int) ≤ n) (hhigh : n < wordCount 64)
    : IsFloat32 (.integer n) (.ofInt n)
  | decimal (literal : Number) (y : Float)
      (hword : ∀ n : Int, -(wordCount 63 : Int) ≤ n → n < wordCount 64 →
        Value.number literal ≠ .integer n)
      (hfinite : literal.toFloat? = some y)
    : IsFloat32 (.number literal) (Binary32.ofFloat y)

theorem float32_number : (number literal).float32 = .ok x ↔ literal.toFloat32? = some x := by
  show literal.toFloat32?.elim _ Except.ok = .ok x ↔ _
  cases literal.toFloat32? with
  | none => exact iff_of_false nofun nofun
  | some y => rw [Option.elim_some, Except.ok.injEq, Option.some_inj]

theorem float32_eq_ok_iff : v.float32 = .ok x ↔ v.IsFloat32 x := by
  constructor
  . intro h
    cases v with
    | number literal =>
      rw [float32_number] at h
      unfold Number.toFloat32? at h
      split at h
      . next hword =>
        rcases isWord_eq_true_iff.mp hword with ⟨n, hlow, hhigh, heq⟩
        rw [(number_eq_integer_iff.mp heq).2, Option.some_inj] at h
        rw [heq, ← h]
        exact .word n hlow hhigh
      . next hword =>
        rcases Option.map_eq_some_iff.mp h with ⟨y, hy, rfl⟩
        refine .decimal literal y ?_ hy
        intro n hlow hhigh heq
        exact hword (isWord_eq_true_iff.mpr ⟨n, hlow, hhigh, heq⟩)
    | _ => contradiction
  . intro h
    cases h with
    | word n hlow hhigh =>
      refine float32_number.mpr ?_
      unfold Number.toFloat32?
      rw [if_pos (isWord_eq_true_iff.mpr ⟨n, hlow, hhigh, rfl⟩),
        (number_eq_integer_iff.mp (rfl : Value.number _ = .integer n)).2]
    | decimal literal y hword hfinite =>
      refine float32_number.mpr ?_
      unfold Number.toFloat32?
      rw [if_neg, hfinite]
      . rfl
      . intro hisWord
        rcases isWord_eq_true_iff.mp hisWord with ⟨n, hlow, hhigh, heq⟩
        exact hword n hlow hhigh heq

/-! ## Lists -/

theorem mapM_eq_ok_iff {α : Type} {read : Value → Except Problem α} {items : List Value}
    {as : List α}
    : items.mapM read = .ok as ↔ List.Forall₂ (fun item a => read item = .ok a) items as := by
  induction items generalizing as with
  | nil => simp [pure, Except.pure, eq_comm]
  | cons item items ih =>
    rw [List.mapM_cons, bind_eq_ok_iff, List.forall₂_cons_left_iff]
    constructor
    . rintro ⟨a, hitem, hrest⟩
      rcases bind_eq_ok_iff.mp hrest with ⟨rest, hmap, heq⟩
      cases heq
      exact ⟨a, rest, hitem, ih.mp hmap, rfl⟩
    . rintro ⟨a, rest, hitem, hrest, rfl⟩
      exact ⟨a, hitem, bind_eq_ok_iff.mpr ⟨rest, ih.mpr hrest, rfl⟩⟩

theorem forall₂_signed_iff {items : List Value} {ids : List Int}
    : List.Forall₂ (fun item n => item.signed = .ok n) items ids
        ↔ items = ids.map .integer ∧ ∀ id ∈ ids, IsSignedWord id := by
  simp only [signed_eq_ok_iff]
  induction ids generalizing items with
  | nil => simp
  | cons id ids ih =>
    simp only [List.forall₂_cons_right_iff, ih, List.map_cons, List.forall_mem_cons]
    constructor
    . rintro ⟨item, items, ⟨rfl, hid⟩, ⟨rfl, hids⟩, rfl⟩
      exact ⟨rfl, hid, hids⟩
    . rintro ⟨rfl, hid, hids⟩
      exact ⟨_, _, ⟨rfl, hid⟩, ⟨rfl, hids⟩, rfl⟩

theorem list_signed_eq_ok_iff {ids : List Int}
    : v.list signed = .ok ids
        ↔ v = .array (ids.map .integer) true ∧ ∀ id ∈ ids, IsSignedWord id := by
  cases v with
  | array items closed =>
    unfold list
    dsimp only
    rw [bind_eq_ok_iff]
    simp only [mapM_eq_ok_iff, forall₂_signed_iff]
    cases closed with
    | false => exact iff_of_false (by simp) nofun
    | true => simp
  | _ => exact iff_of_false nofun nofun

end Value

end TextGen.Json
