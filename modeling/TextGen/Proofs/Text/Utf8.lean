import TextGen.Text.Utf8

/-!
This module contains how the text of a byte string grows with the bytes. Where no character is left
open the string can be cut, and the texts of both parts are decoded each by itself.
-/

namespace TextGen

namespace Text

def EndsLine (s : String) : Prop := s.toList.getLast? = some '\n'

def IsWhole (s : String) : Prop := s.toList.getLast? ≠ some Utf8.replacement

instance (s : String) : Decidable (EndsLine s) := inferInstanceAs (Decidable (_ = _))

instance (s : String) : Decidable (IsWhole s) := inferInstanceAs (Decidable (_ ≠ _))

theorem EndsLine.isWhole {s : String} (h : EndsLine s) : IsWhole s := by
  unfold IsWhole
  rw [show s.toList.getLast? = some '\n' from h]
  decide

end Text

namespace Utf8

open Text

variable {pending : Option Pending} {bytes more : List UInt8} {s s' : String}

def scan (pending : Option Pending) : List UInt8 → List (Option Char) × Option Pending
  | [] => ([], pending)
  | b :: bs =>
    let (done, pending) := step pending b
    let (units, pending) := scan pending bs
    (done ++ units, pending)

def closing (pending : Option Pending) : List (Option Char) := if pending.isSome then [none] else []

theorem go_append (pending : Option Pending) (bytes more : List UInt8)
    : units.go pending (bytes ++ more)
        =
      (scan pending bytes).1 ++ units.go (scan pending bytes).2 more := by
  induction bytes generalizing pending with
  | nil => rfl
  | cons b bs ih => simp [units.go, scan, ih]

theorem units_eq (bytes : List UInt8)
    : units bytes = (scan none bytes).1 ++ closing (scan none bytes).2 := by
  have hgo := go_append none bytes []
  rw [List.append_nil] at hgo
  exact hgo

theorem units_of_closed (h : (scan none bytes).2 = none) : units bytes = (scan none bytes).1 := by
  rw [units_eq, h]
  simp [closing]

theorem units_of_open (h : (scan none bytes).2 ≠ none)
    : units bytes = (scan none bytes).1 ++ [none] := by
  rw [units_eq]
  simp [closing, Option.isSome_iff_ne_none.mpr h]

theorem units_append (h : (scan none bytes).2 = none) (more : List UInt8)
    : units (bytes ++ more) = units bytes ++ units more := by
  rw [units_of_closed h]
  unfold units
  rw [go_append, h]

/-! ## Lossy decoding -/

theorem closed_of_isWhole (h : IsWhole (decodeLossy bytes)) : (scan none bytes).2 = none := by
  apply Classical.byContradiction
  intro hopen
  apply h
  simp [decodeLossy, units_of_open hopen]

theorem decodeLossy_append (h : IsWhole (decodeLossy bytes)) (more : List UInt8)
    : decodeLossy (bytes ++ more) = decodeLossy bytes ++ decodeLossy more := by
  unfold decodeLossy
  rw [units_append (closed_of_isWhole h), List.map_append, String.ofList_append]

/-! ## Decoding of valid bytes -/

theorem mapM_id_eq_some_iff {α : Type} {items : List (Option α)} {values : List α}
    : items.mapM id = some values ↔ items = values.map some := by
  induction items generalizing values with
  | nil => cases values <;> simp
  | cons item items ih =>
    rw [List.mapM_cons]
    cases item with
    | none => cases values <;> simp
    | some first =>
      cases values with
      | nil => simp [Option.bind_eq_some_iff]
      | cons value values =>
        simp only [id_eq, Option.bind_eq_bind, Option.bind_eq_some_iff, Option.some.injEq, ih,
          Option.pure_def, List.map_cons, List.cons.injEq]
        constructor
        . rintro ⟨_, rfl, rest, rfl, rfl, rfl⟩
          exact ⟨rfl, rfl⟩
        . rintro ⟨rfl, rfl⟩
          exact ⟨_, rfl, _, rfl, rfl, rfl⟩

theorem decode?_eq_some_iff : decode? bytes = some s ↔ units bytes = s.toList.map some := by
  rw [← mapM_id_eq_some_iff, decode?]
  constructor
  . intro h
    rcases Option.map_eq_some_iff.mp h with ⟨chars, hchars, rfl⟩
    simpa using hchars
  . intro h
    simp [h]

theorem closed_of_decode? (h : decode? bytes = some s) : (scan none bytes).2 = none := by
  apply Classical.byContradiction
  intro hopen
  have hnone : none ∈ s.toList.map some := by
    rw [← decode?_eq_some_iff.mp h, units_of_open hopen]
    simp
  simp at hnone

theorem prefix_of_decode? (h : decode? bytes = some s) (h' : decode? (bytes ++ more) = some s')
    : s.toList <+: s'.toList := by
  have hunits := units_append (closed_of_decode? h) more
  rw [decode?_eq_some_iff.mp h, decode?_eq_some_iff.mp h'] at hunits
  have hprefix : s.toList.map some <+: s'.toList.map some := by
    rw [hunits]
    exact List.prefix_append _ _
  simpa using hprefix.filterMap id

theorem length_step (pending : Option Pending) (byte : UInt8)
    : 1 ≤ (step pending byte).1.length + (closing (step pending byte).2).length
        ∧ (step pending byte).1.length + (closing (step pending byte).2).length
          ≤ 1 + (closing pending).length := by
  have hstart : (start byte.toNat).1.length + (closing (start byte.toNat).2).length = 1 := by
    unfold start
    repeat' split
    all_goals rfl
  unfold step
  cases pending with
  | none => simp [hstart]
  | some p =>
    dsimp only
    split
    . split <;> simp [closing]
    . simp only [List.length_cons, closing, Option.isSome_some, if_true]
        at hstart ⊢
      omega

theorem length_closing_le_go (pending : Option Pending) (bytes : List UInt8)
    : (closing pending).length ≤ (units.go pending bytes).length := by
  induction bytes generalizing pending with
  | nil => exact Nat.le_refl _
  | cons b bs ih =>
    have hrest := ih (step pending b).2
    have hstep := length_step pending b
    have hone : (closing pending).length ≤ 1 := by
      unfold closing
      split <;> simp
    simp only [units.go, List.length_append]
    omega

theorem length_go_le (pending : Option Pending) (bytes : List UInt8)
    : (units.go pending bytes).length ≤ bytes.length + (closing pending).length := by
  induction bytes generalizing pending with
  | nil => simp [units.go, closing]
  | cons b bs ih =>
    have hrest := ih (step pending b).2
    have hstep := length_step pending b
    simp only [units.go, List.length_append, List.length_cons]
    omega

theorem length_le_of_decode? (h : decode? bytes = some s) : s.toList.length ≤ bytes.length := by
  have hlength := length_go_le none bytes
  rw [show units.go none bytes = s.toList.map some from decode?_eq_some_iff.mp h] at hlength
  simpa [closing] using hlength

theorem ne_nil_of_decode? (h : decode? bytes = some s) (hbytes : bytes ≠ []) : s.toList ≠ [] := by
  intro hempty
  have hunits := decode?_eq_some_iff.mp h
  rw [hempty] at hunits
  cases bytes with
  | nil => contradiction
  | cons b bs =>
    have hstep := length_step none b
    have hrest := length_closing_le_go (step none b).2 bs
    have hlength := congrArg List.length hunits
    simp only [units, units.go, List.length_append, List.map_nil, List.length_nil] at hlength
    omega

end Utf8

end TextGen
