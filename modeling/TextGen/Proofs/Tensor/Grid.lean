import TextGen.Tensor.Grid

/-!
This module contains the theory of the places of a grid: the entry of a grid that was built from a
function is the value of that function at every place within the shape, and grids are equal if their
entries are.
-/

namespace TextGen

@[simp]
theorem mem_places_nil {place : List Nat} : place ∈ places [] ↔ place = [] := by
  simp [places]

@[simp]
theorem mem_places_cons {n i : Nat} {ns is : List Nat} :
    i :: is ∈ places (n :: ns) ↔ i < n ∧ is ∈ places ns := by
  simp [places]

theorem exists_of_mem_places_cons {n : Nat} {ns place : List Nat}
    (h : place ∈ places (n :: ns)) :
    ∃ i is, place = i :: is ∧ i < n ∧ is ∈ places ns := by
  simp only [places, List.mem_flatMap, List.mem_range, List.mem_map] at h
  rcases h with ⟨i, hi, is, his, rfl⟩
  exact ⟨i, is, rfl, hi, his⟩

theorem getElem?_flatMap_of_length {xs : List α} {f : α → List β} {m : Nat}
    (hf : ∀ x ∈ xs, (f x).length = m) (i : Nat) {j : Nat} (hj : j < m)
    : (xs.flatMap f)[i * m + j]? = xs[i]?.bind fun x => (f x)[j]? := by
  induction xs generalizing i with
  | nil => simp
  | cons x xs ih =>
    have hx : (f x).length = m := hf x (by simp)
    rw [List.flatMap_cons]
    cases i with
    | zero =>
      rw [List.getElem?_append_left]
      . simp
      . omega
    | succ i =>
      have hindex : (i + 1) * m + j - (f x).length = i * m + j := by
        rw [hx, Nat.add_mul]
        omega
      rw [List.getElem?_append_right, hindex, ih]
      . simp
      . intro y hy
        apply hf
        simp [hy]
      . rw [hx, Nat.add_mul]
        omega

theorem getElem?_places {shape place : List Nat} (h : place ∈ places shape)
    : ∃ i, position? shape place = some i ∧ (places shape)[i]? = some place := by
  induction shape generalizing place with
  | nil =>
    have : place = [] := by simpa using h
    subst this
    exact ⟨0, rfl, rfl⟩
  | cons n ns ih =>
    rcases exists_of_mem_places_cons h with ⟨i, is, rfl, hi, his⟩
    rcases ih his with ⟨j, hposition, hplace⟩
    have hj : j < volume ns := by
      rw [← length_places]
      rcases List.getElem?_eq_some_iff.mp hplace with ⟨hj, _⟩
      exact hj
    refine ⟨i * volume ns + j, ?_, ?_⟩
    . simp [position?, hi, hposition]
    . unfold places
      rw [getElem?_flatMap_of_length]
      . simp [hi, hplace]
      . intro _ _
        rw [List.length_map, length_places]
      . exact hj

namespace Grid

variable {α : Type}

theorem get?_ofFn (f : List Nat → α) {shape place : List Nat} (h : place ∈ places shape)
    : (ofFn shape f).get? place = some (f place) := by
  rcases getElem?_places h with ⟨i, hposition, hplace⟩
  simp [get?, ofFn, hposition, hplace]

theorem getD_ofFn (f : List Nat → α) (value : α) {shape place : List Nat}
    (h : place ∈ places shape)
    : (ofFn shape f).getD place value = f place := by
  simp [getD, get?_ofFn f h]

theorem ofFn_congr {f g : List Nat → α} {shape : List Nat}
    (h : ∀ place ∈ places shape, f place = g place)
    : ofFn shape f = ofFn shape g := by
  unfold ofFn
  congr 2
  exact List.map_congr_left h

theorem eq_of_volume_eq_zero {g g' : Grid α} (hshape : g.shape = g'.shape)
    (hvolume : volume g.shape = 0) : g = g' := by
  rcases g with ⟨shape, entries, hsize⟩
  rcases g' with ⟨shape', entries', hsize'⟩
  dsimp at hshape hvolume
  subst hshape
  have : entries = #[] := by
    apply Array.eq_empty_of_size_eq_zero
    omega
  have : entries' = #[] := by
    apply Array.eq_empty_of_size_eq_zero
    omega
  simp_all

@[simp]
theorem shape_row (values : List α) : (row values).shape = [1, values.length] := rfl

@[simp]
theorem toList_row (values : List α) : (row values).toList = values := rfl

@[simp]
theorem extent_row (values : List α) : (row values).extent 1 = values.length := rfl

end Grid

end TextGen
