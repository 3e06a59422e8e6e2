import TextGen.Tensor.Basic

/-!
This module contains what binding, dropping and keeping tensors does to the tensor of a name, and
the entries of a list that are counted from an index on.
-/

namespace TextGen

def entryFrom (xs : List α) (start i : Nat) : Option α :=
  if start ≤ i then xs[i - start]? else none

@[simp]
theorem entryFrom_nil (start i : Nat) : entryFrom ([] : List α) start i = none := by
  simp [entryFrom]

theorem entryFrom_cons (x : α) (xs : List α) (start i : Nat)
    : entryFrom (x :: xs) start i = if i = start then some x else entryFrom xs (start + 1) i := by
  unfold entryFrom
  rcases Nat.lt_trichotomy i start with hlt | heq | hgt
  . have hne : i ≠ start := by omega
    have hnot : ¬start ≤ i := by omega
    have hnot' : ¬start + 1 ≤ i := by omega
    simp only [hne, hnot, hnot', ↓reduceIte]
  . simp [heq]
  . have hne : i ≠ start := by omega
    have hle : start ≤ i := by omega
    have hle' : start + 1 ≤ i := by omega
    have hsub : i - start = (i - (start + 1)) + 1 := by omega
    simp only [hne, hle, hle', hsub, ↓reduceIte, List.getElem?_cons_succ]

theorem entryFrom_of_lt (xs : List α) {start i : Nat} (h : i < start)
    : entryFrom xs start i = none := by
  have : ¬start ≤ i := by omega
  simp [entryFrom, this]

@[simp]
theorem entryFrom_zero (xs : List α) (i : Nat) : entryFrom xs 0 i = xs[i]? := by
  simp [entryFrom]

theorem lookup_cons_name {β : Type} (other : TensorName) (value : β)
    (entries : List (TensorName × β)) (name : TensorName)
    : ((other, value) :: entries).lookup name
        =
      if name = other then some value else entries.lookup name := by
  by_cases hname : name = other
  . simp [hname]
  . have : (name == other) = false := by simpa using hname
    simp [List.lookup_cons, hname, this]

theorem lookup_filter {β : Type} (keeps : TensorName → Bool) (entries : List (TensorName × β))
    (name : TensorName)
    : (entries.filter fun entry => keeps entry.1).lookup name
        =
      if keeps name then entries.lookup name else none := by
  induction entries with
  | nil => simp
  | cons entry entries ih =>
    rcases entry with ⟨other, value⟩
    by_cases hname : name = other
    . subst hname
      by_cases hkeeps : keeps name
      . simp [hkeeps]
      . simp [hkeeps, ih]
    . by_cases hkeeps : keeps other
      . simp [hkeeps, lookup_cons_name, hname, ih]
      . simp [hkeeps, lookup_cons_name, hname, ih]

namespace Bindings

@[simp]
theorem get?_keep (b : Bindings) (keeps : TensorName → Bool) (name : TensorName)
    : (b.keep keeps).get? name = if keeps name then b.get? name else none := by
  apply lookup_filter

@[simp]
theorem get?_erase (b : Bindings) (other name : TensorName)
    : (b.erase other).get? name = if name = other then none else b.get? name := by
  have := lookup_filter (fun name => decide (name ≠ other)) b.entries name
  by_cases hname : name = other
  . simpa [get?, erase, hname] using this
  . simpa [get?, erase, hname] using this

@[simp]
theorem get?_insert (b : Bindings) (other : TensorName) (tensor : Tensor) (name : TensorName)
    : (b.insert other tensor).get? name = if name = other then some tensor else b.get? name := by
  by_cases hname : name = other
  . simp [get?, insert, hname]
  . have herase := get?_erase b other name
    simp only [get?, hname, ↓reduceIte] at herase
    simp [get?, insert, lookup_cons_name, hname, herase]

@[simp]
theorem keep_true (b : Bindings) : (b.keep fun _ => true) = b := by
  unfold keep
  congr
  exact List.filter_eq_self.mpr (by simp)

end Bindings

end TextGen
