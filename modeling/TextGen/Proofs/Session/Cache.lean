import TextGen.Proofs.Backend.Engine
import TextGen.Session.Cache

/-!
This module contains how a cache is handed over: binding lends every layer to the request and
empties the cache, taking layers back succeeds exactly when all of them are shown, and absorbing
takes either all grown layers or none.
-/

namespace TextGen

def SessionError.IsOfPass : SessionError → Prop
  | layerCountMismatch .. | backend _ => True
  | emptyPrompt | notPrefilled | contextLengthExceeded _ => False

namespace Bindings

def insertLayers : List CacheLayer → Nat → Bindings → Bindings
  | [], _, b => b
  | layer :: layers, index, b =>
    insertLayers layers (index + 1)
      ((b.insert (.pastKey index) (.floats layer.key)).insert (.pastValue index)
        (.floats layer.value))

@[simp]
theorem get?_insertLayers_pastKey (layers : List CacheLayer) (index : Nat) (b : Bindings) (i : Nat)
    : (insertLayers layers index b).get? (.pastKey i)
        =
      match entryFrom layers index i with
      | some layer => some (.floats layer.key)
      | none => b.get? (.pastKey i) := by
  induction layers generalizing index b with
  | nil => simp [insertLayers]
  | cons layer layers ih =>
    rw [insertLayers, ih, entryFrom_cons]
    by_cases hi : i = index
    . simp [hi, entryFrom_of_lt]
    . simp [hi]

@[simp]
theorem get?_insertLayers_pastValue (layers : List CacheLayer) (index : Nat) (b : Bindings)
    (i : Nat)
    : (insertLayers layers index b).get? (.pastValue i)
        =
      match entryFrom layers index i with
      | some layer => some (.floats layer.value)
      | none => b.get? (.pastValue i) := by
  induction layers generalizing index b with
  | nil => simp [insertLayers]
  | cons layer layers ih =>
    rw [insertLayers, ih, entryFrom_cons]
    by_cases hi : i = index
    . simp [hi, entryFrom_of_lt]
    . simp [hi]

theorem get?_insertLayers_other (layers : List CacheLayer) (index : Nat) (b : Bindings)
    {name : TensorName} (hname : name.pastLayer? = none)
    : (insertLayers layers index b).get? name = b.get? name := by
  have hkey (i : Nat) : name ≠ .pastKey i := by
    rintro rfl
    simp [TensorName.pastLayer?] at hname
  have hvalue (i : Nat) : name ≠ .pastValue i := by
    rintro rfl
    simp [TensorName.pastLayer?] at hname
  induction layers generalizing index b with
  | nil => rfl
  | cons layer layers ih =>
    rw [insertLayers, ih]
    simp [hkey, hvalue]

end Bindings

namespace Engine

def removeLayers (e : Engine) (key value : Nat → TensorName) (count index : Nat) : Engine :=
  match count with
  | 0 => e
  | count + 1 =>
    removeLayers ((e.remove (key index)).remove (value index)) key value count (index + 1)

structure SameRun (e e' : Engine) : Prop where
  model : e'.request.model = e.request.model
  plan : e'.plan = e.plan
  calls : e'.calls = e.calls
  separated : e.request.Separated → e'.request.Separated

theorem SameRun.refl (e : Engine) : SameRun e e := ⟨rfl, rfl, rfl, id⟩

theorem SameRun.trans {e e' e'' : Engine} (h : SameRun e e') (h' : SameRun e' e'')
    : SameRun e e'' where
  model := h'.model.trans h.model
  plan := h'.plan.trans h.plan
  calls := h'.calls.trans h.calls
  separated hseparated := h'.separated (h.separated hseparated)

theorem SameRun.remove (e : Engine) (name : TensorName) : SameRun e (e.remove name) where
  model := e.request.model_remove name
  plan := rfl
  calls := rfl
  separated hseparated := hseparated.remove name

theorem SameRun.takeFloats (e : Engine) (name : TensorName) : SameRun e (e.takeFloats name).2 := by
  unfold Engine.takeFloats take?
  cases e.get? name with
  | none => exact .refl e
  | some tensor => exact .remove e name

end Engine

namespace Cache

open Engine (SameRun)

theorem bindLayers_eq (shape : ModelShape) (layers : List CacheLayer) (index : Nat)
    (engine : Engine)
    (hlayers : index + layers.length ≤ engine.request.model.shape.layerCount)
    : bindLayers shape layers index engine
        =
      (.ok (), layers.map fun _ => emptyLayer shape,
        { engine with
          request := { engine.request with
            inputs := .insertLayers layers index engine.request.inputs } }) := by
  induction layers generalizing index engine with
  | nil => rfl
  | cons layer layers ih =>
    rw [List.length_cons] at hlayers
    have hindex : index < engine.request.model.shape.layerCount := by omega
    unfold bindLayers
    rw [Engine.set_of_isInput engine _ (TensorName.isInput_pastKey hindex)]
    dsimp only
    rw [Engine.set_of_isInput (engine.withInput _ _) _ (TensorName.isInput_pastValue hindex)]
    dsimp only
    rw [ih]
    . rfl
    . show index + 1 + layers.length ≤ engine.request.model.shape.layerCount
      omega

theorem bind_eq (cache : Cache) (engine : Engine)
    (hlayers : cache.layers.length ≤ engine.request.model.shape.layerCount)
    : cache.bind engine
        =
      (.ok (), cache.reset,
        { engine with
          request := { engine.request with
            inputs := .insertLayers cache.layers 0 engine.request.inputs } }) := by
  unfold bind
  rw [bindLayers_eq]
  . rfl
  . omega

/-! ## Taking layers out -/

structure AreDistinct (key value : Nat → TensorName) : Prop where
  key_inj : ∀ i j, key i = key j → i = j
  value_inj : ∀ i j, value i = value j → i = j
  key_ne_value : ∀ i j, key i ≠ value j

theorem areDistinct_past : AreDistinct .pastKey .pastValue := by
  constructor <;> simp

theorem areDistinct_present : AreDistinct .presentKey .presentValue := by
  constructor <;> simp

def Shown (key value : Nat → TensorName) (layers : List CacheLayer) (index : Nat)
    (engine : Engine) : Prop :=
  ∀ i layer, layers[i]? = some layer →
    engine.get? (key (index + i)) = some (.floats layer.key)
      ∧ engine.get? (value (index + i)) = some (.floats layer.value)

variable {key value : Nat → TensorName}

theorem get?_remove_layer (hnames : AreDistinct key value) (engine : Engine) {index i : Nat}
    (hi : i ≠ index)
    : ((engine.remove (key index)).remove (value index)).get? (key i) = engine.get? (key i)
        ∧ ((engine.remove (key index)).remove (value index)).get? (value i)
            =
          engine.get? (value i) := by
  constructor
  . rw [Engine.get?_remove_of_ne _ (hnames.key_ne_value i index)]
    apply Engine.get?_remove_of_ne
    intro heq
    exact hi (hnames.key_inj _ _ heq)
  . rw [Engine.get?_remove_of_ne]
    . apply Engine.get?_remove_of_ne
      exact (hnames.key_ne_value index i).symm
    . intro heq
      exact hi (hnames.value_inj _ _ heq)

theorem Shown.tail (hnames : AreDistinct key value) {layer : CacheLayer} {layers : List CacheLayer}
    {index : Nat} {engine : Engine} (h : Shown key value (layer :: layers) index engine)
    : Shown key value layers (index + 1) ((engine.remove (key index)).remove (value index)) := by
  intro i other hother
  have hindex : index + 1 + i = index + (i + 1) := by omega
  have hrest := get?_remove_layer hnames engine (show index + (i + 1) ≠ index by omega)
  rw [hindex, hrest.1, hrest.2]
  apply h (i + 1) other
  simpa using hother

theorem takeLayers_of_shown (hnames : AreDistinct key value) {found layers : List CacheLayer}
    {index : Nat} {engine : Engine} (hlength : layers.length = found.length)
    (hfound : Shown key value found index engine)
    : takeLayers key value layers index engine
        =
      (.ok (), found, engine.removeLayers key value found.length index) := by
  induction found generalizing layers index engine with
  | nil =>
    have : layers = [] := by simpa using hlength
    subst this
    rfl
  | cons layer found ih =>
    cases layers with
    | nil => simp at hlength
    | cons old layers =>
      have hhead := hfound 0 layer (by simp)
      rw [Nat.add_zero] at hhead
      have hvalue : (engine.remove (key index)).get? (value index)
          = some (.floats layer.value) := by
        rw [Engine.get?_remove_of_ne _ (hnames.key_ne_value _ _).symm]
        exact hhead.2
      unfold takeLayers
      rw [Engine.takeFloats_of_get? hhead.1]
      dsimp only
      rw [Engine.takeFloats_of_get? hvalue]
      dsimp only
      rw [ih (by simpa using hlength) (hfound.tail hnames)]
      rfl

theorem isSome_of_takeLayers (hnames : AreDistinct key value) {layers : List CacheLayer}
    {index : Nat} {engine : Engine} (h : (takeLayers key value layers index engine).1 = .ok ())
    : ∀ i < layers.length,
        (engine.get? (key (index + i))).isSome ∧ (engine.get? (value (index + i))).isSome := by
  induction layers generalizing index engine with
  | nil => simp
  | cons layer layers ih =>
    unfold takeLayers at h
    split at h
    . contradiction
    . next newKey keyEngine hkey =>
      have hshownKey := Engine.get?_of_takeFloats (congrArg Prod.fst hkey)
      have hkeyEngine : keyEngine = engine.remove (key index) := by
        rw [Engine.takeFloats_of_get? hshownKey] at hkey
        simp_all
      subst hkeyEngine
      split at h
      . contradiction
      . next newValue valueEngine hvalue =>
        have hshownValue := Engine.get?_of_takeFloats (congrArg Prod.fst hvalue)
        have hvalueEngine
            : valueEngine = (engine.remove (key index)).remove (value index) := by
          rw [Engine.takeFloats_of_get? hshownValue] at hvalue
          simp_all
        subst hvalueEngine
        -- The others were taken after the first layer had been removed, which changes none of them.
        intro i hi
        cases i with
        | zero =>
          rw [Engine.get?_remove_of_ne _ (hnames.key_ne_value _ _).symm] at hshownValue
          simp [hshownKey, hshownValue]
        | succ i =>
          have hshown := ih h i (by simpa using hi)
          have hindex : index + 1 + i = index + (i + 1) := by omega
          have hrest := get?_remove_layer hnames engine (show index + (i + 1) ≠ index by omega)
          rw [hindex, hrest.1, hrest.2] at hshown
          exact hshown

theorem takeLayers_frame (key value : Nat → TensorName) (layers : List CacheLayer) (index : Nat)
    (engine : Engine)
    : (takeLayers key value layers index engine).2.1.length = layers.length
        ∧ SameRun engine (takeLayers key value layers index engine).2.2 := by
  induction layers generalizing index engine with
  | nil => exact ⟨rfl, .refl engine⟩
  | cons layer layers ih =>
    have hkey := SameRun.takeFloats engine (key index)
    have hvalue := SameRun.takeFloats (engine.takeFloats (key index)).2 (value index)
    unfold takeLayers
    split
    . next heq =>
      rw [heq] at hkey
      exact ⟨rfl, hkey⟩
    . next heq =>
      rw [heq] at hkey hvalue
      split
      . next heq =>
        rw [heq] at hvalue
        exact ⟨rfl, hkey.trans hvalue⟩
      . next heq =>
        rw [heq] at hvalue
        have hrest := ih (index + 1) ‹Engine›
        exact ⟨by simp [hrest.1], (hkey.trans hvalue).trans hrest.2⟩

/-! ## Absorbing -/

theorem checkPresent_eq_ok_iff {engine : Engine} {expected : List Nat} {name : TensorName}
    : checkPresent engine expected name = .ok ()
        ↔
      ∃ grid, engine.get? name = some (.floats grid) ∧ grid.shape = expected := by
  unfold checkPresent Engine.floats Request.checkShape
  cases hshown : engine.get? name with
  | none => simp [Bind.bind, Except.bind]
  | some tensor =>
    cases tensor with
    | integers grid => simp [Tensor.floats?, Bind.bind, Except.bind]
    | floats grid => simp [Tensor.floats?, Bind.bind, Except.bind]

theorem checkLayers_eq_ok_iff {engine : Engine} {expected : List Nat} {layers : List Nat}
    : checkLayers engine expected layers = .ok ()
        ↔
      ∀ layer ∈ layers,
        checkPresent engine expected (.presentKey layer) = .ok ()
          ∧ checkPresent engine expected (.presentValue layer) = .ok () := by
  induction layers with
  | nil => simp [checkLayers]
  | cons layer layers ih =>
    unfold checkLayers
    rw [List.forall_mem_cons, ← ih]
    cases checkPresent engine expected (.presentKey layer) with
    | error _ => simp [Bind.bind, Except.bind]
    | ok _ =>
      cases checkPresent engine expected (.presentValue layer) with
      | error _ => simp [Bind.bind, Except.bind]
      | ok _ => simp [Bind.bind, Except.bind]

theorem exists_list_of_forall_lt {P : Nat → α → Prop} {count : Nat} (h : ∀ i < count, ∃ x, P i x)
    : ∃ xs : List α, xs.length = count ∧ ∀ i x, xs[i]? = some x → P i x := by
  induction count with
  | zero => exact ⟨[], rfl, by simp⟩
  | succ count ih =>
    rcases ih fun i hi => h i (by omega) with ⟨xs, hlength, hxs⟩
    rcases h count (by omega) with ⟨x, hx⟩
    refine ⟨xs ++ [x], by simp [hlength], ?_⟩
    intro i y hy
    rcases Nat.lt_trichotomy i count with hlt | heq | hgt
    . rw [List.getElem?_append_left (by omega)] at hy
      exact hxs i y hy
    . subst heq
      rw [List.getElem?_append_right (by omega), hlength] at hy
      simp_all
    . rw [List.getElem?_eq_none (by simp; omega)] at hy
      contradiction

structure Grown (shape : ModelShape) (length : Nat) (found : List CacheLayer) (engine : Engine)
    : Prop where
  shown : Shown .presentKey .presentValue found 0 engine
  keyShape : ∀ layer ∈ found, layer.key.shape = shape.kvShape length
  valueShape : ∀ layer ∈ found, layer.value.shape = shape.kvShape length

theorem absorb_of_grown {cache : Cache} {engine : Engine} {length : Nat} {found : List CacheLayer}
    (hcount : engine.presentCount = cache.layerCount) (hlength : found.length = cache.layerCount)
    (hfound : Grown cache.shape length found engine)
    : cache.absorb engine length
        =
      (.ok (), { cache with layers := found },
        engine.removeLayers .presentKey .presentValue found.length 0) := by
  have hchecks
      : checkLayers engine (cache.shape.kvShape length) (List.range cache.layerCount) = .ok () := by
    rw [checkLayers_eq_ok_iff]
    intro i hi
    rw [List.mem_range] at hi
    have hi : i < found.length := by omega
    have hget : found[i]? = some found[i] := by simp [hi]
    have hshown := hfound.shown i found[i] hget
    have hmem := List.getElem_mem hi
    rw [Nat.zero_add] at hshown
    rw [checkPresent_eq_ok_iff, checkPresent_eq_ok_iff]
    exact ⟨⟨_, hshown.1, hfound.keyShape _ hmem⟩, ⟨_, hshown.2, hfound.valueShape _ hmem⟩⟩
  unfold absorb
  rw [hchecks, hcount, takeLayers_of_shown areDistinct_present hlength.symm hfound.shown]
  simp only [ne_eq, not_true_eq_false, if_false]
  rfl

theorem exists_grown_of_checkLayers {shape : ModelShape} {count length : Nat} {engine : Engine}
    (hchecks : checkLayers engine (shape.kvShape length) (List.range count) = .ok ())
    : ∃ found, found.length = count ∧ Grown shape length found engine := by
  rw [checkLayers_eq_ok_iff] at hchecks
  have hlayers : ∀ i < count, ∃ layer : CacheLayer,
      (engine.get? (.presentKey i) = some (.floats layer.key)
        ∧ engine.get? (.presentValue i) = some (.floats layer.value))
        ∧ layer.key.shape = shape.kvShape length
        ∧ layer.value.shape = shape.kvShape length := by
    intro i hi
    have := hchecks i (by simpa using hi)
    rw [checkPresent_eq_ok_iff, checkPresent_eq_ok_iff] at this
    rcases this with ⟨⟨key, hkey, hkeyShape⟩, ⟨value, hvalue, hvalueShape⟩⟩
    exact ⟨⟨key, value⟩, ⟨hkey, hvalue⟩, hkeyShape, hvalueShape⟩
  rcases exists_list_of_forall_lt hlayers with ⟨found, hlength, hfound⟩
  refine ⟨found, hlength, ?_⟩
  constructor
  . intro i layer hlayer
    rw [Nat.zero_add]
    exact (hfound i layer hlayer).1
  . intro layer hmem
    rcases List.mem_iff_getElem?.mp hmem with ⟨i, hi⟩
    exact (hfound i layer hi).2.1
  . intro layer hmem
    rcases List.mem_iff_getElem?.mp hmem with ⟨i, hi⟩
    exact (hfound i layer hi).2.2

theorem absorb_cases (cache : Cache) (engine : Engine) (length : Nat)
    : (∃ e : SessionError, e.IsOfPass ∧ cache.absorb engine length = (.error e, cache, engine))
        ∨
      ∃ found, engine.presentCount = cache.layerCount
        ∧ found.length = cache.layerCount
        ∧ Grown cache.shape length found engine
        ∧ cache.absorb engine length
            =
          (.ok (), { cache with layers := found },
            engine.removeLayers .presentKey .presentValue found.length 0) := by
  by_cases hcount : engine.presentCount = cache.layerCount
  . cases hchecks : checkLayers engine (cache.shape.kvShape length)
        (List.range cache.layerCount) with
    | error e =>
      left
      exact ⟨.backend e, trivial, by simp [absorb, hcount, hchecks]⟩
    | ok _ =>
      right
      rcases exists_grown_of_checkLayers hchecks with ⟨found, hlength, hgrown⟩
      exact ⟨found, hcount, hlength, hgrown, absorb_of_grown hcount hlength hgrown⟩
  . left
    exact ⟨.layerCountMismatch cache.layerCount engine.presentCount, trivial,
      by simp [absorb, hcount]⟩

/-! ## What absorbing depends on -/

theorem checkLayers_congr {engine engine' : Engine}
    (hshown : ∀ name, name.isOutput = true → engine.get? name = engine'.get? name)
    (expected layers : List Nat)
    : checkLayers engine expected layers = checkLayers engine' expected layers := by
  induction layers with
  | nil => rfl
  | cons layer layers ih =>
    unfold checkLayers checkPresent Engine.floats
    rw [hshown _ rfl, hshown _ rfl, ih]

theorem absorb_congr {engine engine' : Engine} (cache : Cache) (length : Nat)
    (hcount : engine.presentCount = engine'.presentCount)
    (hshown : ∀ name, name.isOutput = true → engine.get? name = engine'.get? name)
    : (cache.absorb engine length).1 = (cache.absorb engine' length).1
        ∧ (cache.absorb engine length).2.1 = (cache.absorb engine' length).2.1 := by
  have hchecksEq := checkLayers_congr hshown (cache.shape.kvShape length)
    (List.range cache.layerCount)
  by_cases hall : engine.presentCount = cache.layerCount
  . cases hchecks : checkLayers engine (cache.shape.kvShape length)
        (List.range cache.layerCount) with
    | error e =>
      have hchecks' := hchecksEq.symm.trans hchecks
      simp [absorb, hall, ← hcount, hchecks, hchecks']
    | ok _ =>
      rcases exists_grown_of_checkLayers hchecks with ⟨found, hlength, hgrown⟩
      have hgrown' : Grown cache.shape length found engine' := by
        refine ⟨?_, hgrown.keyShape, hgrown.valueShape⟩
        intro i layer hlayer
        rw [← hshown _ rfl, ← hshown _ rfl]
        exact hgrown.shown i layer hlayer
      rw [absorb_of_grown hall hlength hgrown,
        absorb_of_grown (hcount.symm.trans hall) hlength hgrown']
      exact ⟨rfl, rfl⟩
  . simp [absorb, hall, ← hcount]

end Cache

namespace Engine

theorem SameRun.removeLayers (key value : Nat → TensorName) (count index : Nat) (engine : Engine)
    : SameRun engine (engine.removeLayers key value count index) := by
  induction count generalizing index engine with
  | zero => exact .refl engine
  | succ count ih =>
    unfold Engine.removeLayers
    exact ((SameRun.remove engine _).trans (.remove _ _)).trans (ih _ _)

end Engine

end TextGen
