import Mathlib.Data.List.Nodup
import Mathlib.Data.List.Perm.Subperm
import Mathlib.Data.Nat.Find
import TextGen.Backend.Engine
import TextGen.Proofs.Backend.Outputs

/-!
This module contains what an engine shows of its request, and what a forward pass can do to it. A
fault is detectable if what it shows in place of an output is missing, of integers or of another
shape.
-/

namespace TextGen

def Tensor.IsMalformed (tensor : Option Tensor) : Option Tensor → Prop
  | some (.floats grid) => tensor.map shape ≠ some grid.shape
  | _ => True

namespace Distortion

/--
Only outputs are shown otherwise than they are, and what is shown in their place is malformed.
-/
def IsDetectable (distortion : Distortion) : Prop :=
  ∀ name change, (name, change) ∈ distortion →
    name.isOutput = true ∧ ∀ tensor, Tensor.IsMalformed tensor (change tensor)

theorem isDetectable_nil : IsDetectable [] := by
  intro name change h
  simp at h

theorem isDetectable_singleton {name : TensorName} {change : Option Tensor → Option Tensor}
    (hname : name.isOutput = true) (hchange : ∀ tensor, Tensor.IsMalformed tensor (change tensor))
    : IsDetectable [(name, change)] := by
  intro other change' h
  simp only [List.mem_singleton, Prod.mk.injEq] at h
  rcases h with ⟨rfl, rfl⟩
  exact ⟨hname, hchange⟩

theorem mem_of_lookup_eq_some {β : Type} {entries : List (TensorName × β)} {name : TensorName}
    {value : β} (h : entries.lookup name = some value) : (name, value) ∈ entries := by
  induction entries with
  | nil => simp at h
  | cons entry entries ih =>
    rcases entry with ⟨other, change⟩
    rw [lookup_cons_name] at h
    split at h
    . next hname =>
      simp_all
    . simp [ih h]

theorem apply_nil (name : TensorName) (tensor : Option Tensor)
    : apply [] name tensor = tensor := rfl

theorem apply_input {distortion : Distortion} (h : distortion.IsDetectable) {name : TensorName}
    (hname : name.isOutput = false) (tensor : Option Tensor)
    : distortion.apply name tensor = tensor := by
  unfold apply
  split
  . next change hlookup =>
    have := (h name change (mem_of_lookup_eq_some hlookup)).1
    simp_all
  . rfl

theorem apply_eq_or_isMalformed {distortion : Distortion} (h : distortion.IsDetectable)
    (name : TensorName) (tensor : Option Tensor)
    : distortion.apply name tensor = tensor
        ∨ Tensor.IsMalformed tensor (distortion.apply name tensor) := by
  unfold apply
  split
  . next change hlookup =>
    right
    exact (h name change (mem_of_lookup_eq_some hlookup)).2 tensor
  . left
    rfl

theorem apply_filter_of_ne (distortion : Distortion) {other name : TensorName}
    (hname : name ≠ other) (tensor : Option Tensor)
    : apply (distortion.filter fun entry => decide (entry.1 ≠ other)) name tensor
        =
      distortion.apply name tensor := by
  unfold apply
  rw [lookup_filter (fun name => decide (name ≠ other))]
  simp [hname]

end Distortion

def FaultPlan.IsDetectable (plan : FaultPlan) : Prop :=
  ∀ call changes, plan call = some (.disguise changes) → changes.IsDetectable

theorem FaultPlan.isDetectable_none : FaultPlan.none.IsDetectable := by
  intro call changes h
  contradiction

def FaultPlan.once (call : Nat) (fault : Fault) : FaultPlan := fun other =>
  if other = call then some fault else .none

theorem FaultPlan.isDetectable_once {call : Nat} {fault : Fault}
    (h : ∀ changes, fault = .disguise changes → changes.IsDetectable)
    : (once call fault).IsDetectable := by
  intro other changes hchanges
  unfold once at hchanges
  split at hchanges
  . apply h
    simpa using hchanges
  . contradiction

namespace Request

theorem get?_remove_of_ne (r : Request) {other name : TensorName} (hname : name ≠ other)
    : (r.remove other).get? name = r.get? name := by
  unfold remove get?
  split <;> simp [hname]

theorem Separated.remove {r : Request} (h : r.Separated) (other : TensorName)
    : (r.remove other).Separated := by
  unfold Request.remove
  split
  . constructor
    . exact h.inputs
    . intro name hname
      simp [h.outputs name hname]
  . constructor
    . intro name hname
      simp [h.inputs name hname]
    . exact h.outputs

@[simp]
theorem keep_true (r : Request) : (r.keep fun _ => true) = r := by
  simp [keep]

@[simp]
theorem model_remove (r : Request) (name : TensorName) : (r.remove name).model = r.model := by
  unfold remove
  split <;> rfl

end Request

namespace Engine

theorem get?_remove_of_ne (e : Engine) {other name : TensorName} (hname : name ≠ other)
    : (e.remove other).get? name = e.get? name := by
  unfold get? remove
  dsimp only
  rw [Distortion.apply_filter_of_ne _ hname, Request.get?_remove_of_ne _ hname]

theorem lookup_distortion_remove (e : Engine) (name other : TensorName)
    : (e.remove name).distortion.lookup other
        =
      if other = name then none else e.distortion.lookup other := by
  unfold remove
  dsimp only
  rw [lookup_filter fun other => decide (other ≠ name)]
  by_cases heq : other = name <;> simp [heq]

theorem get?_eq_of_shape {e : Engine} (hdistortion : e.distortion.IsDetectable) {name : TensorName}
    {grid : Grid Float32} {tensor : Tensor} (hshown : e.get? name = some (.floats grid))
    (htensor : e.request.get? name = some tensor) (hshape : grid.shape = tensor.shape)
    : tensor = .floats grid := by
  unfold get? at hshown
  rcases Distortion.apply_eq_or_isMalformed hdistortion name (e.request.get? name) with heq | hmal
  . simp_all
  . rw [hshown, htensor] at hmal
    simp [Tensor.IsMalformed, hshape] at hmal

theorem get?_input {e : Engine} (hdistortion : e.distortion.IsDetectable)
    (hseparated : e.request.Separated) {name : TensorName} (hname : name.isOutput = false)
    : e.get? name = e.request.inputs.get? name := by
  unfold get?
  rw [Distortion.apply_input hdistortion hname, hseparated.get?_input hname]

theorem takeFloats_of_get? {e : Engine} {name : TensorName} {grid : Grid Float32}
    (h : e.get? name = some (.floats grid)) : e.takeFloats name = (.ok grid, e.remove name) := by
  simp [takeFloats, take?, h, Tensor.floats?]

theorem get?_of_takeFloats {e : Engine} {name : TensorName} {grid : Grid Float32}
    (h : (e.takeFloats name).1 = .ok grid) : e.get? name = some (.floats grid) := by
  unfold takeFloats take? at h
  cases hshown : e.get? name with
  | none => simp [hshown] at h
  | some tensor =>
    cases tensor with
    | integers other => simp [hshown, Tensor.floats?] at h
    | floats other =>
      have : other = grid := by simpa [hshown, Tensor.floats?] using h
      rw [this]

def withInput (e : Engine) (name : TensorName) (tensor : Tensor) : Engine :=
  { e with request := { e.request with inputs := e.request.inputs.insert name tensor } }

theorem set_of_isInput (e : Engine) {name : TensorName} (tensor : Tensor)
    (h : name.IsInput e.request.model.shape.layerCount)
    : e.set name tensor = .ok (e.withInput name tensor) := by
  unfold set
  rw [Request.set_of_isInput tensor h]
  rfl

/-! ## Forward passes -/

theorem run_eq (e : Engine) (flag : Bool)
    : e.run flag
        =
      match e.request.compute flag with
      | .error error => ⟨.error error, e, flag⟩
      | .ok outputs => ⟨.ok (), { e with request := { e.request with outputs } }, flag⟩ := by
  unfold run Request.infer
  cases e.request.compute flag with
  | error error => rfl
  | ok outputs => rfl

/--
What a forward pass leaves of an engine. A pass that fails may lose tensors. A pass that succeeds
has computed the outputs, and may lose tensors or show others in place of some outputs.
-/
theorem infer_cases (e : Engine) (cancelled : Bool)
    : (∃ error keeps, (e.infer cancelled).result = .error error
        ∧ (e.infer cancelled).engine
            =
          { e with request := e.request.keep keeps, calls := e.calls + 1, distortion := [] })
        ∨
      ∃ flag outputs keeps changes, (e.infer cancelled).result = .ok ()
        ∧ e.request.compute flag = .ok outputs
        ∧ (e.infer cancelled).engine
            =
          { e with
            request := ({ e.request with outputs } : Request).keep keeps
            calls := e.calls + 1
            distortion := changes }
        ∧ (changes = []
          ∨ keeps = (fun _ => true) ∧ e.plan (e.calls + 1) = some (.disguise changes)) := by
  unfold infer
  simp only [run_eq]
  cases hplan : e.plan (e.calls + 1) with
  | none =>
    cases hcompute : e.request.compute cancelled with
    | error error => exact .inl ⟨error, fun _ => true, rfl, by simp⟩
    | ok outputs =>
      exact .inr ⟨_, outputs, fun _ => true, [], rfl, hcompute, by simp, .inl rfl⟩
  | some fault =>
    cases fault with
    | refuse error keeps => exact .inl ⟨error, keeps, rfl, rfl⟩
    | raiseFlag =>
      cases hcompute : e.request.compute true with
      | error error => exact .inl ⟨error, fun _ => true, rfl, by simp⟩
      | ok outputs =>
        exact .inr ⟨true, outputs, fun _ => true, [], rfl, hcompute, by simp, .inl rfl⟩
    | lose keeps =>
      cases hcompute : e.request.compute cancelled with
      | error error => exact .inl ⟨error, fun _ => true, rfl, by simp⟩
      | ok outputs => exact .inr ⟨_, outputs, keeps, [], rfl, hcompute, rfl, .inl rfl⟩
    | disguise changes =>
      cases hcompute : e.request.compute cancelled with
      | error error => exact .inl ⟨error, fun _ => true, rfl, by simp⟩
      | ok outputs =>
        exact .inr ⟨_, outputs, fun _ => true, changes, rfl, hcompute, by simp, .inr ⟨rfl, rfl⟩⟩

theorem infer_of_plan_eq_none {e : Engine} (cancelled : Bool) (h : e.plan (e.calls + 1) = none)
    : e.infer cancelled
        =
      match e.request.compute cancelled with
      | .error error =>
        ⟨.error error, { e with calls := e.calls + 1, distortion := [] }, cancelled⟩
      | .ok outputs =>
        ⟨.ok (), { e with
          request := ({ e.request with outputs } : Request)
          calls := e.calls + 1
          distortion := [] }, cancelled⟩ := by
  unfold infer
  simp only [h, run_eq]

structure PassedFrom (e' e : Engine) : Prop where
  model : e'.request.model = e.request.model
  plan : e'.plan = e.plan
  calls : e'.calls = e.calls + 1
  separated : e'.request.Separated
  distortion : e'.distortion.IsDetectable
  inputs : ∀ name, e'.request.inputs.get? name = e.request.inputs.get? name
    ∨ e'.request.inputs.get? name = none

theorem passedFrom_infer {e : Engine} (hplan : e.plan.IsDetectable)
    (hseparated : e.request.Separated) (cancelled : Bool)
    : PassedFrom (e.infer cancelled).engine e := by
  have hkeep (b : Bindings) (keeps : TensorName → Bool) (name : TensorName)
      : (b.keep keeps).get? name = b.get? name ∨ (b.keep keeps).get? name = none := by
    rw [Bindings.get?_keep]
    split
    . exact .inl rfl
    . exact .inr rfl
  rcases infer_cases e cancelled with
    ⟨_, keeps, _, hengine⟩ | ⟨_, _, keeps, changes, _, hcompute, hengine, hchanges⟩
  . rw [hengine]
    exact ⟨rfl, rfl, rfl, hseparated.keep keeps, Distortion.isDetectable_nil, hkeep _ keeps⟩
  . have hdistortion : changes.IsDetectable := by
      rcases hchanges with rfl | ⟨_, hfault⟩
      . exact Distortion.isDetectable_nil
      . exact hplan _ _ hfault
    rw [hengine]
    exact ⟨rfl, rfl, rfl, (hseparated.infer hcompute).keep keeps, hdistortion, hkeep _ keeps⟩

theorem infer_shows {e : Engine} {cancelled : Bool} (hplan : e.plan.IsDetectable)
    (hseparated : e.request.Separated) (h : (e.infer cancelled).result = .ok ())
    : ∃ flag outputs, e.request.compute flag = .ok outputs
        ∧ ∀ name grid tensor, name.isOutput = true →
          (e.infer cancelled).engine.get? name = some (.floats grid) →
          outputs.get? name = some tensor → grid.shape = tensor.shape → tensor = .floats grid := by
  rcases infer_cases e cancelled with
    ⟨_, _, herror, _⟩ | ⟨flag, outputs, keeps, changes, _, hcompute, hengine, hchanges⟩
  . rw [herror] at h
    contradiction
  . refine ⟨flag, outputs, hcompute, ?_⟩
    intro name grid tensor hname hshown houtput hshape
    have hkept := (hseparated.infer hcompute).keep keeps
    have hget : (({ e.request with outputs } : Request).keep keeps).get? name
        = if keeps name then some tensor else none := by
      rw [hkept.get?_output hname, Request.keep, Bindings.get?_keep, houtput]
    rw [hengine] at hshown
    -- No fault both drops tensors and shows others in their place.
    rcases hchanges with rfl | ⟨rfl, hfault⟩
    . unfold get? at hshown
      rw [Distortion.apply_nil, hget] at hshown
      split at hshown
      . simpa using hshown
      . contradiction
    . exact get?_eq_of_shape (hplan _ _ hfault) hshown hget hshape

/-! ## Counting the layers -/

theorem length_takeWhile_range {p : Nat → Bool} {count bound : Nat} (hcount : count < bound)
    (hbelow : ∀ i < count, p i = true) (hgap : p count = false)
    : ((List.range bound).takeWhile p).length = count := by
  have hsplit : bound = count + ((bound - count - 1) + 1) := by omega
  rw [hsplit, List.range_add, List.takeWhile_append_of_pos]
  . simp [List.range_succ_eq_map, hgap]
  . intro i hi
    apply hbelow
    simpa using hi

def names (e : Engine) : List TensorName :=
  e.request.outputs.entries.map Prod.fst ++ e.request.inputs.entries.map Prod.fst
    ++ e.distortion.map Prod.fst

theorem mem_names_of_get? {e : Engine} {name : TensorName} (h : (e.get? name).isSome = true)
    : name ∈ e.names := by
  unfold names
  rw [List.mem_append, List.mem_append]
  unfold get? Distortion.apply at h
  cases hchange : e.distortion.lookup name with
  | some change =>
    right
    exact List.mem_map_of_mem (f := Prod.fst) (Distortion.mem_of_lookup_eq_some hchange)
  | none =>
    left
    rw [hchange] at h
    dsimp only at h
    rcases Option.isSome_iff_exists.mp h with ⟨tensor, htensor⟩
    unfold Request.get? at htensor
    rw [Option.orElse_eq_orElse, Option.orElse_eq_or] at htensor
    rcases Option.or_eq_some_iff.mp htensor with houtput | ⟨_, hinput⟩
    . left
      exact List.mem_map_of_mem (f := Prod.fst) (Distortion.mem_of_lookup_eq_some houtput)
    . right
      exact List.mem_map_of_mem (f := Prod.fst) (Distortion.mem_of_lookup_eq_some hinput)

theorem le_length_names {e : Engine} {count : Nat}
    (hbelow : ∀ layer < count, (e.get? (.presentKey layer)).isSome = true)
    : count ≤ e.names.length := by
  -- No more layers can show than there are tensors, so that the search for a gap ends at one.
  have hnodup : ((List.range count).map TensorName.presentKey).Nodup := by
    apply List.Nodup.map _ List.nodup_range
    intro i j hij
    simpa using hij
  have hsubset : (List.range count).map TensorName.presentKey ⊆ e.names := by
    intro name hname
    rcases List.mem_map.mp hname with ⟨layer, hlayer, rfl⟩
    exact mem_names_of_get? (hbelow layer (List.mem_range.mp hlayer))
  have hlength := (List.subperm_of_subset hnodup hsubset).length_le
  simpa using hlength

theorem presentCount_eq {e : Engine} {count : Nat}
    (hbelow : ∀ layer < count, (e.get? (.presentKey layer)).isSome = true)
    (hgap : e.get? (.presentKey count) = none)
    : e.presentCount = count := by
  have hnames := le_length_names hbelow
  have hlength : e.names.length = e.request.outputs.entries.length
      + e.request.inputs.entries.length + e.distortion.length := by
    simp [names, Nat.add_assoc]
  unfold presentCount
  apply length_takeWhile_range
  . omega
  . exact hbelow
  . simp [hgap]

theorem presentCount_eq_iff {e : Engine} {count : Nat}
    : e.presentCount = count
        ↔
      ∀ layer ≤ count, (e.get? (.presentKey layer)).isSome = true ↔ layer < count := by
  constructor
  . rintro rfl layer hlayer
    have hgap : ∃ gap, e.get? (.presentKey gap) = none := by
      by_contra hnone
      have hshown : ∀ layer < e.names.length + 1, (e.get? (.presentKey layer)).isSome = true := by
        intro layer _
        exact Option.isSome_iff_ne_none.mpr fun heq => hnone ⟨layer, heq⟩
      have := le_length_names hshown
      omega
    have hbelow : ∀ layer < Nat.find hgap, (e.get? (.presentKey layer)).isSome = true := by
      intro layer hlt
      exact Option.isSome_iff_ne_none.mpr (Nat.find_min hgap hlt)
    rw [presentCount_eq hbelow (Nat.find_spec hgap)] at hlayer ⊢
    constructor
    . intro hshown
      apply Nat.lt_of_le_of_ne hlayer
      rintro rfl
      rw [Nat.find_spec hgap] at hshown
      contradiction
    . exact hbelow layer
  . intro h
    apply presentCount_eq
    . exact fun layer hlayer => (h layer (by omega)).mpr hlayer
    . rw [← Option.not_isSome_iff_eq_none, h count (Nat.le_refl _)]
      exact Nat.lt_irrefl count

theorem presentCount_of_compute {e : Engine} {r : Request} {cancelled : Bool}
    (hcompute : r.compute cancelled = .ok e.request.outputs) (hseparated : e.request.Separated)
    (hdistortion : e.distortion = [])
    : e.presentCount = r.model.shape.layerCount := by
  rcases Request.exists_outputsOf_of_compute hcompute with
    ⟨past, inputLength, tokens, layers, hlength, houtputs⟩
  have hget (layer : Nat) : e.get? (.presentKey layer)
      = (Request.growLayers r.model.shape past tokens layers)[layer]?.map
        fun present => .floats present.1 := by
    unfold get?
    rw [hdistortion, Distortion.apply_nil, hseparated.get?_output rfl, houtputs,
      Request.get?_outputsOf_presentKey]
  have hpresents : (Request.growLayers r.model.shape past tokens layers).length
      = r.model.shape.layerCount := by
    simp [Request.growLayers, hlength]
  apply presentCount_eq
  . intro layer hlayer
    rw [← hpresents] at hlayer
    simp [hget, hlayer]
  . rw [hget, List.getElem?_eq_none]
    . rfl
    . exact Nat.le_of_eq hpresents

end Engine

end TextGen
