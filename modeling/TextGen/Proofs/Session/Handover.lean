import TextGen.Proofs.Session.Cache

/-!
This module contains what a cache and a request promise each other when the cache changes hands. A
cache that is bound comes back as it was, also after passes that failed in between. A grown cache is
taken in all its layers or not at all.
-/

namespace TextGen

namespace Engine

structure StoresByName (e : Engine) : Prop where
  separated : e.request.Separated
  shown : ∀ name, name.isOutput = false → e.distortion.lookup name = none

variable {e e' : Engine}

theorem StoresByName.get?_input (h : e.StoresByName) {name : TensorName}
    (hname : name.isOutput = false) : e.get? name = e.request.inputs.get? name := by
  unfold get? Distortion.apply
  rw [h.shown name hname, h.separated.get?_input hname]

theorem StoresByName.remove (h : e.StoresByName) (name : TensorName)
    : (e.remove name).StoresByName where
  separated := h.separated.remove name
  shown other hother := by
    rw [lookup_distortion_remove, h.shown other hother]
    split <;> rfl

theorem StoresByName.get?_remove (h : e.StoresByName) (name : TensorName)
    : (e.remove name).get? name = none := by
  have hdistortion := lookup_distortion_remove e name name
  rw [if_pos rfl] at hdistortion
  unfold get? Distortion.apply
  rw [hdistortion]
  unfold Engine.remove Request.remove
  cases hname : name.isOutput with
  | false => simp [h.separated.outputs name hname, Request.get?]
  | true =>
    cases houtput : e.request.outputs.get? name with
    | none => simp [Request.get?, houtput]
    | some tensor => simp [Request.get?, h.separated.inputs name hname]

/-! ## Taking layers away -/

variable {key value : Nat → TensorName}

theorem get?_removeLayers_of_ne {count index : Nat} {name : TensorName}
    (hname : ∀ i < count, name ≠ key (index + i) ∧ name ≠ value (index + i))
    : (e.removeLayers key value count index).get? name = e.get? name := by
  induction count generalizing e index with
  | zero => rfl
  | succ count ih =>
    have hfirst := hname 0 (by omega)
    rw [Nat.add_zero] at hfirst
    unfold removeLayers
    rw [ih, get?_remove_of_ne _ hfirst.2, get?_remove_of_ne _ hfirst.1]
    intro i hi
    have := hname (i + 1) (by omega)
    rwa [show index + 1 + i = index + (i + 1) by omega]

theorem StoresByName.get?_removeLayers (h : e.StoresByName) (hnames : Cache.AreDistinct key value)
    {count i : Nat} (hi : i < count) (index : Nat)
    : (e.removeLayers key value count index).get? (key (index + i)) = none
        ∧ (e.removeLayers key value count index).get? (value (index + i)) = none := by
  induction count generalizing e index i with
  | zero => contradiction
  | succ count ih =>
    unfold removeLayers
    cases i with
    | zero =>
      -- The layers that are removed later have other names.
      have hkey : ∀ i < count,
          key index ≠ key (index + 1 + i) ∧ key index ≠ value (index + 1 + i) := by
        intro i _
        refine ⟨fun heq => ?_, hnames.key_ne_value _ _⟩
        have := hnames.key_inj _ _ heq
        omega
      have hvalue : ∀ i < count,
          value index ≠ key (index + 1 + i) ∧ value index ≠ value (index + 1 + i) := by
        intro i _
        refine ⟨(hnames.key_ne_value _ _).symm, fun heq => ?_⟩
        have := hnames.value_inj _ _ heq
        omega
      simp only [Nat.add_zero]
      rw [get?_removeLayers_of_ne hkey, get?_removeLayers_of_ne hvalue,
        get?_remove_of_ne _ (hnames.key_ne_value _ _)]
      exact ⟨h.get?_remove _, (h.remove _).get?_remove _⟩
    | succ i =>
      have hrest := ih ((h.remove (key index)).remove (value index)) (Nat.lt_of_succ_lt_succ hi)
        (index + 1)
      rwa [show index + 1 + i = index + (i + 1) by omega] at hrest

/-! ## Passes that fail -/

inductive FailsTo (e : Engine) : Engine → Prop
  | refl : FailsTo e e
  | pass {e' : Engine} {cancelled : Bool} {error : BackendError} (h : FailsTo e e')
      (herror : (e'.infer cancelled).result = .error error)
      (hkeeps : ∀ name,
        (e'.infer cancelled).engine.request.inputs.get? name = e'.request.inputs.get? name)
      : FailsTo e (e'.infer cancelled).engine

theorem StoresByName.infer_error (h : e.StoresByName) {cancelled : Bool} {error : BackendError}
    (herror : (e.infer cancelled).result = .error error)
    : (e.infer cancelled).engine.StoresByName := by
  rcases infer_cases e cancelled with ⟨_, keeps, _, hengine⟩ | ⟨_, _, _, _, hok, _⟩
  . rw [hengine]
    exact ⟨h.separated.keep keeps, fun _ _ => rfl⟩
  . rw [hok] at herror
    contradiction

theorem FailsTo.storesByName (h : FailsTo e e') (hstores : e.StoresByName) : e'.StoresByName := by
  induction h with
  | refl => exact hstores
  | pass _ herror _ ih => exact ih.infer_error herror

theorem FailsTo.inputs (h : FailsTo e e') (name : TensorName)
    : e'.request.inputs.get? name = e.request.inputs.get? name := by
  induction h with
  | refl => rfl
  | pass _ _ hkeeps ih => exact (hkeeps name).trans ih

end Engine

namespace Cache

variable {cache : Cache} {engine : Engine}

/-! ## Binding and reclaiming -/

theorem storesByName_bind (hstores : engine.StoresByName)
    (hlayers : cache.layerCount ≤ engine.request.model.shape.layerCount)
    : (cache.bind engine).2.2.StoresByName := by
  rw [bind_eq cache engine hlayers]
  refine ⟨⟨?_, hstores.separated.outputs⟩, hstores.shown⟩
  intro name hname
  have hpast : name.pastLayer? = none := by
    cases name <;> simp_all [TensorName.isOutput, TensorName.pastLayer?]
  rw [Bindings.get?_insertLayers_other _ _ _ hpast]
  exact hstores.separated.inputs name hname

theorem shown_bind (hlayers : cache.layerCount ≤ engine.request.model.shape.layerCount)
    {e : Engine} (hstores : e.StoresByName)
    (hinputs : ∀ name, e.request.inputs.get? name
      = (cache.bind engine).2.2.request.inputs.get? name)
    : Shown .pastKey .pastValue cache.layers 0 e := by
  intro i layer hlayer
  rw [Nat.zero_add, hstores.get?_input rfl, hstores.get?_input rfl, hinputs, hinputs,
    bind_eq cache engine hlayers]
  simp [hlayer]

/--
The cache can be bound. Taken back right away, or after passes that failed and kept the inputs, it
is what it was, and the request holds nothing of it any more.
-/
structure ComesBack (cache : Cache) (engine : Engine) : Prop where
  bind_isOk : (cache.bind engine).1 = .ok ()
  reclaim_isOk : ∀ e, (cache.bind engine).2.2.FailsTo e →
    ((cache.bind engine).2.1.reclaim e).1 = .ok ()
  reclaim_eq : ∀ e, (cache.bind engine).2.2.FailsTo e →
    ((cache.bind engine).2.1.reclaim e).2.1 = cache
  released : ∀ e, (cache.bind engine).2.2.FailsTo e → ∀ layer < cache.layerCount,
    ((cache.bind engine).2.1.reclaim e).2.2.get? (.pastKey layer) = none
      ∧ ((cache.bind engine).2.1.reclaim e).2.2.get? (.pastValue layer) = none

theorem reclaim_bind (hstores : engine.StoresByName)
    (hlayers : cache.layerCount ≤ engine.request.model.shape.layerCount) {e : Engine}
    (he : (cache.bind engine).2.2.FailsTo e)
    : (cache.bind engine).2.1.reclaim e
        =
      (.ok (), cache, e.removeLayers .pastKey .pastValue cache.layerCount 0) := by
  have hshown := shown_bind hlayers (he.storesByName (storesByName_bind hstores hlayers)) he.inputs
  have hlength : cache.reset.layers.length = cache.layers.length := by simp [reset]
  have hcache : (cache.bind engine).2.1 = cache.reset := by rw [bind_eq cache engine hlayers]
  unfold reclaim
  rw [hcache, takeLayers_of_shown areDistinct_past hlength hshown]
  rfl

theorem comesBack_of_storesByName (hstores : engine.StoresByName)
    (hlayers : cache.layerCount ≤ engine.request.model.shape.layerCount)
    : cache.ComesBack engine where
  bind_isOk := by rw [bind_eq cache engine hlayers]
  reclaim_isOk e he := by rw [reclaim_bind hstores hlayers he]
  reclaim_eq e he := by rw [reclaim_bind hstores hlayers he]
  released e he layer hlayer := by
    have hbound := he.storesByName (storesByName_bind hstores hlayers)
    have hremoved := hbound.get?_removeLayers areDistinct_past hlayer 0
    rw [Nat.zero_add] at hremoved
    rw [reclaim_bind hstores hlayers he]
    exact hremoved

/-! ## Absorbing -/

structure ShowsGrown (shape : ModelShape) (count length : Nat) (engine : Engine) : Prop where
  isSome_iff : ∀ layer ≤ count, (engine.get? (.presentKey layer)).isSome = true ↔ layer < count
  key : ∀ layer < count, ∃ grid, engine.get? (.presentKey layer) = some (.floats grid)
    ∧ grid.shape = shape.kvShape length
  value : ∀ layer < count, ∃ grid, engine.get? (.presentValue layer) = some (.floats grid)
    ∧ grid.shape = shape.kvShape length

theorem absorb_of_showsGrown {length : Nat}
    (h : ShowsGrown cache.shape cache.layerCount length engine)
    : (cache.absorb engine length).1 = .ok () := by
  have hcount := Engine.presentCount_eq_iff.mpr h.isSome_iff
  have hchecks : checkLayers engine (cache.shape.kvShape length) (List.range cache.layerCount)
      = .ok () := by
    rw [checkLayers_eq_ok_iff]
    intro layer hlayer
    rw [List.mem_range] at hlayer
    rw [checkPresent_eq_ok_iff, checkPresent_eq_ok_iff]
    exact ⟨h.key layer hlayer, h.value layer hlayer⟩
  rcases exists_grown_of_checkLayers hchecks with ⟨found, hlength, hgrown⟩
  rw [absorb_of_grown hcount hlength hgrown]

theorem Grown.showsGrown {shape : ModelShape} {length : Nat} {found : List CacheLayer}
    (h : Grown shape length found engine) (hcount : engine.presentCount = found.length)
    : ShowsGrown shape found.length length engine where
  isSome_iff := Engine.presentCount_eq_iff.mp hcount
  key layer hlayer := by
    have hshown := h.shown layer found[layer] (by simp [hlayer])
    rw [Nat.zero_add] at hshown
    exact ⟨_, hshown.1, h.keyShape _ (List.getElem_mem hlayer)⟩
  value layer hlayer := by
    have hshown := h.shown layer found[layer] (by simp [hlayer])
    rw [Nat.zero_add] at hshown
    exact ⟨_, hshown.2, h.valueShape _ (List.getElem_mem hlayer)⟩

structure IsReplaced (cache : Cache) (engine : Engine) (length : Nat) (grown : Cache)
    (after : Engine) : Prop where
  shape_eq : grown.shape = cache.shape
  layerCount_eq : grown.layerCount = cache.layerCount
  isGrown : Grown cache.shape length grown.layers engine
  taken : ∀ layer < cache.layerCount,
    after.get? (.presentKey layer) = none ∧ after.get? (.presentValue layer) = none
  kept : ∀ name, (∀ layer < cache.layerCount,
      name ≠ .presentKey layer ∧ name ≠ .presentValue layer) →
    after.get? name = engine.get? name

/--
A grown cache is absorbed exactly if it shows in all layers of the cache. If so the cache takes it
out of the request, and if not neither of them changes.
-/
structure TakesAllOrNothing (cache : Cache) (engine : Engine) (length : Nat) : Prop where
  isOk_iff : (cache.absorb engine length).1 = .ok ()
    ↔ ShowsGrown cache.shape cache.layerCount length engine
  nothing : ∀ error, (cache.absorb engine length).1 = .error error →
    (cache.absorb engine length).2 = (cache, engine)
  all : (cache.absorb engine length).1 = .ok () →
    IsReplaced cache engine length (cache.absorb engine length).2.1
      (cache.absorb engine length).2.2

theorem isReplaced_of_grown (hstores : engine.StoresByName) {length : Nat}
    {found : List CacheLayer} (hlength : found.length = cache.layerCount)
    (h : Grown cache.shape length found engine)
    : IsReplaced cache engine length { cache with layers := found }
        (engine.removeLayers .presentKey .presentValue found.length 0) where
  shape_eq := rfl
  layerCount_eq := hlength
  isGrown := h
  taken layer hlayer := by
    rw [← hlength] at hlayer
    have hremoved := hstores.get?_removeLayers areDistinct_present hlayer 0
    rwa [Nat.zero_add] at hremoved
  kept name hname := by
    apply Engine.get?_removeLayers_of_ne
    intro layer hlayer
    rw [Nat.zero_add]
    exact hname layer (hlength ▸ hlayer)

theorem takesAllOrNothing_of_storesByName (hstores : engine.StoresByName) (length : Nat)
    : cache.TakesAllOrNothing engine length := by
  rcases cache.absorb_cases engine length with
    ⟨e, _, heq⟩ | ⟨found, hcount, hlength, hgrown, heq⟩
  . constructor
    . rw [heq]
      refine iff_of_false nofun fun hshows => ?_
      have hok := absorb_of_showsGrown hshows
      rw [heq] at hok
      contradiction
    . intro _ _
      rw [heq]
    . rw [heq]
      nofun
  . constructor
    . rw [heq]
      refine iff_of_true rfl ?_
      rw [← hlength]
      exact hgrown.showsGrown (hcount.trans hlength.symm)
    . rw [heq]
      nofun
    . intro _
      rw [heq]
      exact isReplaced_of_grown hstores hlength hgrown

theorem isHandedOver_of_storesByName (hstores : engine.StoresByName)
    (hlayers : cache.layerCount ≤ engine.request.model.shape.layerCount) (length : Nat)
    : cache.ComesBack engine ∧ cache.TakesAllOrNothing engine length :=
  ⟨comesBack_of_storesByName hstores hlayers, takesAllOrNothing_of_storesByName hstores length⟩

def ofTwoLayers : Cache where
  shape := ⟨2, 1, 1, 3⟩
  layers := [⟨.replicate [1, 1, 1, 1] 2, .replicate [1, 1, 1, 1] 0⟩,
    ⟨.replicate [1, 1, 1, 1] 1, .replicate [1, 1, 1, 1] 3⟩]

def refusing : Engine :=
  .ofCompiled ⟨.ofShape ⟨2, 1, 1, 3⟩, ⟨2, 1, 1, 3⟩, .once 1 .fail, none⟩

theorem isHandedOver_of_refused_pass
    : refusing.StoresByName ∧ ofTwoLayers.layerCount ≤ refusing.request.model.shape.layerCount
        ∧ (ofTwoLayers.bind refusing).2.2.FailsTo
          ((ofTwoLayers.bind refusing).2.2.infer false).engine
        ∧ ofTwoLayers.ComesBack refusing ∧ ofTwoLayers.TakesAllOrNothing refusing 1 := by
  have hstores : refusing.StoresByName := ⟨.ofModel _, fun _ _ => rfl⟩
  have hlayers : ofTwoLayers.layerCount ≤ refusing.request.model.shape.layerCount := by decide
  refine ⟨hstores, hlayers, ?_, isHandedOver_of_storesByName hstores hlayers 1⟩
  exact .pass .refl rfl fun _ => rfl

end Cache

end TextGen
