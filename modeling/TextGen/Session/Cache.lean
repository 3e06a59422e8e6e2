import TextGen.Backend.Engine
import TextGen.Session.Error

/-!
The cache of a session: a key and a value for every layer. Before a forward pass the cache is bound
to the request, which keeps it until the grown cache is absorbed or the bound one is reclaimed.
-/

namespace TextGen

structure CacheLayer where
  key : Grid Float32
  value : Grid Float32
  deriving DecidableEq

structure Cache where
  shape : ModelShape
  layers : List CacheLayer
  deriving DecidableEq

namespace Cache

def emptyLayer (shape : ModelShape) : CacheLayer :=
  let empty : Grid Float32 := .replicate (shape.kvShape 0) 0
  ⟨empty, empty⟩

def ofShape (shape : ModelShape) : Cache :=
  ⟨shape, List.replicate shape.layerCount (emptyLayer shape)⟩

def layerCount (cache : Cache) : Nat := cache.layers.length

def length (cache : Cache) : Nat := (cache.layers.head?.map fun layer => layer.key.extent 2).getD 0

def reset (cache : Cache) : Cache :=
  { cache with layers := cache.layers.map fun _ => emptyLayer cache.shape }

def bindLayers (shape : ModelShape) :
    List CacheLayer → Nat → Engine → Except BackendError Unit × List CacheLayer × Engine
  | [], _, engine => (.ok (), [], engine)
  | layer :: layers, index, engine =>
    match engine.set (.pastKey index) (.floats layer.key) with
    | .error e => (.error e, emptyLayer shape :: layers, engine)
    | .ok engine =>
      match engine.set (.pastValue index) (.floats layer.value) with
      | .error e => (.error e, emptyLayer shape :: layers, engine)
      | .ok engine =>
        let (result, layers, engine) := bindLayers shape layers (index + 1) engine
        (result, emptyLayer shape :: layers, engine)

def bind (cache : Cache) (engine : Engine) : Except BackendError Unit × Cache × Engine :=
  let (result, layers, engine) := bindLayers cache.shape cache.layers 0 engine
  (result, { cache with layers }, engine)

def takeLayers (key value : Nat → TensorName) :
    List CacheLayer → Nat → Engine → Except BackendError Unit × List CacheLayer × Engine
  | [], _, engine => (.ok (), [], engine)
  | layer :: layers, index, engine =>
    match engine.takeFloats (key index) with
    | (.error e, engine) => (.error e, layer :: layers, engine)
    | (.ok newKey, engine) =>
      match engine.takeFloats (value index) with
      | (.error e, engine) => (.error e, { layer with key := newKey } :: layers, engine)
      | (.ok newValue, engine) =>
        let (result, layers, engine) := takeLayers key value layers (index + 1) engine
        (result, ⟨newKey, newValue⟩ :: layers, engine)

def reclaim (cache : Cache) (engine : Engine) : Except BackendError Unit × Cache × Engine :=
  let (result, layers, engine) := takeLayers .pastKey .pastValue cache.layers 0 engine
  (result, { cache with layers }, engine)

def checkPresent (engine : Engine) (expected : List Nat) (name : TensorName) :
    Except BackendError Unit := do
  Request.checkShape name expected (← engine.floats name).shape

def checkLayers (engine : Engine) (expected : List Nat) : List Nat → Except BackendError Unit
  | [] => .ok ()
  | layer :: layers => do
    checkPresent engine expected (.presentKey layer)
    checkPresent engine expected (.presentValue layer)
    checkLayers engine expected layers

def absorb (cache : Cache) (engine : Engine) (length : Nat) :
    Except SessionError Unit × Cache × Engine :=
  if engine.presentCount ≠ cache.layerCount then
    (.error (.layerCountMismatch cache.layerCount engine.presentCount), cache, engine)
  else
    match checkLayers engine (cache.shape.kvShape length) (List.range cache.layerCount) with
    | .error e => (.error (.backend e), cache, engine)
    | .ok () =>
      let (result, layers, engine) := takeLayers .presentKey .presentValue cache.layers 0 engine
      (result.mapError .backend, { cache with layers }, engine)

end Cache

end TextGen
