import TextGen.Backend.Request

/-!
Engines: requests whose forward passes may go wrong. A plan says at which calls something happens,
and what. The engine of a plan without faults behaves as its request.
-/

namespace TextGen

abbrev Distortion := List (TensorName × (Option Tensor → Option Tensor))

def Distortion.apply (distortion : Distortion) (name : TensorName) (tensor : Option Tensor) :
    Option Tensor :=
  match distortion.lookup name with
  | some change => change tensor
  | none => tensor

inductive Fault
  -- The pass fails without running, and the request keeps some of its tensors only.
  | refuse (error : BackendError) (keeps : TensorName → Bool)
  -- The cancellation flag is raised before the pass runs.
  | raiseFlag
  -- After a pass that succeeds, the request keeps some of its tensors only.
  | lose (keeps : TensorName → Bool)
  -- A pass that succeeds shows other tensors, or none, in place of its own.
  | disguise (changes : Distortion)

namespace Fault

def fail : Fault := refuse (.invalidInput .scripted) fun _ => true

def cancel : Fault := refuse .cancelled fun _ => true

def loseInputs : Fault := refuse (.invalidInput .scripted) fun _ => false

def loseAll : Fault := lose fun _ => false

def distort (name : TensorName) (change : Option Tensor → Option Tensor) : Fault :=
  disguise [(name, change)]

end Fault

/--
The fault at each call of the backend: the request is created at call zero, and its forward passes
follow. A request that is refused is not created, and no other fault matters at call zero.
-/
abbrev FaultPlan := Nat → Option Fault

def FaultPlan.none : FaultPlan := fun _ => .none

structure CompiledModel where
  model : BigramModel
  reported : ModelShape
  plan : FaultPlan
  threadCount : Option Nat

def BigramModel.compile (model : BigramModel) (threadCount : Option Nat) : CompiledModel :=
  ⟨model, model.shape, .none, threadCount⟩

structure Engine where
  request : Request
  plan : FaultPlan
  calls : Nat
  distortion : Distortion

namespace Engine

def ofCompiled (compiled : CompiledModel) : Engine :=
  ⟨.ofModel compiled.model, compiled.plan, 0, []⟩

def set (e : Engine) (name : TensorName) (tensor : Tensor) : Except BackendError Engine :=
  (e.request.set name tensor).map fun request => { e with request }

def get? (e : Engine) (name : TensorName) : Option Tensor :=
  e.distortion.apply name (e.request.get? name)

def remove (e : Engine) (name : TensorName) : Engine :=
  { e with
    request := e.request.remove name
    distortion := e.distortion.filter fun entry => decide (entry.1 ≠ name) }

def take? (e : Engine) (name : TensorName) : Option (Tensor × Engine) :=
  (e.get? name).map fun tensor => (tensor, e.remove name)

def floats (e : Engine) (name : TensorName) : Except BackendError (Grid Float32) :=
  match e.get? name with
  | none => .error (.missingTensor name)
  | some tensor => tensor.floats?.elim (.error (.typeMismatch name)) .ok

def takeFloats (e : Engine) (name : TensorName) : Except BackendError (Grid Float32) × Engine :=
  match e.take? name with
  | none => (.error (.missingTensor name), e)
  | some (tensor, e) => (tensor.floats?.elim (.error (.typeMismatch name)) .ok, e)

def keep (e : Engine) (keeps : TensorName → Bool) : Engine :=
  { e with request := e.request.keep keeps }

def reset (e : Engine) : Engine := { e with request := e.request.reset, distortion := [] }

structure Pass where
  result : Except BackendError Unit
  engine : Engine
  cancelled : Bool

def run (e : Engine) (cancelled : Bool) : Pass :=
  match e.request.infer cancelled with
  | .error error => ⟨.error error, e, cancelled⟩
  | .ok request => ⟨.ok (), { e with request }, cancelled⟩

def infer (e : Engine) (cancelled : Bool) : Pass :=
  let e := { e with calls := e.calls + 1, distortion := [] }
  match e.plan e.calls with
  | none => e.run cancelled
  | some (.refuse error keeps) => ⟨.error error, e.keep keeps, cancelled⟩
  | some .raiseFlag => e.run true
  | some (.lose keeps) =>
    match e.run cancelled with
    | ⟨.ok (), e, cancelled⟩ => ⟨.ok (), e.keep keeps, cancelled⟩
    | failed => failed
  | some (.disguise changes) =>
    match e.run cancelled with
    | ⟨.ok (), e, cancelled⟩ => ⟨.ok (), { e with distortion := changes }, cancelled⟩
    | failed => failed

def presentCount (e : Engine) : Nat :=
  let bound :=
    e.request.outputs.entries.length + e.request.inputs.entries.length + e.distortion.length + 1
  ((List.range bound).takeWhile fun layer => (e.get? (.presentKey layer)).isSome).length

end Engine

def CompiledModel.createRequest (compiled : CompiledModel) : Except BackendError Engine :=
  match compiled.plan 0 with
  | some (.refuse error _) => .error error
  | _ => .ok (.ofCompiled compiled)

end TextGen
