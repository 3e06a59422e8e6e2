import TextGen.Session.Cache

/-!
Sessions: one sequence of tokens, fed to a model token by token over a growing cache. A session
counts a token only after its forward pass has succeeded and the grown cache was absorbed.
-/

namespace TextGen

structure Session where
  engine : Engine
  shape : ModelShape
  contextLimit : Option Nat
  cache : Cache
  tokens : List TokenId
  sequenceLength : Nat
  attentionMask : List Int
  positionIds : List Int

namespace Session

structure Outcome (α : Type) where
  result : Except SessionError α
  session : Session
  cancelled : Bool

def ofCompiled (compiled : CompiledModel) (contextLimit : Option Nat) : Session where
  engine := .ofCompiled compiled
  shape := compiled.reported
  contextLimit := contextLimit
  cache := .ofShape compiled.reported
  tokens := []
  sequenceLength := 0
  attentionMask := []
  positionIds := []

def create (compiled : CompiledModel) (contextLimit : Option Nat) :
    Except SessionError Session := do
  let engine ← compiled.createRequest.mapError .backend
  return { ofCompiled compiled contextLimit with engine }

def reset (s : Session) : Session :=
  { s with
    engine := s.engine.reset
    cache := s.cache.reset
    tokens := []
    sequenceLength := 0
    attentionMask := []
    positionIds := [] }

def checkContext (s : Session) (length : Nat) : Except SessionError Unit :=
  match s.contextLimit with
  | some limit => if limit < length then .error (.contextLengthExceeded limit) else .ok ()
  | none => .ok ()

def lastLogits (engine : Engine) (shape : ModelShape) (inputLength : Nat) :
    Except BackendError (List Float32) := do
  let logits ← engine.floats .logits
  Request.checkShape .logits [1, inputLength, shape.vocabSize] logits.shape
  return (List.range shape.vocabSize).map fun token => logits.getD [0, inputLength - 1, token] 0

def exchange (s : Session) (inputLength length : Nat) (cancelled : Bool) :
    Outcome (List Float32) :=
  match s.cache.bind s.engine with
  | (.error e, cache, engine) => ⟨.error (.backend e), { s with cache, engine }, cancelled⟩
  | (.ok (), cache, engine) =>
    match engine.infer cancelled with
    | ⟨.error e, engine, cancelled⟩ => ⟨.error (.backend e), { s with cache, engine }, cancelled⟩
    | ⟨.ok (), engine, cancelled⟩ =>
      match lastLogits engine s.shape inputLength with
      | .error e => ⟨.error (.backend e), { s with cache, engine }, cancelled⟩
      | .ok logits =>
        match cache.absorb engine length with
        | (.error e, cache, engine) => ⟨.error e, { s with cache, engine }, cancelled⟩
        | (.ok (), cache, engine) => ⟨.ok logits, { s with cache, engine }, cancelled⟩

def bindInputs (engine : Engine) (ids mask positions : List Int) : Except BackendError Engine := do
  let engine ← engine.set .inputIds (.row ids)
  let engine ← engine.set .attentionMask (.row mask)
  engine.set .positionIds (.row positions)

def recover (s : Session) : Session :=
  match s.cache.reclaim s.engine with
  | (.ok (), cache, engine) => { s with cache, engine }
  | (.error _, cache, engine) => { s with cache, engine }.reset

def run (s : Session) (ids mask positions : List Int) (cancelled : Bool) :
    Outcome (List Float32) :=
  match bindInputs s.engine ids mask positions with
  | .error e => ⟨.error (.backend e), s, cancelled⟩
  | .ok engine =>
    let outcome := { s with engine }.exchange ids.length mask.length cancelled
    match outcome.result with
    | .ok _ => outcome
    | .error _ => { outcome with session := outcome.session.recover }

def commit (s : Session) (ids mask positions : List Int) : Session :=
  let tokens := s.tokens ++ ids
  { s with
    tokens
    sequenceLength := tokens.length
    attentionMask := mask
    positionIds := positions }

def positionsFrom (first count : Nat) : List Int :=
  (List.range count).map fun i => ((first + i : Nat) : Int)

def prefill (s : Session) (ids : List TokenId) (cancelled : Bool) : Outcome (List Float32) :=
  if ids.isEmpty then ⟨.error .emptyPrompt, s, cancelled⟩
  else
    match s.checkContext ids.length with
    | .error e => ⟨.error e, s, cancelled⟩
    | .ok () =>
      let mask := List.replicate ids.length 1
      let positions := positionsFrom 0 ids.length
      let outcome := s.reset.run ids mask positions cancelled
      match outcome.result with
      | .ok _ => { outcome with session := outcome.session.commit ids mask positions }
      | .error _ => outcome

def decodeStep (s : Session) (id : TokenId) (cancelled : Bool) : Outcome (List Float32) :=
  if s.sequenceLength = 0 then ⟨.error .notPrefilled, s, cancelled⟩
  else
    match s.checkContext (s.sequenceLength + 1) with
    | .error e => ⟨.error e, s, cancelled⟩
    | .ok () =>
      let mask := s.attentionMask ++ [1]
      let positions := positionsFrom s.sequenceLength 1
      let outcome := s.run [id] mask positions cancelled
      match outcome.result with
      | .ok _ =>
        { outcome with
          session := outcome.session.commit [id] mask (s.positionIds ++ positions) }
      | .error _ => outcome

def absorbPresent (s : Session) (length : Nat) : Except SessionError Unit × Session :=
  let (result, cache, engine) := s.cache.absorb s.engine length
  (result, { s with cache, engine })

end Session

end TextGen
