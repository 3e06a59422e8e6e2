import TextGen.Proofs.Session.Operations

/-!
This module contains the invariant of a session: whatever is called, and however its passes fail,
the tokens, the mask, the positions and the cache of every layer tell of the same sequence.
-/

namespace TextGen

inductive SessionCall
  | prefill (ids : List TokenId) (cancelled : Bool)
  | decodeStep (id : TokenId) (cancelled : Bool)
  | reset

structure CacheLayer.Holds (layer : CacheLayer) (shape : ModelShape) (tokens : List TokenId)
    : Prop where
  keyShape : layer.key.shape = shape.kvShape tokens.length
  valueShape : layer.value.shape = shape.kvShape tokens.length
  key : ∀ head position component (hposition : position < tokens.length),
    head < shape.kvHeadCount → component < shape.headDim →
      layer.key.get? [0, head, position, component] = some (Float32.ofInt tokens[position])
  value : ∀ head position component, position < tokens.length →
    head < shape.kvHeadCount → component < shape.headDim →
      layer.value.get? [0, head, position, component] = some (Float32.ofNat position)

theorem CacheLayer.holds_cached (shape : ModelShape) (tokens : List TokenId)
    : CacheLayer.Holds ⟨shape.keys tokens, shape.values tokens.length⟩ shape tokens := by
  constructor
  . simp
  . simp
  . intro head position component hposition hhead hcomponent
    have hlength : position < (tokens.map Float32.ofInt).length := by simpa using hposition
    have := shape.get?_cached (tokens.map Float32.ofInt) hhead hlength hcomponent
    simpa [ModelShape.keys] using this
  . intro head position component hposition hhead hcomponent
    have hlength : position < ((List.range tokens.length).map Float32.ofNat).length := by
      simpa using hposition
    have := shape.get?_cached ((List.range tokens.length).map Float32.ofNat) hhead hlength
      hcomponent
    simpa [ModelShape.values] using this

namespace Session

def perform (s : Session) : SessionCall → Session
  | .prefill ids cancelled => (s.prefill ids cancelled).session
  | .decodeStep id cancelled => (s.decodeStep id cancelled).session
  | .reset => s.reset

def performAll (s : Session) (calls : List SessionCall) : Session := calls.foldl perform s

/--
Tokens, mask, positions and cache tell of one sequence, which is not longer than the limit.
-/
structure IsConsistent (s : Session) (shape : ModelShape) (limit : Option Nat) : Prop where
  length_tokens : s.tokens.length = s.sequenceLength
  attentionMask_eq : s.attentionMask = List.replicate s.sequenceLength 1
  positionIds_eq : s.positionIds = (List.range s.sequenceLength).map fun i : Nat => (i : Int)
  sequenceLength_le : ∀ bound, limit = some bound → s.sequenceLength ≤ bound
  length_layers : s.cache.layers.length = shape.layerCount
  holds : ∀ layer ∈ s.cache.layers, layer.Holds shape s.tokens

variable {s : Session} {model : BigramModel} {plan : FaultPlan} {limit : Option Nat}

structure IsSettled (s : Session) (model : BigramModel) (plan : FaultPlan) (limit : Option Nat)
    : Prop where
  runs : s.RunsOn model plan limit
  state_eq : s.state = .ofTokens model.shape s.tokens
  fits : ∀ bound, limit = some bound → s.tokens.length ≤ bound

theorem IsSettled.isConsistent (h : s.IsSettled model plan limit)
    : s.IsConsistent model.shape limit := by
  have hlength := sequenceLength_of_state h.state_eq
  have hlayers := layers_of_state h.state_eq
  constructor
  . exact hlength.symm
  . rw [hlength]
    exact attentionMask_of_state h.state_eq
  . rw [hlength]
    simpa [positionsFrom] using positionIds_of_state h.state_eq
  . rw [hlength]
    exact h.fits
  . simp [hlayers]
  . intro layer hlayer
    rw [hlayers] at hlayer
    rw [List.eq_of_mem_replicate hlayer]
    exact CacheLayer.holds_cached model.shape s.tokens

theorem isSettled_of_state {tokens : List TokenId} (h : s.RunsOn model plan limit)
    (hstate : s.state = .ofTokens model.shape tokens)
    (hfits : ∀ bound, limit = some bound → tokens.length ≤ bound)
    : s.IsSettled model plan limit := by
  have htokens := tokens_of_state hstate
  subst htokens
  exact ⟨h, hstate, hfits⟩

theorem isSettled_of_empty (h : s.RunsOn model plan limit) (hstate : s.state = .empty model.shape)
    : s.IsSettled model plan limit := by
  rw [← SessionState.ofTokens_nil] at hstate
  exact isSettled_of_state h hstate (by simp)

theorem IsSettled.perform (h : s.IsSettled model plan limit) (hpositive : model.shape.IsPositive)
    (call : SessionCall) : (s.perform call).IsSettled model plan limit := by
  cases call with
  | prefill ids cancelled =>
    have hruns : (s.prefill ids cancelled).session.RunsOn model plan limit :=
      h.runs.prefill ids cancelled
    cases hresult : (s.prefill ids cancelled).result with
    | error e =>
      rcases prefill_error h.runs hresult with ⟨_, hsession⟩ | ⟨_, hstate⟩
      . show (s.prefill ids cancelled).session.IsSettled model plan limit
        rw [hsession]
        exact h
      . exact isSettled_of_empty hruns hstate
    | ok logits =>
      rcases prefill_ok h.runs hpositive hresult with ⟨hfits, _, hstate⟩
      exact isSettled_of_state hruns hstate hfits
  | decodeStep id cancelled =>
    have hruns : (s.decodeStep id cancelled).session.RunsOn model plan limit :=
      h.runs.decodeStep id cancelled
    cases hresult : (s.decodeStep id cancelled).result with
    | error e =>
      rcases decodeStep_error h.runs hresult with ⟨_, hsession⟩ | ⟨_, hkept, hlost⟩
      . show (s.decodeStep id cancelled).session.IsSettled model plan limit
        rw [hsession]
        exact h
      -- A pass that fails keeps the sequence or drops it as a whole.
      . by_cases hholds : (s.stepped id cancelled).HoldsPast model.shape.layerCount
        . exact isSettled_of_state hruns ((hkept hholds).trans h.state_eq) h.fits
        . exact isSettled_of_empty hruns (hlost hholds)
    | ok logits =>
      rcases decodeStep_ok h.runs hpositive h.state_eq hresult with ⟨hfits, _, hstate⟩
      exact isSettled_of_state hruns hstate hfits
  | reset => exact isSettled_of_empty h.runs.reset h.runs.state_reset

theorem IsSettled.performAll (h : s.IsSettled model plan limit)
    (hpositive : model.shape.IsPositive) (calls : List SessionCall)
    : (s.performAll calls).IsSettled model plan limit := by
  induction calls generalizing s with
  | nil => exact h
  | cons call calls ih => exact ih (h.perform hpositive call)

theorem isSettled_ofCompiled (model : BigramModel) {plan : FaultPlan}
    (threads limit : Option Nat) (hplan : plan.IsDetectable)
    : (ofCompiled ⟨model, model.shape, plan, threads⟩ limit).IsSettled model plan limit :=
  isSettled_of_empty (runsOn_ofCompiled model threads limit hplan) rfl

theorem isConsistent_performAll {model : BigramModel} {plan : FaultPlan}
    (hvalid : model.validate = .ok ()) (hplan : plan.IsDetectable) (threads limit : Option Nat)
    (calls : List SessionCall)
    : ((ofCompiled ⟨model, model.shape, plan, threads⟩ limit).performAll calls).IsConsistent
        model.shape limit :=
  ((isSettled_ofCompiled model threads limit hplan).performAll
    (BigramModel.isPositive_of_validate hvalid) calls).isConsistent

theorem isConsistent_of_missing_logits
    : ((ofCompiled ⟨.ofShape ⟨2, 2, 3, 5⟩, ⟨2, 2, 3, 5⟩,
          .once 2 (.distort .logits fun _ => none), none⟩ (some 3)).performAll
        [.prefill [1, 4] false, .decodeStep 3 false, .decodeStep 3 false]).IsConsistent
      ⟨2, 2, 3, 5⟩ (some 3) := by
  have hplan : (FaultPlan.once 2 (.distort .logits fun _ => none)).IsDetectable := by
    apply FaultPlan.isDetectable_once
    intro changes hchanges
    cases hchanges
    apply Distortion.isDetectable_singleton
    . rfl
    . intro tensor
      trivial
  have hvalid : (BigramModel.ofShape ⟨2, 2, 3, 5⟩).validate = .ok () := rfl
  exact isConsistent_performAll hvalid hplan none (some 3) _

end Session

end TextGen
