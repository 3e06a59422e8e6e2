import TextGen.Proofs.Session.Atomicity

/-!
This module contains what taking the outputs of the last pass can do to a session between its calls.
The outputs are gone after every call that succeeds. They are left only by a call whose pass
succeeded and that was turned down, and then a session may take a cache that is longer than its
sequence.
-/

namespace TextGen

namespace Engine

variable {e : Engine}

structure IsSpent (e : Engine) : Prop where
  outputs : e.request.outputs.get? (.presentKey 0) = none
  distortion : e.distortion.lookup (.presentKey 0) = none

theorem IsSpent.remove (h : e.IsSpent) (name : TensorName) : (e.remove name).IsSpent := by
  constructor
  . unfold Engine.remove Request.remove
    split
    . simp [h.outputs]
    . exact h.outputs
  . rw [lookup_distortion_remove, h.distortion]
    split <;> rfl

theorem isSpent_remove (e : Engine) : (e.remove (.presentKey 0)).IsSpent := by
  constructor
  . unfold Engine.remove Request.remove
    split
    . simp
    . next hnone => exact hnone
  . rw [lookup_distortion_remove, if_pos rfl]

theorem IsSpent.removeLayers (h : e.IsSpent) (key value : Nat → TensorName) (count index : Nat)
    : (e.removeLayers key value count index).IsSpent := by
  induction count generalizing e index with
  | zero => exact h
  | succ count ih => exact ih ((h.remove _).remove _) _

theorem isSpent_removeLayers (e : Engine) {count : Nat} (hcount : 0 < count)
    : (e.removeLayers .presentKey .presentValue count 0).IsSpent := by
  obtain ⟨rest, rfl⟩ : ∃ rest, count = rest + 1 := ⟨count - 1, by omega⟩
  have hfirst := e.isSpent_remove.remove (.presentValue 0)
  exact hfirst.removeLayers _ _ rest 1

theorem IsSpent.takeFloats (h : e.IsSpent) (name : TensorName) : (e.takeFloats name).2.IsSpent := by
  unfold Engine.takeFloats take?
  cases e.get? name with
  | none => exact h
  | some tensor => exact h.remove name

theorem IsSpent.infer (h : e.IsSpent) {cancelled : Bool} {error : BackendError}
    (herror : (e.infer cancelled).result = .error error) : (e.infer cancelled).engine.IsSpent := by
  rcases infer_cases e cancelled with ⟨_, keeps, _, hengine⟩ | ⟨_, _, _, _, hok, _, _, _⟩
  . rw [hengine]
    constructor
    . unfold Request.keep
      rw [Bindings.get?_keep, h.outputs]
      split <;> rfl
    . rfl
  . rw [hok] at herror
    contradiction

theorem IsSpent.presentCount (h : e.IsSpent) (hseparated : e.request.Separated)
    : e.presentCount = 0 := by
  apply presentCount_eq
  . simp
  . unfold Engine.get? Distortion.apply
    rw [h.distortion, hseparated.get?_output rfl, h.outputs]

end Engine

theorem Cache.isSpent_takeLayers {engine : Engine} (h : engine.IsSpent)
    (key value : Nat → TensorName) (layers : List CacheLayer) (index : Nat)
    : (takeLayers key value layers index engine).2.2.IsSpent := by
  induction layers generalizing index engine with
  | nil => exact h
  | cons layer layers ih =>
    have hkey := h.takeFloats (key index)
    have hvalue := hkey.takeFloats (value index)
    unfold takeLayers
    split
    . next heq =>
      rw [heq] at hkey
      exact hkey
    . next heq =>
      rw [heq] at hvalue
      split
      . next heq =>
        rw [heq] at hvalue
        exact hvalue
      . next heq =>
        rw [heq] at hvalue
        exact ih hvalue _

namespace Session

/-! ## What a call leaves of the outputs -/

def TurnsDown (s : Session) : SessionCall → Prop
  | .prefill ids cancelled =>
    (∃ e, e.IsOfPass ∧ (s.prefill ids cancelled).result = .error e)
      ∧ (s.reset.passed ids (List.replicate ids.length 1) (positionsFrom 0 ids.length)
        cancelled).result = .ok ()
  | .decodeStep id cancelled =>
    (∃ e, e.IsOfPass ∧ (s.decodeStep id cancelled).result = .error e)
      ∧ (s.passed [id] (s.attentionMask ++ [1]) (positionsFrom s.sequenceLength 1)
        cancelled).result = .ok ()
  | .reset => False

def Succeeds (s : Session) : SessionCall → Prop
  | .prefill ids cancelled => ∃ logits, (s.prefill ids cancelled).result = .ok logits
  | .decodeStep id cancelled => ∃ logits, (s.decodeStep id cancelled).result = .ok logits
  | .reset => True

def NoneSucceeds (s : Session) : List SessionCall → Prop
  | [] => True
  | call :: calls => ¬s.Succeeds call ∧ (s.perform call).NoneSucceeds calls

variable {s : Session} {model : BigramModel} {plan : FaultPlan} {limit : Option Nat}
variable {ids mask positions : List Int} {cancelled : Bool}

theorem isSpent_recover (h : s.engine.IsSpent) : s.recover.engine.IsSpent := by
  have htake := Cache.isSpent_takeLayers h .pastKey .pastValue s.cache.layers 0
  unfold recover Cache.reclaim
  generalize Cache.takeLayers .pastKey .pastValue s.cache.layers 0 s.engine = taken at htake
  rcases taken with ⟨result, layers, engine⟩
  cases result with
  | error _ => exact ⟨rfl, rfl⟩
  | ok _ => exact htake

theorem isSpent_run_ok (h : s.RunsOn model plan limit) (hpositive : model.shape.IsPositive)
    {logits : List Float32} (hresult : (s.run ids mask positions cancelled).result = .ok logits)
    : (s.run ids mask positions cancelled).session.engine.IsSpent := by
  rcases run_cases h ids mask positions cancelled with
    ⟨_, _, herror, _⟩ | ⟨_, found, _, _, hfound, _, _, hsession⟩
  . rw [herror] at hresult
    contradiction
  . have hcount : 0 < found.length := by
      rw [hfound, h.layerCount_eq]
      exact hpositive.layerCount
    rw [hsession]
    exact Engine.isSpent_removeLayers _ hcount

theorem isSpent_run_error (h : s.RunsOn model plan limit) (hspent : s.engine.IsSpent)
    (hpass : (s.passed ids mask positions cancelled).result ≠ .ok ())
    : (s.run ids mask positions cancelled).session.engine.IsSpent := by
  rcases run_cases h ids mask positions cancelled with
    ⟨_, _, _, hsession⟩ | ⟨_, _, hpassed, _, _, _, _, _⟩
  . rw [hsession]
    apply isSpent_recover
    cases hpassed : (s.passed ids mask positions cancelled).result with
    | ok _ => exact absurd hpassed hpass
    | error error =>
      have hbound : (s.bound ids mask positions).IsSpent := ⟨hspent.outputs, hspent.distortion⟩
      exact hbound.infer hpassed
  . exact absurd hpassed hpass

theorem prefill_frame (s : Session) (ids : List TokenId) (cancelled : Bool)
    : ((∃ e, (s.prefill ids cancelled).result = .error e)
        ∧ (s.prefill ids cancelled).session = s)
        ∨
      ((s.prefill ids cancelled).result = (s.prefillRun ids cancelled).result
        ∧ (s.prefill ids cancelled).session.engine
            =
          (s.prefillRun ids cancelled).session.engine) := by
  rcases s.prefill_eq ids cancelled with ⟨_, heq⟩ | ⟨_, _, _, _, heq⟩ | ⟨_, _, heq⟩
  . left
    rw [heq]
    exact ⟨⟨_, rfl⟩, rfl⟩
  . left
    rw [heq]
    exact ⟨⟨_, rfl⟩, rfl⟩
  . right
    rw [heq]
    split <;> exact ⟨rfl, rfl⟩

theorem decodeStep_frame (s : Session) (id : TokenId) (cancelled : Bool)
    : ((∃ e, (s.decodeStep id cancelled).result = .error e)
        ∧ (s.decodeStep id cancelled).session = s)
        ∨
      ((s.decodeStep id cancelled).result = (s.stepRun id cancelled).result
        ∧ (s.decodeStep id cancelled).session.engine
            =
          (s.stepRun id cancelled).session.engine) := by
  rcases s.decodeStep_eq id cancelled with ⟨_, heq⟩ | ⟨_, _, _, _, heq⟩ | ⟨_, _, heq⟩
  . left
    rw [heq]
    exact ⟨⟨_, rfl⟩, rfl⟩
  . left
    rw [heq]
    exact ⟨⟨_, rfl⟩, rfl⟩
  . right
    rw [heq]
    split <;> exact ⟨rfl, rfl⟩

theorem isSpent_of_succeeds (h : s.RunsOn model plan limit) (hpositive : model.shape.IsPositive)
    {call : SessionCall} (hcall : s.Succeeds call) : (s.perform call).engine.IsSpent := by
  cases call with
  | prefill ids cancelled =>
    show (s.prefill ids cancelled).session.engine.IsSpent
    rcases hcall with ⟨logits, hresult⟩
    rcases s.prefill_frame ids cancelled with ⟨⟨e, herror⟩, _⟩ | ⟨hrun, hengine⟩
    . rw [herror] at hresult
      contradiction
    . rw [hengine]
      exact isSpent_run_ok h.reset hpositive (hrun.symm.trans hresult)
  | decodeStep id cancelled =>
    show (s.decodeStep id cancelled).session.engine.IsSpent
    rcases hcall with ⟨logits, hresult⟩
    rcases s.decodeStep_frame id cancelled with ⟨⟨e, herror⟩, _⟩ | ⟨hrun, hengine⟩
    . rw [herror] at hresult
      contradiction
    . rw [hengine]
      exact isSpent_run_ok h hpositive (hrun.symm.trans hresult)
  | reset => exact ⟨rfl, rfl⟩

theorem isSpent_perform (h : s.RunsOn model plan limit) (hpositive : model.shape.IsPositive)
    (hspent : s.engine.IsSpent) {call : SessionCall} (hcall : ¬s.TurnsDown call)
    : (s.perform call).engine.IsSpent := by
  cases call with
  | prefill ids cancelled =>
    show (s.prefill ids cancelled).session.engine.IsSpent
    rcases s.prefill_frame ids cancelled with ⟨_, hsession⟩ | ⟨hrun, hengine⟩
    . rw [hsession]
      exact hspent
    . rw [hengine]
      cases hresult : (s.prefillRun ids cancelled).result with
      | ok logits => exact isSpent_run_ok h.reset hpositive hresult
      | error e =>
        apply isSpent_run_error h.reset ⟨rfl, rfl⟩
        intro hpass
        exact hcall ⟨⟨e, (run_error h.reset hresult).1, hrun.trans hresult⟩, hpass⟩
  | decodeStep id cancelled =>
    show (s.decodeStep id cancelled).session.engine.IsSpent
    rcases s.decodeStep_frame id cancelled with ⟨_, hsession⟩ | ⟨hrun, hengine⟩
    . rw [hsession]
      exact hspent
    . rw [hengine]
      cases hresult : (s.stepRun id cancelled).result with
      | ok logits => exact isSpent_run_ok h hpositive hresult
      | error e =>
        apply isSpent_run_error h hspent
        intro hpass
        exact hcall ⟨⟨e, (run_error h hresult).1, hrun.trans hresult⟩, hpass⟩
  | reset => exact ⟨rfl, rfl⟩

theorem isSpent_performAll (h : s.RunsOn model plan limit) (hpositive : model.shape.IsPositive)
    (calls : List SessionCall)
    : (s.performAll calls).engine.IsSpent
        ∨ (∃ earlier call later, calls = earlier ++ call :: later
          ∧ (s.performAll earlier).TurnsDown call
          ∧ (s.performAll (earlier ++ [call])).NoneSucceeds later)
        ∨ (¬s.engine.IsSpent ∧ s.NoneSucceeds calls) := by
  induction calls generalizing s with
  | nil =>
    by_cases hspent : s.engine.IsSpent
    . exact .inl hspent
    . exact .inr (.inr ⟨hspent, trivial⟩)
  | cons call calls ih =>
    rcases ih (h.perform call) with
      hspent | ⟨earlier, refused, later, rfl, hdown, hnone⟩ | hleft
    . exact .inl hspent
    . exact .inr (.inl ⟨call :: earlier, refused, later, rfl, hdown, hnone⟩)
    . rcases hleft with ⟨hleft, hnone⟩
      right
      by_cases hdown : s.TurnsDown call
      . exact .inl ⟨[], call, calls, rfl, hdown, hnone⟩
      . right
        constructor
        . intro hspent
          exact hleft (isSpent_perform h hpositive hspent hdown)
        . refine ⟨?_, hnone⟩
          intro hsucceeds
          exact hleft (isSpent_of_succeeds h hpositive hsucceeds)

/-! ## Taking the outputs between calls -/

def HoldsSequence (s : Session) : Prop :=
  (∀ layer ∈ s.cache.layers,
    layer.key.extent 2 = s.sequenceLength ∧ layer.value.extent 2 = s.sequenceLength)
  ∧ s.attentionMask.length = s.sequenceLength ∧ s.positionIds.length = s.sequenceLength

instance (s : Session) : Decidable s.HoldsSequence := inferInstanceAs (Decidable (_ ∧ _))

def AbsorbsSafely (s : Session) (length : Nat) : Prop :=
  (∃ e, s.absorbPresent length = (.error e, s))
    ∨ ((s.absorbPresent length).1 = .ok () ∧ (s.absorbPresent length).2.HoldsSequence)

/--
The outputs are taken as the cache, whatever the sequence is. Nothing else changes.
-/
structure AbsorbsAnyway (s : Session) (length : Nat) : Prop where
  result_eq : (s.absorbPresent length).1 = .ok ()
  session_eq : ∃ engine layers, layers.length = s.cache.layers.length
    ∧ (s.absorbPresent length).2 = { s with engine, cache := { s.cache with layers } }
  shapes : ∀ layer ∈ (s.absorbPresent length).2.cache.layers,
    layer.key.shape = s.shape.kvShape length ∧ layer.value.shape = s.shape.kvShape length
  holdsSequence_iff : (s.absorbPresent length).2.HoldsSequence ↔ length = s.sequenceLength

theorem absorbsAnyway_of_grown (h : s.IsSettled model plan limit)
    (hpositive : model.shape.IsPositive) {length : Nat} {found : List CacheLayer} {engine : Engine}
    (hlength : found.length = s.cache.layers.length)
    (hgrown : Cache.Grown s.cache.shape length found s.engine)
    (habsorb : s.absorbPresent length
      = (.ok (), { s with engine, cache := { s.cache with layers := found } }))
    : s.AbsorbsAnyway length := by
  have hshape : s.cache.shape = s.shape := h.runs.cacheShape_eq.trans h.runs.shape_eq.symm
  have hconsistent := h.isConsistent
  constructor
  . rw [habsorb]
  . exact ⟨engine, found, hlength, congrArg Prod.snd habsorb⟩
  . rw [habsorb, ← hshape]
    intro layer hlayer
    exact ⟨hgrown.keyShape layer hlayer, hgrown.valueShape layer hlayer⟩
  . rw [habsorb]
    have hextent : ∀ layer ∈ found,
        layer.key.extent 2 = length ∧ layer.value.extent 2 = length := by
      intro layer hlayer
      unfold Grid.extent
      rw [hgrown.keyShape layer hlayer, hgrown.valueShape layer hlayer]
      exact ⟨rfl, rfl⟩
    constructor
    . intro hholds
      -- There is a layer, and it shows how many positions have been taken.
      have hpos : 0 < found.length := by
        rw [hlength, h.runs.layerCount_eq]
        exact hpositive.layerCount
      have hfirst := List.getElem_mem hpos
      exact (hextent _ hfirst).1.symm.trans (hholds.1 _ hfirst).1
    . rintro rfl
      refine ⟨hextent, ?_, ?_⟩
      . simp [hconsistent.attentionMask_eq]
      . simp [hconsistent.positionIds_eq]

theorem absorbPresent_cases (h : s.IsSettled model plan limit)
    (hpositive : model.shape.IsPositive) (length : Nat)
    : (∃ e : SessionError, e.IsOfPass ∧ s.absorbPresent length = (.error e, s))
        ∨
      (¬s.engine.IsSpent ∧ s.AbsorbsAnyway length) := by
  rcases s.cache.absorb_cases s.engine length with
    ⟨e, he, heq⟩ | ⟨found, hcount, hlength, hgrown, heq⟩
  . left
    refine ⟨e, he, ?_⟩
    unfold absorbPresent
    rw [heq]
  . right
    constructor
    . intro hspent
      have hlayers := hpositive.layerCount
      rw [← h.runs.layerCount_eq] at hlayers
      rw [hspent.presentCount h.runs.separated, Cache.layerCount] at hcount
      omega
    . apply absorbsAnyway_of_grown h hpositive hlength hgrown
      unfold absorbPresent
      rw [heq]

/--
After any calls, taking the outputs changes nothing, or it takes those of a call that was turned
down and that no call has made up for. The cache then has the length that is asked for, and the
session is broken unless that is the length of its sequence.
-/
theorem absorbPresent_performAll {plan : FaultPlan} (hvalid : model.validate = .ok ())
    (hplan : plan.IsDetectable) (threads limit : Option Nat) (calls : List SessionCall)
    (length : Nat)
    : let start := ofCompiled ⟨model, model.shape, plan, threads⟩ limit
      let s := start.performAll calls
      (∃ e : SessionError, e.IsOfPass ∧ s.absorbPresent length = (.error e, s))
        ∨
      (s.AbsorbsAnyway length
        ∧ ∃ earlier call later, calls = earlier ++ call :: later
          ∧ (start.performAll earlier).TurnsDown call
          ∧ (start.performAll (earlier ++ [call])).NoneSucceeds later) := by
  intro start s
  have hpositive := BigramModel.isPositive_of_validate hvalid
  have hstart := isSettled_ofCompiled model threads limit hplan
  rcases absorbPresent_cases (hstart.performAll hpositive calls) hpositive length with
    herror | ⟨hleft, habsorbs⟩
  . exact .inl herror
  . right
    refine ⟨habsorbs, ?_⟩
    rcases isSpent_performAll hstart.runs hpositive calls with hspent | hdown | ⟨hnew, _⟩
    . exact absurd hspent hleft
    . exact hdown
    . exact absurd ⟨rfl, rfl⟩ hnew

theorem isDetectable_missing (call : Nat) {name : TensorName} (hname : name.isOutput = true)
    : (FaultPlan.once call (.distort name fun _ => none)).IsDetectable := by
  apply FaultPlan.isDetectable_once
  intro changes hchanges
  cases hchanges
  apply Distortion.isDetectable_singleton hname
  intro tensor
  trivial

def withoutSecondLogits : Session :=
  let plan : FaultPlan := .once 2 (.distort .logits fun _ => none)
  (ofCompiled ⟨.ofShape ⟨1, 1, 1, 2⟩, ⟨1, 1, 1, 2⟩, plan, none⟩ none).performAll
    [.prefill [0] false, .decodeStep 1 false]

theorem absorbPresent_withoutSecondLogits
    : (withoutSecondLogits.absorbPresent 2).1 = .ok () := rfl

theorem absorbsAnyway_of_missing_logits
    : withoutSecondLogits.AbsorbsAnyway 2 ∧ withoutSecondLogits.sequenceLength = 1 := by
  have hvalid : (BigramModel.ofShape ⟨1, 1, 1, 2⟩).validate = .ok () := rfl
  have hplan := isDetectable_missing 2 (rfl : TensorName.logits.isOutput = true)
  have hresult := absorbPresent_withoutSecondLogits
  rcases absorbPresent_performAll hvalid hplan none none
    [.prefill [0] false, .decodeStep 1 false] 2 with ⟨e, _, herror⟩ | ⟨habsorbs, _⟩
  . rw [show withoutSecondLogits.absorbPresent 2 = (.error e, withoutSecondLogits) from herror]
      at hresult
    contradiction
  . exact ⟨habsorbs, rfl⟩

theorem not_forall_absorbsSafely
    : ¬∀ (model : BigramModel) (plan : FaultPlan) (threads limit : Option Nat)
        (calls : List SessionCall) (length : Nat), model.validate = .ok () → plan.IsDetectable →
        ((ofCompiled ⟨model, model.shape, plan, threads⟩ limit).performAll calls).AbsorbsSafely
          length := by
  intro h
  have hresult := absorbPresent_withoutSecondLogits
  have hsafely : withoutSecondLogits.AbsorbsSafely 2 := by
    apply h
    . rfl
    . exact isDetectable_missing 2 rfl
  rcases hsafely with ⟨e, herror⟩ | ⟨_, hholds⟩
  . rw [herror] at hresult
    contradiction
  . exact absurd hholds (by decide +kernel)

end Session

end TextGen
