import Mathlib.Data.List.Perm.Basic
import Mathlib.Logic.Function.Basic
import TextGen.Proofs.Json.Literal
import TextGen.Proofs.Json.Record
import TextGen.Proofs.Json.RoundTrip
import TextGen.Sampling.Document

/-!
This module contains what a settings document says. Its members replace default settings, each one
the setting that it names and no other, so that their order does not matter. A document with a
member that names no setting, or with two members for one setting, is refused.
-/

namespace TextGen

namespace SamplingConfig

open Json (IsSignedWord RecordField Value OneOrMany Problem Quoted)

/-! ## The settings -/

inductive Setting
  | maxNewTokens
  | doSample
  | temperature
  | topK
  | topP
  | repeatPenalty
  | repeatLastN
  | seed
  | eosTokenIds
  deriving DecidableEq

namespace Setting

abbrev Choice : Setting → Type
  | maxNewTokens | topK | repeatLastN => Nat
  | doSample => Bool
  | temperature | topP | repeatPenalty => Float32
  | seed => Seed
  | eosTokenIds => List TokenId

def name : Setting → String
  | maxNewTokens => "max_new_tokens"
  | doSample => "do_sample"
  | temperature => "temperature"
  | topK => "top_k"
  | topP => "top_p"
  | repeatPenalty => "repeat_penalty"
  | repeatLastN => "repeat_last_n"
  | seed => "seed"
  | eosTokenIds => "eos_token_id"

def otherNames : Setting → List String
  | repeatPenalty => ["repetition_penalty"]
  | eosTokenIds => ["eos_token_ids"]
  | _ => []

def Names (s : Setting) (key : Quoted) : Prop :=
  ∃ name ∈ s.name :: s.otherNames, key.text? = some name

/--
The value of a member is a literal of the choice for the setting. A negative seed asks for any seed,
and the tokens that end a text are given as one token or as a list.
-/
def IsChosen : (s : Setting) → Value → s.Choice → Prop
  | maxNewTokens, v, count | topK, v, count | repeatLastN, v, count =>
    v = .natural count ∧ count < wordCount 64
  | doSample, v, on => v = .boolean on
  | temperature, v, x | topP, v, x | repeatPenalty, v, x => v.IsFloat32 x
  | seed, v, start =>
    ∃ n, v = .integer n ∧ IsSignedWord n
      ∧ start = if n < 0 then .arbitrary else .fixed n.toNat.toUInt64
  | eosTokenIds, v, ids =>
    (∃ id, v = .integer id ∧ IsSignedWord id ∧ ids = [id])
      ∨ v = .array (ids.map .integer) true ∧ ∀ id ∈ ids, IsSignedWord id

def IsSaid (s : Setting) (v : Value) (choice : Option s.Choice) : Prop :=
  (v = .null ∧ choice = none) ∨ ∃ x, s.IsChosen v x ∧ choice = some x

def put : (s : Setting) → s.Choice → SamplingConfig → SamplingConfig
  | maxNewTokens, x, c => { c with maxNewTokens := x }
  | doSample, x, c => { c with doSample := x }
  | temperature, x, c => { c with temperature := x }
  | topK, x, c => { c with topK := x }
  | topP, x, c => { c with topP := x }
  | repeatPenalty, x, c => { c with repeatPenalty := x }
  | repeatLastN, x, c => { c with repeatLastN := x }
  | seed, x, c => { c with seed := x }
  | eosTokenIds, x, c => { c with eosTokenIds := x }

theorem name_injective {s t : Setting} (h : s.name = t.name) : s = t := by
  cases s <;> cases t <;> simp_all [name]

end Setting

abbrev Choices := (s : Setting) → Option s.Choice

theorem read_setting {α : Type} {name : String} {aliases : List String}
    {read : Value → Except Problem α} {set : SamplingConfig → α → SamplingConfig} {s : Setting}
    {v : Value} {choice : Option s.Choice} {base : SamplingConfig}
    (hnull : ∀ x, read .null ≠ .ok x) (hsaid : s.IsSaid v choice)
    (hread : ∀ x, s.IsChosen v x → ∃ y, read v = .ok y ∧ set base y = s.put x base)
    : (setting name aliases read set).read v base = .ok (choice.elim base (s.put · base)) := by
  rcases hsaid with ⟨rfl, rfl⟩ | ⟨x, hchosen, rfl⟩
  . rfl
  . rcases hread x hchosen with ⟨y, hy, hset⟩
    have hoptional : v.optional read = .ok (some y) := by
      unfold Value.optional
      split
      . exact absurd hy (hnull y)
      . rw [hy]
        rfl
    unfold setting
    dsimp only
    rw [hoptional]
    exact congrArg Except.ok hset

theorem isReadable_integer {n : Int} (h : IsSignedWord n) (depth : Nat)
    : (Value.integer n).isReadable depth = true := by
  have hword : Json.Number.isWord ⟨n < 0, n.natAbs, 0, none⟩ = true :=
    Json.isWord_eq_true_iff.mpr ⟨n, h.1, h.lt_wordCount, rfl⟩
  simp [Value.integer, Value.isReadable, hword]

theorem isReadable_integers {ids : List Int} (h : ∀ id ∈ ids, IsSignedWord id) (depth : Nat)
    : (Value.array (ids.map .integer) true).isReadable (depth + 1) = true := by
  have hall : Value.allReadable depth (ids.map .integer) = true := by
    induction ids with
    | nil => rfl
    | cons id ids ih =>
      rw [List.forall_mem_cons] at h
      simp [Value.allReadable, isReadable_integer h.1, ih h.2]
  simp [Value.isReadable, hall]

theorem read_tokens {v : Value} {ids : List TokenId} (h : Setting.eosTokenIds.IsChosen v ids)
    : ∃ y, OneOrMany.read (Json.nestingLimit - 1) Value.signed v = .ok y ∧ y.toList = ids := by
  unfold OneOrMany.read
  rcases h with ⟨id, rfl, hid, rfl⟩ | ⟨rfl, hids⟩
  . rw [isReadable_integer hid, Value.signed_eq_ok_iff.mpr ⟨rfl, hid⟩]
    exact ⟨.one id, rfl, rfl⟩
  . have hlimit : Json.nestingLimit - 1 = 125 + 1 := rfl
    have hproblem : (Value.array (ids.map .integer) true).signed = .error .badValue := rfl
    rw [hlimit, isReadable_integers hids, Value.list_signed_eq_ok_iff.mpr ⟨rfl, hids⟩, hproblem]
    exact ⟨.many ids, rfl, rfl⟩

theorem exists_field (s : Setting)
    : ∃ field, settings.find? (·.isNamed s.name) = some field ∧ field.name = s.name
        ∧ ∀ v choice base, s.IsSaid v choice →
          field.read v base = .ok (choice.elim base (s.put · base)) := by
  cases s with
  | maxNewTokens | topK | repeatLastN =>
    refine ⟨_, rfl, rfl, fun v choice base h => read_setting nofun h fun count hcount => ?_⟩
    exact ⟨count, Value.word_eq_ok_iff.mpr hcount, rfl⟩
  | doSample =>
    refine ⟨_, rfl, rfl, fun v choice base h => read_setting nofun h fun on hon => ?_⟩
    exact ⟨on, Value.bool_eq_ok_iff.mpr hon, rfl⟩
  | temperature | topP | repeatPenalty =>
    refine ⟨_, rfl, rfl, fun v choice base h => read_setting nofun h fun x hx => ?_⟩
    exact ⟨x, Value.float32_eq_ok_iff.mpr hx, rfl⟩
  | seed =>
    refine ⟨_, rfl, rfl, fun v choice base h => read_setting nofun h ?_⟩
    rintro x ⟨n, hv, hn, rfl⟩
    exact ⟨n, Value.signed_eq_ok_iff.mpr ⟨hv, hn⟩, rfl⟩
  | eosTokenIds =>
    refine ⟨_, rfl, rfl, fun v choice base h => read_setting nofun h fun x hx => ?_⟩
    rcases read_tokens hx with ⟨y, hy, rfl⟩
    exact ⟨y, hy, rfl⟩

theorem find?_of_names {s : Setting} {key : Quoted} (h : s.Names key)
    : ∃ name, key.text? = some name
        ∧ settings.find? (·.isNamed name) = settings.find? (·.isNamed s.name) := by
  rcases h with ⟨name, hmem, hname⟩
  refine ⟨name, hname, ?_⟩
  cases s with
  | repeatPenalty | eosTokenIds =>
    rcases List.mem_cons.mp hmem with rfl | hother
    . rfl
    . rw [List.mem_singleton.mp hother]
      rfl
  | _ => rw [List.mem_singleton.mp hmem]

theorem fieldName?_of_names {s : Setting} {key : Quoted} (h : s.Names key)
    : RecordField.fieldName? settings key = some s.name := by
  rcases find?_of_names h with ⟨name, hname, hfind⟩
  rcases exists_field s with ⟨field, hfield, hfieldName, _⟩
  rw [RecordField.fieldName?_eq hname (hfind.trans hfield), hfieldName]

theorem eq_of_names {s t : Setting} {key other : Quoted} (hs : s.Names key) (ht : t.Names other)
    (h : RecordField.fieldName? settings key = RecordField.fieldName? settings other)
    : s = t := by
  rw [fieldName?_of_names hs, fieldName?_of_names ht, Option.some_inj] at h
  exact Setting.name_injective h

structure Describes (members : List (Quoted × Value)) (choices : Choices) : Prop where
  known : ∀ member ∈ members, ∃ s : Setting, s.Names member.1
  distinct : members.Pairwise fun a b => ∀ s : Setting, ¬(s.Names a.1 ∧ s.Names b.1)
  said : ∀ member ∈ members, ∀ s : Setting, s.Names member.1 → s.IsSaid member.2 (choices s)
  leftOut : ∀ s : Setting, (∀ member ∈ members, ¬s.Names member.1) → choices s = none

variable {members : List (Quoted × Value)} {choices : Choices}

theorem Describes.tail {key : Quoted} {v : Value} (h : Describes ((key, v) :: members) choices)
    {s : Setting} (hs : s.Names key)
    : Describes members (Function.update choices s none) where
  known member hmember := h.known member (List.mem_cons_of_mem _ hmember)
  distinct := (List.pairwise_cons.mp h.distinct).2
  said member hmember t ht := by
    have hne : t ≠ s := by
      rintro rfl
      exact (List.pairwise_cons.mp h.distinct).1 member hmember t ⟨hs, ht⟩
    rw [Function.update_of_ne hne]
    exact h.said member (List.mem_cons_of_mem _ hmember) t ht
  leftOut t ht := by
    by_cases heq : t = s
    . subst heq
      exact Function.update_self t none choices
    . rw [Function.update_of_ne heq]
      apply h.leftOut
      rw [List.forall_mem_cons]
      exact ⟨fun hkey => heq (eq_of_names hkey hs rfl), ht⟩

variable {text : String}

end SamplingConfig

end TextGen
