import Mathlib.Data.List.Perm.Basic
import TextGen.Backend.Error
import TextGen.Proofs.Backend.Acceptance
import TextGen.Proofs.Json.Literal
import TextGen.Proofs.Json.Record
import TextGen.Proofs.Json.RoundTrip

/-!
This module contains what a saved model is loaded as. Every part of a model file is written in a
form that is read back as the part, apart from the scores that are not finite: JSON has no form for
these, and the `null` that stands in their place is no score. The check of a model accepts them.
-/

namespace TextGen

namespace Json

/--
Is the written form of a number read as the number? A finite number is written as the shortest
decimal that rounds to it, and read by way of 64 bits; the other ones have no form to read.
-/
def IsReadBack (x : Float32) : Prop := x.isFinite → (Number.ofFloat32 x).toFloat32? = some x

instance (x : Float32) : Decidable (IsReadBack x) := inferInstanceAs (Decidable (_ → _))

namespace Value

theorem float32_ofFloat32 {x : Float32} (h : IsReadBack x)
    : (ofFloat32 x).float32 = okIf x.isFinite .badValue x := by
  unfold ofFloat32
  cases hfinite : x.isFinite with
  | false => rfl
  | true =>
    simp only [if_true, float32]
    rw [h hfinite]
    rfl

theorem isWritten_ofFloat32 (x : Float32) : (ofFloat32 x).IsWritten := by
  unfold ofFloat32
  split
  . exact .number _
  . exact .null

theorem mapM_map {read : Value → Except Problem α} {write : α → Value} {condition : α → Bool}
    {problem : Problem} {as : List α}
    (h : ∀ a ∈ as, read (write a) = okIf (condition a) problem a)
    : (as.map write).mapM read = okIf (as.all condition) problem as := by
  induction as with
  | nil => rfl
  | cons a as ih =>
    have has := ih fun b hb => h b (List.mem_cons_of_mem _ hb)
    rw [List.map_cons, List.mapM_cons, h a List.mem_cons_self, List.all_cons]
    refine okIf_bind ?_
    rw [has]
    exact map_okIf _ _ _ _

theorem list_map {read : Value → Except Problem α} {write : α → Value} {condition : α → Bool}
    {problem : Problem} {as : List α}
    (h : ∀ a ∈ as, read (write a) = okIf (condition a) problem a)
    : (array (as.map write) true).list read = okIf (as.all condition) problem as := by
  simp only [list, mapM_map h]
  cases as.all condition <;> rfl

end Value

end Json

open Json (IsReadBack Number Problem Quoted RecordField Value)

def IsIndex (token : TokenId) : Prop := 0 ≤ token ∧ token < wordCount 63

theorem IsIndex.neg_le {token : TokenId} (h : IsIndex token) : -(wordCount 63 : Int) ≤ token :=
  Int.le_trans (by omega) h.1

namespace ScoredToken

theorem areDistinct_fields : RecordField.AreDistinct fields := by
  simp [RecordField.AreDistinct, fields, RecordField.isNamed]

theorem ofValue_toValue {t : ScoredToken} (htoken : IsIndex t.token) (hscore : IsReadBack t.score)
    : ofValue t.toValue = okIf t.score.isFinite .badValue t := by
  have hassign : RecordField.assign
      (fields.zip [.integer t.token, Value.ofFloat32 t.score]) (⟨0, 0⟩ : ScoredToken)
      = okIf t.score.isFinite .badValue t := by
    simp only [fields, RecordField.assign, List.zip_cons_cons, List.zip_nil_right,
      List.foldlM_cons, List.foldlM_nil]
    rw [Value.signed_eq_ok_iff.mpr ⟨rfl, htoken.neg_le, htoken.2⟩, Value.float32_ofFloat32 hscore]
    cases t.score.isFinite <;> rfl
  exact (areDistinct_fields.record_zip rfl _).trans hassign

theorem isWritten_toValue (t : ScoredToken) : t.toValue.IsWritten := by
  refine .object ?_ ?_
  . simp only [List.forall_mem_cons]
    exact ⟨⟨_, rfl⟩, ⟨_, rfl⟩, List.forall_mem_nil _⟩
  . simp only [List.forall_mem_cons]
    exact ⟨.number _, Value.isWritten_ofFloat32 _, List.forall_mem_nil _⟩

end ScoredToken

namespace Transitions

section Keys

theorem toList_toString (source : TokenId)
    : (toString source).toList = Number.render ⟨source < 0, source.natAbs, 0, none⟩ := by
  rw [Number.render_of_integer]
  cases source with
  | ofNat n =>
    have hsign : ¬(Int.ofNat n < 0) := Int.not_lt.mpr (Int.natCast_nonneg n)
    rw [decide_eq_false hsign]
    exact Nat.toList_repr
  | negSucc n =>
    have hsign : Int.negSucc n < 0 := Int.negSucc_lt_zero n
    rw [decide_eq_true hsign]
    have hstring : toString (Int.negSucc n) = "-" ++ (n + 1).repr := rfl
    rw [hstring, String.toList_append, Nat.toList_repr]
    rfl

theorem keyOfQuoted_toString {source : TokenId} (h : IsIndex source)
    : keyOfQuoted (.ofString (toString source)) = .ok source := by
  -- The name of a token identifier is read as the identifier: it begins like a number, and holds
  -- nothing that is escaped.
  let n : Number := ⟨source < 0, source.natAbs, 0, none⟩
  have hraw : (Quoted.ofString (toString source)).raw = n.render := by
    rw [Quoted.ofString, toList_toString]
    exact Quoted.flatMap_escape_of_isPlain fun c hc => Quoted.isPlain_of_mem_render hc
  have hscan : Number.scan? n.render = some (n, []) := by
    have := n.scan?_render Number.isEnd_nil
    rwa [List.append_nil] at this
  rcases n.exists_render_eq_cons with ⟨c, cs, heq, hc⟩
  unfold keyOfQuoted
  rw [hraw, hscan, heq]
  simp only [hc.symm, if_true]
  rw [show (Value.number n).signed = .ok source from
    Value.signed_eq_ok_iff.mpr ⟨rfl, h.neg_le, h.2⟩]
  rfl

end Keys

section Tables

variable {source : TokenId} {targets : List ScoredToken} {table entries : Transitions}

def IsSorted (table : Transitions) : Prop := table.Pairwise (·.1 < ·.1)

instance (table : Transitions) : Decidable table.IsSorted :=
  inferInstanceAs (Decidable (List.Pairwise _ _))

theorem mem_set {entry : TokenId × List ScoredToken} (h : entry ∈ set source targets table)
    : entry = (source, targets) ∨ entry ∈ table := by
  induction table with
  | nil => exact .inl (List.mem_singleton.mp h)
  | cons first rest ih =>
    unfold set at h
    split_ifs at h
    . exact List.mem_cons.mp h
    . rcases List.mem_cons.mp h with heq | hmem
      . exact .inl heq
      . exact .inr (List.mem_cons_of_mem _ hmem)
    . rcases List.mem_cons.mp h with rfl | hmem
      . exact .inr List.mem_cons_self
      . exact (ih hmem).imp_right (List.mem_cons_of_mem _)

theorem IsSorted.set (h : table.IsSorted) : (set source targets table).IsSorted := by
  induction h with
  | nil => exact List.pairwise_singleton _ _
  | @cons first rest hfirst hrest ih =>
    unfold Transitions.set
    split_ifs with hlt heq
    . refine .cons (fun entry hentry => ?_) (.cons hfirst hrest)
      rcases List.mem_cons.mp hentry with rfl | hmem
      . exact hlt
      . exact Int.lt_trans hlt (hfirst entry hmem)
    . refine .cons (fun entry hentry => ?_) hrest
      rw [heq]
      exact hfirst entry hentry
    . refine .cons (fun entry hentry => ?_) ih
      rcases mem_set hentry with rfl | hmem
      . exact Int.lt_iff_le_and_ne.mpr ⟨Int.not_lt.mp hlt, Ne.symm heq⟩
      . exact hfirst entry hmem

theorem set_perm (h : ∀ entry ∈ table, entry.1 ≠ source)
    : (set source targets table).Perm ((source, targets) :: table) := by
  induction table with
  | nil => exact .refl _
  | cons first rest ih =>
    unfold set
    split_ifs with hlt heq
    . exact .refl _
    . exact absurd heq.symm (h first List.mem_cons_self)
    . have hrest := ih fun entry hentry => h entry (List.mem_cons_of_mem _ hentry)
      exact (hrest.cons first).trans (.swap _ _ _)

def setAll (entries table : Transitions) : Transitions :=
  entries.foldl (fun table entry => set entry.1 entry.2 table) table

theorem IsSorted.setAll (h : table.IsSorted) : (setAll entries table).IsSorted := by
  induction entries generalizing table with
  | nil => exact h
  | cons entry entries ih => exact ih h.set

theorem setAll_perm (hdistinct : entries.Pairwise (·.1 ≠ ·.1))
    (hnew : ∀ entry ∈ entries, ∀ other ∈ table, other.1 ≠ entry.1)
    : (setAll entries table).Perm (entries ++ table) := by
  induction hdistinct generalizing table with
  | nil => exact .refl _
  | @cons entry entries hentry hentries ih =>
    have hset : (set entry.1 entry.2 table).Perm (entry :: table) :=
      set_perm (hnew entry List.mem_cons_self)
    have hlater : ∀ later ∈ entries, ∀ other ∈ set entry.1 entry.2 table, other.1 ≠ later.1 := by
      intro later hlater other hother
      rcases mem_set hother with rfl | hmem
      . exact hentry later hlater
      . exact hnew later (List.mem_cons_of_mem _ hlater) other hmem
    exact (ih hlater).trans ((hset.append_left entries).trans List.perm_middle)

theorem setAll_eq (hsorted : table.IsSorted) (hperm : entries.Perm table)
    : setAll entries [] = table := by
  have hne : table.Pairwise (·.1 ≠ ·.1) := hsorted.imp Int.ne_of_lt
  have hdistinct : entries.Pairwise (·.1 ≠ ·.1) := hperm.symm.pairwise hne Ne.symm
  have hall : (setAll entries []).Perm table := by
    have hnew : ∀ entry ∈ entries, ∀ other ∈ ([] : Transitions), other.1 ≠ entry.1 :=
      fun _ _ _ hmem => absurd hmem List.not_mem_nil
    have := setAll_perm hdistinct hnew
    rw [List.append_nil] at this
    exact this.trans hperm
  refine List.Perm.eq_of_pairwise (fun a b _ _ hab hba => ?_) (IsSorted.setAll .nil) hsorted hall
  exact absurd hba (Int.lt_asymm hab)

end Tables

section Reading

variable {entries table : Transitions}

structure IsStorable (entries : Transitions) : Prop where
  source : ∀ entry ∈ entries, IsIndex entry.1
  target : ∀ entry ∈ entries, ∀ t ∈ entry.2, IsIndex t.token
  score : ∀ entry ∈ entries, ∀ t ∈ entry.2, IsReadBack t.score

theorem IsStorable.of_perm (h : IsStorable table) (hperm : entries.Perm table)
    : IsStorable entries where
  source := fun entry hentry => h.source entry (hperm.mem_iff.mp hentry)
  target := fun entry hentry => h.target entry (hperm.mem_iff.mp hentry)
  score := fun entry hentry => h.score entry (hperm.mem_iff.mp hentry)

def isFinite (entries : Transitions) : Bool :=
  entries.all fun entry => entry.2.all fun t => t.score.isFinite

def member (entry : TokenId × List ScoredToken) : Quoted × Value :=
  (.ofString (toString entry.1), .array (entry.2.map ScoredToken.toValue) true)

theorem ofMembers_map_member (h : IsStorable entries)
    : ofMembers (entries.map member) table
        =
      okIf (isFinite entries) .badValue (setAll entries table) := by
  induction entries generalizing table with
  | nil => rfl
  | cons entry entries ih =>
    have hkey := keyOfQuoted_toString (h.source entry List.mem_cons_self)
    have htargets : (Value.array (entry.2.map ScoredToken.toValue) true).list ScoredToken.ofValue
        = okIf (entry.2.all fun t => t.score.isFinite) .badValue entry.2 :=
      Value.list_map fun t ht => ScoredToken.ofValue_toValue
        (h.target entry List.mem_cons_self t ht) (h.score entry List.mem_cons_self t ht)
    have hrest : IsStorable entries := by
      constructor
      . exact fun e he => h.source e (List.mem_cons_of_mem _ he)
      . exact fun e he => h.target e (List.mem_cons_of_mem _ he)
      . exact fun e he => h.score e (List.mem_cons_of_mem _ he)
    rw [List.map_cons, member, ofMembers, hkey, htargets, bind_of_ok rfl]
    exact okIf_bind (ih hrest)

theorem toValue_eq (entries : Transitions)
    : toValue entries = .object (entries.map member) true := rfl

theorem ofValue_toValue (h : IsStorable entries)
    : ofValue (toValue entries) = okIf (isFinite entries) .badValue (setAll entries []) := by
  simp only [toValue_eq, ofValue, ofMembers_map_member h]
  cases isFinite entries <;> rfl

theorem isWritten_toValue (entries : Transitions) : (toValue entries).IsWritten := by
  refine .object ?_ ?_
  . simp only [List.forall_mem_map]
    exact fun entry _ => ⟨_, rfl⟩
  . simp only [List.forall_mem_map]
    intro entry _
    refine .array ?_
    simp only [List.forall_mem_map]
    exact fun t _ => t.isWritten_toValue

end Reading

end Transitions

namespace BigramModel

variable {model : BigramModel}

theorem areDistinct_fields : RecordField.AreDistinct fields := by
  simp [RecordField.AreDistinct, fields, RecordField.isNamed]

theorem isWritten_toValue (model : BigramModel) : model.toValue.IsWritten := by
  refine .object ?_ ?_
  . simp only [List.forall_mem_cons]
    exact ⟨⟨_, rfl⟩, ⟨_, rfl⟩, ⟨_, rfl⟩, ⟨_, rfl⟩, ⟨_, rfl⟩, ⟨_, rfl⟩, ⟨_, rfl⟩,
      List.forall_mem_nil _⟩
  . simp only [List.forall_mem_cons]
    exact ⟨.number _, .number _, .number _, .number _, Value.isWritten_ofFloat32 _,
      Value.isWritten_ofFloat32 _, Transitions.isWritten_toValue _, List.forall_mem_nil _⟩

theorem isIndex_of_inVocabulary {token : TokenId} (h : model.inVocabulary token = true)
    : IsIndex token := by
  rcases inVocabulary_iff.mp h with ⟨hnonneg, hlt⟩
  refine ⟨hnonneg, Int.lt_of_lt_of_le hlt ?_⟩
  unfold vocabularyEnd
  have : wordCount 64 = 18446744073709551616 := rfl
  have : wordCount 63 = 9223372036854775808 := rfl
  have := Int.bmod_lt (x := model.shape.vocabSize) (m := wordCount 64) (by omega)
  omega

def scoresIn (model : BigramModel) : List Float32 :=
  model.defaultScore :: model.repeatBonus :: model.transitions.flatMap fun entry =>
    entry.2.map (·.score)

structure IsRepresented (model : BigramModel) : Prop where
  layerCount : model.shape.layerCount < wordCount 64
  kvHeadCount : model.shape.kvHeadCount < wordCount 64
  headDim : model.shape.headDim < wordCount 64
  vocabSize : model.shape.vocabSize < wordCount 64
  transitions : Transitions.IsSorted model.transitions

structure IsSavedIn (storage : Storage) (directory : String) (model : BigramModel) : Prop where
  isDirectory : storage directory = some .directory
  holds : ∃ entries, List.Perm entries model.transitions
    ∧ storage (Path.join directory fileName) = some (save { model with transitions := entries })

theorem all_scoresIn (model : BigramModel)
    : model.scoresIn.all (·.isFinite)
        =
      (model.defaultScore.isFinite
        && (model.repeatBonus.isFinite && Transitions.isFinite model.transitions)) := by
  simp [scoresIn, Transitions.isFinite, List.all_flatMap, Function.comp_def]

theorem isStorable_of_validate (hvalid : model.validate = .ok ())
    (hscores : ∀ x ∈ model.scoresIn, IsReadBack x)
    : Transitions.IsStorable model.transitions := by
  have hclosed := isClosed_of_validate hvalid
  simp only [isClosed, Bool.and_eq_true, List.all_eq_true] at hclosed
  constructor
  . exact fun entry hentry => isIndex_of_inVocabulary (hclosed entry hentry).1
  . exact fun entry hentry t ht => isIndex_of_inVocabulary ((hclosed entry hentry).2 t ht)
  . intro entry hentry t ht
    refine hscores t.score ?_
    have : t.score ∈ model.transitions.flatMap fun entry => entry.2.map (·.score) :=
      List.mem_flatMap.mpr ⟨entry, hentry, List.mem_map_of_mem ht⟩
    exact List.mem_cons_of_mem _ (List.mem_cons_of_mem _ this)

theorem ofValue_toValue (hmodel : model.IsRepresented) {entries : Transitions}
    (hentries : Transitions.IsStorable entries) (hdefault : IsReadBack model.defaultScore)
    (hbonus : IsReadBack model.repeatBonus)
    : ofValue (toValue { model with transitions := entries })
        =
      okIf (model.defaultScore.isFinite
          && (model.repeatBonus.isFinite && Transitions.isFinite entries))
        .badValue { model with transitions := Transitions.setAll entries [] } := by
  have hassign : RecordField.assign
      (fields.zip [
        .natural model.shape.layerCount,
        .natural model.shape.kvHeadCount,
        .natural model.shape.headDim,
        .natural model.shape.vocabSize,
        .ofFloat32 model.defaultScore,
        .ofFloat32 model.repeatBonus,
        Transitions.toValue entries
      ]) (.ofShape ⟨0, 0, 0, 0⟩)
      = okIf (model.defaultScore.isFinite
          && (model.repeatBonus.isFinite && Transitions.isFinite entries))
        .badValue { model with transitions := Transitions.setAll entries [] } := by
    simp only [fields, RecordField.assign, List.zip_cons_cons, List.zip_nil_right,
      List.foldlM_cons, List.foldlM_nil]
    rw [
      Value.word_eq_ok_iff.mpr ⟨rfl, hmodel.layerCount⟩,
      Value.word_eq_ok_iff.mpr ⟨rfl, hmodel.kvHeadCount⟩,
      Value.word_eq_ok_iff.mpr ⟨rfl, hmodel.headDim⟩,
      Value.word_eq_ok_iff.mpr ⟨rfl, hmodel.vocabSize⟩,
      Value.float32_ofFloat32 hdefault,
      Value.float32_ofFloat32 hbonus,
      Transitions.ofValue_toValue hentries
    ]
    cases model.defaultScore.isFinite with
    | false => rfl
    | true =>
      cases model.repeatBonus.isFinite with
      | false => rfl
      | true => cases Transitions.isFinite entries <;> rfl
  exact (areDistinct_fields.record_zip rfl _).trans hassign

theorem parse_encode_render {saved : BigramModel} {condition : Bool}
    (hread : ofValue saved.toValue = okIf condition .badValue model)
    (hvalid : model.validate = .ok ())
    : parse (Utf8.encode saved.render) = okIf condition (.document .badValue) model := by
  have hdocument : Json.parseUnits (Utf8.units (Utf8.encode saved.render))
      = ⟨saved.toValue, true⟩ := saved.isWritten_toValue.parseUnits_encode
  simp only [parse, hdocument, Json.Document.decode, hread]
  cases condition with
  | false => rfl
  | true =>
    simp only [okIf, if_true, bind_of_ok rfl, mapError_ok, hvalid]
    rfl

theorem load_of_isDirectory {storage : Storage} {directory : String} {contents : List UInt8}
    (hdirectory : storage directory = some .directory)
    (hfile : storage (Path.join directory fileName) = some (.file contents))
    : load storage directory = (parse contents).mapError .invalidModel := by
  have hresolve : storage.resolve directory fileName = Path.join directory fileName := by
    simp [Storage.resolve, Storage.isDirectory, hdirectory]
  simp only [load, load?, hresolve, hfile]
  cases parse contents <;> rfl

/--
A saved model is loaded as it was, if all its scores are finite. Any other model that is saved
cannot be loaded again, although it has no flaw.
-/
theorem load_of_isSavedIn {storage : Storage} {directory : String} (hmodel : model.IsRepresented)
    (hvalid : model.validate = .ok ()) (hscores : ∀ x ∈ model.scoresIn, IsReadBack x)
    (hsaved : IsSavedIn storage directory model)
    : load storage directory
        =
      if model.scoresIn.all (·.isFinite) then
        .ok model
      else
        .error (.invalidModel (.document .badValue)) := by
  rcases hsaved.holds with ⟨entries, hperm, hfile⟩
  -- What is read are the entries in the order of the file, which the table puts in its own order.
  have hstorable := (isStorable_of_validate hvalid hscores).of_perm hperm
  have hread := ofValue_toValue hmodel hstorable (hscores _ List.mem_cons_self)
    (hscores _ (List.mem_cons_of_mem _ List.mem_cons_self))
  have hall : Transitions.isFinite entries = Transitions.isFinite model.transitions := hperm.all_eq
  rw [Transitions.setAll_eq hmodel.transitions hperm, hall, ← all_scoresIn] at hread
  rw [load_of_isDirectory hsaved.isDirectory hfile, parse_encode_render hread hvalid]
  cases model.scoresIn.all (·.isFinite) <;> rfl

def savedStorage (saved : BigramModel) : Storage := fun path =>
  if path = "models" then some .directory
  else if path = "models/model.json" then some saved.save
  else none

theorem savedStorage_join (saved : BigramModel)
    : savedStorage saved (Path.join "models" fileName) = some saved.save := by
  have hpath : Path.join "models" fileName = "models/model.json" := by decide +kernel
  rw [hpath, savedStorage, if_neg (by decide), if_pos rfl]

theorem isSavedIn_savedStorage (model : BigramModel) {entries : Transitions}
    (hperm : List.Perm entries model.transitions)
    : IsSavedIn (savedStorage { model with transitions := entries }) "models" model :=
  ⟨if_pos rfl, entries, hperm, savedStorage_join _⟩

def scoredModel : BigramModel where
  shape := ⟨1, 1, 1, 3⟩
  defaultScore := .ofBits 0x80000000
  repeatBonus := .ofBits 1
  transitions := [(0, [⟨1, .ofBits 0x7f7fffff⟩, ⟨2, 0.1⟩]), (2, [])]

def scoredEntries : Transitions := scoredModel.transitions.reverse

theorem load_scoredModel
    : scoredModel.validate = .ok ()
        ∧ load (savedStorage { scoredModel with transitions := scoredEntries }) "models"
          = .ok scoredModel := by
  have hmodel : scoredModel.IsRepresented := by
    constructor <;> decide
  have hvalid : scoredModel.validate = .ok () := by decide
  have hscores : ∀ x ∈ scoredModel.scoresIn, IsReadBack x := by
    decide +kernel
  have hsaved : IsSavedIn (savedStorage { scoredModel with transitions := scoredEntries }) "models"
      scoredModel := isSavedIn_savedStorage scoredModel (List.reverse_perm _)
  refine ⟨hvalid, ?_⟩
  exact (load_of_isSavedIn hmodel hvalid hscores hsaved).trans (if_pos (by decide +kernel))

def infiniteModel : BigramModel :=
  { ofShape ⟨1, 1, 1, 1⟩ with transitions := [(0, [⟨0, Binary32.infinity⟩])] }

theorem not_forall_load_eq_ok
    : ¬∀ (storage : Storage) (directory : String) (model : BigramModel), model.IsRepresented →
        model.validate = .ok () → (∀ x ∈ model.scoresIn, IsReadBack x) →
        IsSavedIn storage directory model → load storage directory = .ok model := by
  intro h
  have hmodel : infiniteModel.IsRepresented := by
    constructor <;> decide
  have hvalid : infiniteModel.validate = .ok () := by decide
  have hscores : ∀ x ∈ infiniteModel.scoresIn, IsReadBack x := by decide +kernel
  have hsaved : IsSavedIn (savedStorage infiniteModel) "models" infiniteModel :=
    isSavedIn_savedStorage infiniteModel (.refl _)
  have hnull : ofValue infiniteModel.toValue = okIf false .badValue infiniteModel := by
    decide +kernel
  have hload := h _ _ _ hmodel hvalid hscores hsaved
  rw [load_of_isDirectory hsaved.isDirectory (savedStorage_join infiniteModel)] at hload
  rw [parse_encode_render hnull hvalid] at hload
  exact nomatch hload

end BigramModel

end TextGen
