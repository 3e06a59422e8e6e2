import TextGen.Json.Reader
import TextGen.Proofs.Except
import TextGen.Proofs.Json.Spelling

/-!
This module contains how the members of an object are read into a record: one after the other, each
by the field that it belongs to. In a strict record every member belongs to a field, and no two
members to the same one.
-/

namespace TextGen.Json

namespace RecordField

variable {ρ : Type} {fields : List (RecordField ρ)} {strict : Bool}
variable {key : Quoted} {value : Value} {members : List (Quoted × Value)}
variable {seen : List String} {record : ρ} {result : List String × ρ}

def fieldName? (fields : List (RecordField ρ)) (key : Quoted) : Option String := do
  let name ← key.text?
  let field ← fields.find? (·.isNamed name)
  return field.name

theorem fieldName?_eq {name : String} {field : RecordField ρ} (hname : key.text? = some name)
    (hfield : fields.find? (·.isNamed name) = some field)
    : fieldName? fields key = some field.name := by
  simp [fieldName?, hname, hfield]

theorem readMembers_cons_eq_bind {name : String} {field : RecordField ρ}
    (hname : key.text? = some name) (hfield : fields.find? (·.isNamed name) = some field)
    (hseen : field.name ∉ seen)
    : readMembers fields strict ((key, value) :: members) seen record
        =
      field.read value record >>= readMembers fields strict members (field.name :: seen) := by
  cases hread : field.read value record <;>
    simp [readMembers, hname, hfield, hseen, hread, Bind.bind, Except.bind]

theorem record_of_readMembers (hread : readMembers fields strict members [] record = .ok result)
    (hrequired : ∀ field ∈ fields, field.required = true → field.name ∈ result.1)
    : Value.record fields strict record (.object members true) = .ok result.2 := by
  have hnone : fields.find? (fun field => field.required && !decide (field.name ∈ result.1))
      = none := by
    simpa using hrequired
  simp [Value.record, hread, hnone, Bind.bind, Except.bind]

theorem record_of_readMembers_error {problem : Problem}
    (hread : readMembers fields strict members [] record = .error problem) (closed : Bool)
    : Value.record fields strict record (.object members closed) = .error problem := by
  simp [Value.record, hread, Bind.bind, Except.bind]

/-! ## Records written in the order of their fields -/

def AreDistinct (fields : List (RecordField ρ)) : Prop :=
  fields.Pairwise fun field later => field.isNamed later.name = false

theorem isNamed_name (field : RecordField ρ) : field.isNamed field.name = true := by simp [isNamed]

theorem AreDistinct.find?_eq (h : AreDistinct fields) {field : RecordField ρ}
    (hmem : field ∈ fields)
    : fields.find? (·.isNamed field.name) = some field := by
  induction h with
  | nil => exact absurd hmem List.not_mem_nil
  | cons hfirst hrest ih =>
    rcases List.mem_cons.mp hmem with rfl | hlater
    . exact List.find?_cons_of_pos field.isNamed_name
    . rw [List.find?_cons_of_neg (by simp [hfirst field hlater])]
      exact ih hlater

theorem AreDistinct.pairwise_name_ne (h : AreDistinct fields)
    : fields.Pairwise fun field later => field.name ≠ later.name :=
  h.imp fun {field later} hnamed heq => by simp [← heq, isNamed_name] at hnamed

def member (assignment : RecordField ρ × Value) : Quoted × Value :=
  (.ofString assignment.1.name, assignment.2)

def assign (assignments : List (RecordField ρ × Value)) (record : ρ) : Except Problem ρ :=
  assignments.foldlM (fun record assignment => assignment.1.read assignment.2 record) record

theorem AreDistinct.readMembers_map_member (h : AreDistinct fields)
    {assignments : List (RecordField ρ × Value)} (hmem : ∀ a ∈ assignments, a.1 ∈ fields)
    (hdistinct : assignments.Pairwise fun a b => a.1.name ≠ b.1.name)
    (hseen : ∀ a ∈ assignments, a.1.name ∉ seen)
    : readMembers fields strict (assignments.map member) seen record
        =
      (assign assignments record).map (((assignments.map (·.1.name)).reverse ++ seen, ·)) := by
  induction hdistinct generalizing seen record with
  | nil => rfl
  | @cons a as hfirst hrest ih =>
    have hfield := h.find?_eq (hmem a List.mem_cons_self)
    have hstep : readMembers fields strict ((a :: as).map member) seen record
        = a.1.read a.2 record >>= readMembers fields strict (as.map member) (a.1.name :: seen) :=
      readMembers_cons_eq_bind (Quoted.text?_ofString _) hfield (hseen a List.mem_cons_self)
    rw [hstep, assign, List.foldlM_cons]
    cases hread : a.1.read a.2 record with
    | error problem => rfl
    | ok next =>
      have hlater : ∀ b ∈ as, b.1.name ∉ a.1.name :: seen := by
        intro b hb
        rw [List.mem_cons, not_or]
        exact ⟨(hfirst b hb).symm, hseen b (List.mem_cons_of_mem _ hb)⟩
      have hfields := fun b hb => hmem b (List.mem_cons_of_mem a hb)
      rw [bind_of_ok rfl, bind_of_ok rfl, ih hfields hlater]
      rw [List.map_cons, List.reverse_cons, List.append_assoc]
      rfl

theorem AreDistinct.record_zip (h : AreDistinct fields) {values : List Value}
    (hlength : fields.length = values.length) (record : ρ)
    : Value.record fields strict record (.object ((fields.zip values).map member) true)
        =
      assign (fields.zip values) record := by
  have hfst : (fields.zip values).map (·.1) = fields := List.map_fst_zip (Nat.le_of_eq hlength)
  have hmem : ∀ a ∈ fields.zip values, a.1 ∈ fields := fun a ha => (List.of_mem_zip ha).1
  have hdistinct : (fields.zip values).Pairwise fun a b => a.1.name ≠ b.1.name := by
    have := h.pairwise_name_ne
    rw [← hfst, List.pairwise_map] at this
    exact this
  have hread : readMembers fields strict ((fields.zip values).map member) [] record
      = (assign (fields.zip values) record).map
          ((((fields.zip values).map (·.1.name)).reverse ++ [], ·)) :=
    h.readMembers_map_member hmem hdistinct fun _ _ => List.not_mem_nil
  cases hassign : assign (fields.zip values) record with
  | error problem =>
    rw [hassign] at hread
    exact record_of_readMembers_error hread true
  | ok result =>
    rw [hassign] at hread
    refine record_of_readMembers hread fun field hfield _ => ?_
    rw [List.append_nil, List.mem_reverse]
    rw [← hfst, List.mem_map] at hfield
    rcases hfield with ⟨a, ha, rfl⟩
    exact List.mem_map_of_mem ha

end RecordField

end TextGen.Json
