import TextGen.Proofs.Backend.Acceptance

/-!
This module contains the forward pass with every read made explicit: a read of something that is not
there gives no outputs at all, where the pass itself would stop the program. Over inputs that pass
the checks, all reads of a valid model succeed and give the outputs of the pass.
-/

namespace TextGen

theorem mapM_eq_some {f : α → Option β} {g : α → β} {xs : List α}
    (h : ∀ x ∈ xs, f x = some (g x)) : xs.mapM f = some (xs.map g) := by
  induction xs with
  | nil => rfl
  | cons x xs ih =>
    have hrest := ih fun other hother => h other (List.mem_cons_of_mem _ hother)
    rw [List.mapM_cons, h x List.mem_cons_self, hrest]
    rfl

namespace Grid

variable {α : Type}

def ofReads? (shape : List Nat) (f : List Nat → Option α) : Option (Grid α) := do
  ofList? shape (← (places shape).mapM f)

theorem ofList?_map_places (shape : List Nat) (f : List Nat → α)
    : ofList? shape ((places shape).map f) = some (ofFn shape f) := by
  have hlength : ((places shape).map f).length = volume shape := by
    rw [List.length_map, length_places]
  unfold ofList?
  rw [dif_pos hlength]
  rfl

theorem ofReads?_eq_some {shape : List Nat} {f : List Nat → Option α} {g : List Nat → α}
    (h : ∀ place ∈ places shape, f place = some (g place))
    : ofReads? shape f = some (ofFn shape g) := by
  unfold ofReads?
  rw [mapM_eq_some h, Option.bind_eq_bind, Option.bind_some, ofList?_map_places]

theorem get?_of_mem_places {g : Grid α} {place : List Nat} (value : α)
    (h : place ∈ places g.shape) : g.get? place = some (g.getD place value) := by
  rcases getElem?_places h with ⟨i, hposition, hplace⟩
  have hi : i < g.entries.size := by
    rw [g.size_entries, ← length_places]
    exact (List.getElem?_eq_some_iff.mp hplace).1
  simp [getD, get?, hposition, hi]

end Grid

/-! ## Scores -/

namespace BigramModel

def readRaised? (model : BigramModel) (row : List Float32) (target : ScoredToken) :
    Option (List Float32) := do
  let score ← if 0 ≤ target.token then row[target.token.toNat]? else none
  return row.set target.token.toNat (score + (target.score - model.defaultScore))

def readScores? (model : BigramModel) (previous : TokenId) (seen : List Nat) :
    Option (List Float32) :=
  let row := List.replicate model.shape.vocabSize model.defaultScore
  let row :=
    if model.repeatBonus == 0 then row
    else seen.foldl (fun row i => row.set i (model.defaultScore + model.repeatBonus)) row
  (Transitions.targets model.transitions previous).foldlM model.readRaised? row

theorem readRaised?_eq_some (model : BigramModel) {row : List Float32} {target : ScoredToken}
    (hnonneg : 0 ≤ target.token) (hlt : target.token.toNat < row.length)
    : model.readRaised? row target
        =
      some (row.modify target.token.toNat fun score =>
        score + (target.score - model.defaultScore)) := by
  unfold readRaised?
  rw [if_pos hnonneg, List.modify_eq_set_getElem?, List.getElem?_eq_getElem hlt]
  rfl

theorem foldlM_readRaised? (model : BigramModel) {targets : List ScoredToken} {row : List Float32}
    (h : ∀ target ∈ targets, 0 ≤ target.token ∧ target.token.toNat < row.length)
    : targets.foldlM model.readRaised? row
        =
      some (targets.foldl
        (fun row target =>
          row.modify target.token.toNat fun score => score + (target.score - model.defaultScore))
        row) := by
  induction targets generalizing row with
  | nil => rfl
  | cons target targets ih =>
    have hfirst := h target List.mem_cons_self
    rw [List.foldlM_cons, readRaised?_eq_some model hfirst.1 hfirst.2, Option.bind_eq_bind,
      Option.bind_some, ih]
    . rfl
    . intro other hother
      rw [List.length_modify]
      exact h other (List.mem_cons_of_mem _ hother)

theorem readScores?_eq_some {model : BigramModel} (h : model.validate = .ok ())
    (previous : TokenId) (seen : List Nat)
    : model.readScores? previous seen = some (model.scores previous seen) := by
  unfold readScores? scores
  apply foldlM_readRaised?
  intro target htarget
  have hin := inVocabulary_of_mem_targets h htarget
  refine ⟨(inVocabulary_iff.mp hin).1, ?_⟩
  have hlt := toNat_lt_of_inVocabulary hin
  split
  . rwa [List.length_replicate]
  . rwa [length_foldl_set, List.length_replicate]

end BigramModel

namespace Request

/-! ## The forward pass -/

def readGrown? (shape : ModelShape) (past : Nat) (cached : Grid Float32) (added : Array Float32) :
    Option (Grid Float32) := do
  guard (cached.shape = shape.kvShape past)
  Grid.ofReads? (shape.kvShape (past + added.size)) fun
    | [batch, head, position, component] =>
      if position < past then cached.get? [batch, head, position, component]
      else added[position - past]?
    | _ => none

def readLayers? (shape : ModelShape) (past : Nat) (tokens : List TokenId)
    (layers : List (Grid Float32 × Grid Float32)) : Option (List (Grid Float32 × Grid Float32)) :=
  let keys := (tokens.map Float32.ofInt).toArray
  let values := ((List.range tokens.length).map fun i => Float32.ofNat (past + i)).toArray
  layers.mapM fun (key, value) => do
    return (← readGrown? shape past key keys, ← readGrown? shape past value values)

def readSeen? (key : Grid Float32) : Option (List Nat) :=
  (List.range (key.extent 2)).mapM fun position =>
    (key.get? [0, 0, position, 0]).map Binary32.toIndex

def readRows? (model : BigramModel) (tokens : List TokenId) (seen : List Nat)
    (past inputLength : Nat) : Option (List (List Float32)) :=
  (List.range inputLength).mapM fun position => do
    let token ← tokens[position]?
    guard (past + position + 1 ≤ seen.length)
    model.readScores? token (seen.take (past + position + 1))

def readOutputs? (model : BigramModel) (past inputLength : Nat) (tokens : List TokenId)
    (layers : List (Grid Float32 × Grid Float32)) : Option Bindings := do
  let presents ← readLayers? model.shape past tokens layers
  let first ← presents.head?
  let seen ← readSeen? first.1
  guard (0 < model.shape.vocabSize)
  let rows ← readRows? model tokens seen past inputLength
  let logits ← Grid.ofList? [1, inputLength, model.shape.vocabSize] rows.flatten
  return ⟨(.logits, .floats logits) :: presentOutputs presents⟩

def readLastRow? (logits : Grid Float32) (inputLength vocabSize : Nat) : Option (List Float32) := do
  guard (0 < inputLength)
  (List.range vocabSize).mapM fun token => logits.get? [0, inputLength - 1, token]

variable {r : Request} {rows count past : Nat} {tokens : List TokenId} {ids : Grid Int}
variable {cached : List (Grid Float32 × Grid Float32)}

theorem readGrown?_eq_some {shape : ModelShape} {grid : Grid Float32} (added : Array Float32)
    (hshape : grid.shape = shape.kvShape past)
    : readGrown? shape past grid added = some (grow shape past grid added) := by
  unfold readGrown?
  rw [hshape]
  simp only [guard, if_true, Option.pure_def, Option.bind_eq_bind, Option.bind_some]
  apply Grid.ofReads?_eq_some
  intro place hplace
  rcases ModelShape.mem_places_kvShape.mp hplace with
    ⟨head, position, component, rfl, hhead, hposition, hcomponent⟩
  dsimp only
  split
  . next hold =>
    apply Grid.get?_of_mem_places
    rw [hshape, ModelShape.mem_places_kvShape]
    exact ⟨head, position, component, rfl, hhead, hold, hcomponent⟩
  . have hi : position - past < added.size := by omega
    simp [hi]

theorem readLayers?_eq_some {shape : ModelShape} (tokens : List TokenId)
    (h : ∀ layer ∈ cached, layer.1.shape = shape.kvShape past
      ∧ layer.2.shape = shape.kvShape past)
    : readLayers? shape past tokens cached = some (growLayers shape past tokens cached) := by
  unfold readLayers? growLayers
  apply mapM_eq_some
  intro layer hlayer
  dsimp only
  rw [readGrown?_eq_some _ (h layer hlayer).1, readGrown?_eq_some _ (h layer hlayer).2]
  rfl

theorem readSeen?_eq_some {key : Grid Float32}
    (h : ∀ position < key.extent 2, [0, 0, position, 0] ∈ places key.shape)
    : readSeen? key = some (seenTokens key) := by
  unfold readSeen? seenTokens
  apply mapM_eq_some
  intro position hposition
  rw [Grid.get?_of_mem_places 0 (h position (List.mem_range.mp hposition))]
  rfl

theorem readRows?_eq_some {model : BigramModel} (hvalid : model.validate = .ok ()) {seen : List Nat}
    (htokens : count ≤ tokens.length) (hseen : past + count ≤ seen.length)
    : readRows? model tokens seen past count
        =
      some (scoreRows model (tokens.take count) seen past) := by
  have hread : readRows? model tokens seen past count
      = some ((List.range count).map fun position =>
        model.scores (tokens.getD position 0) (seen.take (past + position + 1))) := by
    unfold readRows?
    apply mapM_eq_some
    intro position hposition
    rw [List.mem_range] at hposition
    have hlt : position < tokens.length := by omega
    have hslice : past + position + 1 ≤ seen.length := by omega
    simp [guard, hlt, hslice, BigramModel.readScores?_eq_some hvalid]
  rw [hread, scoreRows]
  congr 1
  apply List.ext_getElem
  . simp [htokens]
  . intro position hposition _
    rw [List.length_map, List.length_range] at hposition
    have hlt : position < tokens.length := by omega
    simp [hlt]

theorem map_places_three (f : List Nat → Float32) (count vocabSize : Nat)
    : (places [1, count, vocabSize]).map f
        =
      (List.range count).flatMap fun position =>
        (List.range vocabSize).map fun token => f [0, position, token] := by
  simp [places, List.map_eq_flatMap, List.flatMap_assoc]

theorem ofList?_flatten {vocabSize : Nat} {rows : List (List Float32)}
    (hrows : rows.length = count) (hrow : ∀ row ∈ rows, row.length = vocabSize)
    : Grid.ofList? [1, count, vocabSize] rows.flatten = some (scoreGrid count vocabSize rows) := by
  have hrange : rows = (List.range count).map fun position =>
      (List.range vocabSize).map fun token =>
        ((rows.map List.toArray).toArray.getD position #[]).getD token 0 := by
    apply List.ext_getElem
    . simp [hrows]
    . intro position hposition _
      have hget : (rows.map List.toArray).toArray.getD position #[] = rows[position].toArray := by
        simp [hposition]
      rw [List.getElem_map, List.getElem_range, hget,
        map_range_getD (hrow _ (List.getElem_mem hposition))]
  conv => lhs; rw [hrange]
  rw [← List.flatMap_def]
  unfold scoreGrid
  dsimp only
  rw [← Grid.ofList?_map_places, map_places_three]

theorem readOutputs?_eq_some (h : r.Accepts rows count past ids cached)
    (hvalid : r.model.validate = .ok ()) (hrows : 0 < rows)
    : readOutputs? r.model past count ids.toList cached
        =
      some (outputsOf r.model past count ids.toList cached) := by
  have hbounds := h.inBounds hvalid hrows
  rcases hbounds.seen with ⟨first, hfirst, hplaces, hseen⟩
  have hcount := h.count_pos
  have hlength : past + count ≤ (seenTokens first.1).length := by
    have := hseen (count - 1) (by omega)
    omega
  have htokens : count ≤ ids.toList.length := by
    have := hbounds.rows (count - 1) (by omega)
    omega
  have hgrid : Grid.ofList? [1, count, r.model.shape.vocabSize]
        (scoreRows r.model (ids.toList.take count) (seenTokens first.1) past).flatten
      = some (scoreGrid count r.model.shape.vocabSize
        (scoreRows r.model (ids.toList.take count) (seenTokens first.1) past)) := by
    apply ofList?_flatten
    . simp [scoreRows, htokens]
    . intro row hrow
      rcases List.mem_map.mp hrow with ⟨_, _, rfl⟩
      apply BigramModel.length_scores
  unfold readOutputs? outputsOf
  simp only [readLayers?_eq_some _ hbounds.caches, hfirst, readSeen?_eq_some hplaces, guard,
    hbounds.rows_pos, readRows?_eq_some hvalid htokens hlength, hgrid, if_true, Option.pure_def,
    Option.bind_eq_bind, Option.bind_some, Option.map_some, Option.getD_some]

theorem readLastRow?_eq_some {logits : Grid Float32} {vocabSize : Nat} (hcount : 0 < count)
    (hshape : logits.shape = [1, count, vocabSize])
    : readLastRow? logits count vocabSize
        =
      some ((List.range vocabSize).map fun token => logits.getD [0, count - 1, token] 0) := by
  unfold readLastRow?
  simp only [guard, hcount, if_true, Option.pure_def, Option.bind_eq_bind, Option.bind_some]
  apply mapM_eq_some
  intro token htoken
  apply Grid.get?_of_mem_places
  rw [List.mem_range] at htoken
  simp only [hshape, mem_places_cons, mem_places_nil, and_true]
  omega

theorem accepts_of_continues {tokens ids : List TokenId} (h : r.Continues tokens ids)
    (hids : ids ≠ []) (hvocabulary : ∀ token ∈ ids, r.model.inVocabulary token = true)
    : r.Accepts 1 ids.length tokens.length (.row ids)
        (List.replicate r.model.shape.layerCount
          (r.model.shape.keys tokens, r.model.shape.values tokens.length)) := by
  constructor
  . exact List.length_pos_iff.mpr hids
  . exact h.inputIds
  . rfl
  . exact hvocabulary
  . rw [List.forall₂_iff_get]
    refine ⟨by simp, ?_⟩
    intro layer hlayer _
    rw [List.length_range] at hlayer
    simp only [List.get_eq_getElem, List.getElem_range, List.getElem_replicate]
    exact ⟨h.pastKey layer hlayer, by simp, h.pastValue layer hlayer, by simp⟩
  . exact ⟨_, h.attentionMask, by simp⟩
  . exact ⟨_, h.positionIds, by simp, rfl⟩

end Request

end TextGen
