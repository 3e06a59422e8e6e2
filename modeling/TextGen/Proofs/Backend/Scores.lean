import TextGen.Proofs.Backend.Positions

/-!
This module contains the scores of a forward pass: every row covers the vocabulary, the row of a
token depends on the tokens up to it, and the last row is that of the whole sequence.
-/

namespace TextGen

structure ModelShape.IsPositive (shape : ModelShape) : Prop where
  layerCount : 0 < shape.layerCount
  vocabSize : 0 < shape.vocabSize
  kvHeadCount : 0 < shape.kvHeadCount
  headDim : 0 < shape.headDim

namespace BigramModel

theorem isPositive_of_validate {model : BigramModel} (h : model.validate = .ok ())
    : model.shape.IsPositive := by
  unfold validate at h
  simp only [bind, Except.bind, pure, Except.pure, throw, throwThe, MonadExceptOf.throw] at h
  split at h
  . contradiction
  . next hlayers =>
    split at h
    . contradiction
    . next hheads =>
      constructor <;> omega

theorem length_foldl_set (seen : List Nat) (row : List Float32) (score : Float32)
    : (seen.foldl (fun row i => row.set i score) row).length = row.length := by
  induction seen generalizing row with
  | nil => rfl
  | cons i seen ih => simp [ih]

theorem length_scores (model : BigramModel) (previous : TokenId) (seen : List Nat)
    : (model.scores previous seen).length = model.shape.vocabSize := by
  have hmodify : ∀ (targets : List ScoredToken) (row : List Float32),
      (targets.foldl
        (fun row target =>
          row.modify target.token.toNat fun score => score + (target.score - model.defaultScore))
        row).length = row.length := by
    intro targets
    induction targets with
    | nil => simp
    | cons target targets ih => simp [ih]
  unfold scores
  rw [hmodify]
  split
  . simp
  . simp [length_foldl_set]

def scoresAfter (model : BigramModel) (tokens : List TokenId) : List Float32 :=
  model.scores (tokens.getLast?.getD 0)
    (tokens.map fun token => Binary32.toIndex (Float32.ofInt token))

@[simp]
theorem length_scoresAfter (model : BigramModel) (tokens : List TokenId)
    : (model.scoresAfter tokens).length = model.shape.vocabSize := by
  apply length_scores

end BigramModel

namespace Request

theorem getElem?_scoreRows_last (model : BigramModel) (tokens : List TokenId) {ids : List TokenId}
    (hids : ids ≠ [])
    : (scoreRows model ids
        ((tokens ++ ids).map fun token => Binary32.toIndex (Float32.ofInt token))
        tokens.length)[ids.length - 1]?
        =
      some (model.scoresAfter (tokens ++ ids)) := by
  have hlength : 0 < ids.length := List.length_pos_iff.mpr hids
  have hlast : ids[ids.length - 1]? = ids.getLast? := by
    rw [List.getLast?_eq_getElem?]
  have hget : ids.getLast? = some (ids.getLast hids) := List.getLast?_eq_some_getLast hids
  have hall : tokens.length + (ids.length - 1) + 1
      = ((tokens ++ ids).map fun token => Binary32.toIndex (Float32.ofInt token)).length := by
    rw [List.length_map, List.length_append]
    omega
  -- The last token has seen all tokens, so that its row takes no proper prefix of them.
  unfold scoreRows BigramModel.scoresAfter
  rw [List.getElem?_map, List.getElem?_zipIdx, hlast, hget]
  simp only [Option.map_some, Nat.zero_add]
  rw [hall, List.take_length, List.getLast?_append, hget]
  simp

theorem map_range_getD {row : List Float32} {count : Nat} (hrow : row.length = count)
    : ((List.range count).map fun i => row.toArray.getD i 0) = row := by
  apply List.ext_getElem
  . simp [hrow]
  . intro i _ hi
    simp [hi]

theorem lastRow_scoreGrid {inputLength vocabSize : Nat} {rows : List (List Float32)}
    {row : List Float32} (hlength : 0 < inputLength) (hrows : rows[inputLength - 1]? = some row)
    (hrow : row.length = vocabSize)
    : ((List.range vocabSize).map fun token =>
        (scoreGrid inputLength vocabSize rows).getD [0, inputLength - 1, token] 0)
        =
      row := by
  have hentries : ∀ token ∈ List.range vocabSize,
      (scoreGrid inputLength vocabSize rows).getD [0, inputLength - 1, token] 0
        =
      row.toArray.getD token 0 := by
    intro token htoken
    rw [List.mem_range] at htoken
    unfold scoreGrid
    rw [Grid.getD_ofFn]
    . simp [Array.getD_eq_getD_getElem?, hrows]
    . rw [mem_places_cons, mem_places_cons, mem_places_cons]
      exact ⟨by omega, by omega, htoken, by simp⟩
  rw [List.map_congr_left hentries]
  exact map_range_getD hrow

end Request

end TextGen
