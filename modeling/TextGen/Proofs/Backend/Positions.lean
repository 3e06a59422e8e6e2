import TextGen.Backend.Request
import TextGen.Proofs.Tensor.Grid

/-!
This module contains the keys and values that a bigram model caches: all heads and all components of
a position hold the same number. Growing such a cache appends the added numbers, and its key cache
shows the tokens that went in.
-/

namespace TextGen

namespace ModelShape

def cached (shape : ModelShape) (numbers : List Float32) : Grid Float32 :=
  .ofFn (shape.kvShape numbers.length) fun
    | [_, _, position, _] => numbers.getD position 0
    | _ => 0

def keys (shape : ModelShape) (tokens : List TokenId) : Grid Float32 :=
  shape.cached (tokens.map Float32.ofInt)

def values (shape : ModelShape) (count : Nat) : Grid Float32 :=
  shape.cached ((List.range count).map Float32.ofNat)

@[simp]
theorem shape_cached (shape : ModelShape) (numbers : List Float32)
    : (shape.cached numbers).shape = shape.kvShape numbers.length := rfl

@[simp]
theorem shape_keys (shape : ModelShape) (tokens : List TokenId)
    : (shape.keys tokens).shape = shape.kvShape tokens.length := by
  simp [keys]

@[simp]
theorem shape_values (shape : ModelShape) (count : Nat)
    : (shape.values count).shape = shape.kvShape count := by
  simp [values]

@[simp]
theorem extent_cached (shape : ModelShape) (numbers : List Float32)
    : (shape.cached numbers).extent 2 = numbers.length := rfl

theorem mem_places_kvShape {shape : ModelShape} {count : Nat} {place : List Nat}
    : place ∈ places (shape.kvShape count)
        ↔
      ∃ head position component, place = [0, head, position, component] ∧
        head < shape.kvHeadCount ∧ position < count ∧ component < shape.headDim := by
  unfold kvShape
  constructor
  . intro h
    rcases exists_of_mem_places_cons h with ⟨batch, _, rfl, hbatch, h⟩
    rcases exists_of_mem_places_cons h with ⟨head, _, rfl, hhead, h⟩
    rcases exists_of_mem_places_cons h with ⟨position, _, rfl, hposition, h⟩
    rcases exists_of_mem_places_cons h with ⟨component, _, rfl, hcomponent, h⟩
    have : batch = 0 := by omega
    subst this
    exact ⟨head, position, component, by simp_all⟩
  . rintro ⟨head, position, component, rfl, hhead, hposition, hcomponent⟩
    simp [hhead, hposition, hcomponent]

theorem get?_cached (shape : ModelShape) (numbers : List Float32) {head position component : Nat}
    (hhead : head < shape.kvHeadCount) (hposition : position < numbers.length)
    (hcomponent : component < shape.headDim)
    : (shape.cached numbers).get? [0, head, position, component] = some numbers[position] := by
  unfold cached
  rw [Grid.get?_ofFn]
  . simp [hposition]
  . rw [mem_places_kvShape]
    exact ⟨head, position, component, rfl, hhead, hposition, hcomponent⟩

theorem cached_nil (shape : ModelShape) (value : Float32)
    : shape.cached [] = .replicate (shape.kvShape 0) value := by
  apply Grid.eq_of_volume_eq_zero
  . rfl
  . simp [kvShape, volume]

end ModelShape

namespace Request

theorem grow_cached (shape : ModelShape) (numbers added : List Float32)
    : grow shape numbers.length (shape.cached numbers) added.toArray
        =
      shape.cached (numbers ++ added) := by
  have hlength : (numbers ++ added).length = numbers.length + added.toArray.size := by simp
  conv => rhs; unfold ModelShape.cached
  rw [hlength]
  unfold grow
  apply Grid.ofFn_congr
  intro place hplace
  rw [ModelShape.mem_places_kvShape] at hplace
  rcases hplace with ⟨head, position, component, rfl, hhead, hposition, hcomponent⟩
  dsimp only
  split
  . next hold =>
    simp [Grid.getD, ModelShape.get?_cached, hhead, hcomponent, hold, List.getElem?_append_left]
  . next hold =>
    simp only [Nat.not_lt] at hold
    simp [List.getElem?_append_right, hold]

theorem growLayers_cached (shape : ModelShape) (tokens ids : List TokenId) (layerCount : Nat)
    : growLayers shape tokens.length ids
          (List.replicate layerCount (shape.keys tokens, shape.values tokens.length))
        =
      List.replicate layerCount
        (shape.keys (tokens ++ ids), shape.values (tokens ++ ids).length) := by
  have hkeys := grow_cached shape (tokens.map Float32.ofInt) (ids.map Float32.ofInt)
  have hvalues := grow_cached shape ((List.range tokens.length).map Float32.ofNat)
    ((List.range ids.length).map fun i => Float32.ofNat (tokens.length + i))
  simp only [List.length_map, List.length_range] at hkeys hvalues
  unfold growLayers ModelShape.keys ModelShape.values
  rw [List.map_replicate]
  dsimp only
  rw [hkeys, hvalues, List.map_append, List.length_append, List.range_add]
  simp [Function.comp_def]

theorem seenTokens_keys {shape : ModelShape} (hhead : 0 < shape.kvHeadCount)
    (hcomponent : 0 < shape.headDim) (tokens : List TokenId)
    : seenTokens (shape.keys tokens)
        =
      tokens.map fun token => Binary32.toIndex (Float32.ofInt token) := by
  unfold seenTokens ModelShape.keys
  rw [ModelShape.extent_cached, List.length_map]
  apply List.ext_getElem
  . simp
  . intro position hposition _
    simp only [List.length_map, List.length_range] at hposition
    simp [Grid.getD, ModelShape.get?_cached, hhead, hcomponent, hposition]

end Request

end TextGen
