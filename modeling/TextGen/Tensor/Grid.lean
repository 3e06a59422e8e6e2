/-!
Values in a box of any dimension, in row-major order: the last index moves fastest. A grid has as
many entries as its shape has places.
-/

namespace TextGen

def volume : List Nat → Nat
  | [] => 1
  | n :: ns => n * volume ns

def places : List Nat → List (List Nat)
  | [] => [[]]
  | n :: ns => (List.range n).flatMap fun i => (places ns).map (i :: ·)

theorem length_places (shape : List Nat) : (places shape).length = volume shape := by
  induction shape with
  | nil => rfl
  | cons n ns ih => simp [places, volume, List.length_flatMap, ih, List.map_const']

def position? : List Nat → List Nat → Option Nat
  | [], [] => some 0
  | n :: ns, i :: is => if i < n then (position? ns is).map (i * volume ns + ·) else none
  | _, _ => none

structure Grid (α : Type) where
  shape : List Nat
  entries : Array α
  size_entries : entries.size = volume shape
  deriving DecidableEq

namespace Grid

variable {α : Type}

def ofFn (shape : List Nat) (f : List Nat → α) : Grid α where
  shape := shape
  entries := ((places shape).map f).toArray
  size_entries := by simp [length_places]

def ofList? (shape : List Nat) (entries : List α) : Option (Grid α) :=
  if h : entries.length = volume shape then some ⟨shape, entries.toArray, by simpa using h⟩
  else none

def row (values : List α) : Grid α where
  shape := [1, values.length]
  entries := values.toArray
  size_entries := by simp [volume]

def replicate (shape : List Nat) (value : α) : Grid α where
  shape := shape
  entries := Array.replicate (volume shape) value
  size_entries := by simp

def toList (g : Grid α) : List α := g.entries.toList

def extent (g : Grid α) (axis : Nat) : Nat := g.shape.getD axis 0

def get? (g : Grid α) (place : List Nat) : Option α := do
  let i ← position? g.shape place
  g.entries[i]?

def getD (g : Grid α) (place : List Nat) (value : α) : α := (g.get? place).getD value

end Grid

end TextGen
