import TextGen.Model.Shape
import TextGen.Tensor.Grid

/-!
Tensors, and tensors bound to names.
-/

namespace TextGen

inductive Tensor
  | integers (grid : Grid Int)
  | floats (grid : Grid Float32)
  deriving DecidableEq

namespace Tensor

def shape : Tensor → List Nat
  | integers grid => grid.shape
  | floats grid => grid.shape

def integers? : Tensor → Option (Grid Int)
  | integers grid => some grid
  | floats _ => none

def floats? : Tensor → Option (Grid Float32)
  | integers _ => none
  | floats grid => some grid

def row (values : List Int) : Tensor := integers (.row values)

def zeros (shape : List Nat) : Tensor := floats (.replicate shape 0)

end Tensor

structure Bindings where
  entries : List (TensorName × Tensor)
  deriving DecidableEq

namespace Bindings

def empty : Bindings := ⟨[]⟩

def get? (b : Bindings) (name : TensorName) : Option Tensor := b.entries.lookup name

def erase (b : Bindings) (name : TensorName) : Bindings :=
  ⟨b.entries.filter fun entry => decide (entry.1 ≠ name)⟩

def insert (b : Bindings) (name : TensorName) (tensor : Tensor) : Bindings :=
  ⟨(name, tensor) :: (b.erase name).entries⟩

def keep (b : Bindings) (keeps : TensorName → Bool) : Bindings :=
  ⟨b.entries.filter fun entry => keeps entry.1⟩

end Bindings

end TextGen
