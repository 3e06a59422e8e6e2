import TextGen.Backend.Engine

/-!
How a controller loads its model.
-/

namespace TextGen

inductive Device
  | cpu
  | gpu
  deriving DecidableEq, Repr

structure CompileOptions where
  device : Device := .cpu
  threadCount : Option Nat := none
  deriving DecidableEq, Repr

abbrev Backend := String → CompileOptions → Except BackendError CompiledModel

def Backend.ofStorage (storage : Storage) : Backend := fun path options =>
  (BigramModel.load storage path).map (·.compile options.threadCount)

structure ControllerConfig where
  device : Device := .cpu
  threadCount : Option Nat := none
  contextLimit : Option Nat := none
  deriving DecidableEq, Repr

def ControllerConfig.compileOptions (config : ControllerConfig) : CompileOptions where
  device := config.device
  threadCount := config.threadCount

end TextGen
