import TextGen.Decimal.Layout
import TextGen.Model.Shape

/-!
The settings of one generation: how the next token is chosen, when generation ends, and which
settings make sense.
-/

namespace TextGen

inductive Seed
  | arbitrary
  | fixed (value : UInt64)
  deriving DecidableEq, Repr

namespace Seed

def ofInt (n : Int) : Seed := if n < 0 then arbitrary else fixed n.toNat.toUInt64

def resolve (freshSeed : UInt64) : Seed → UInt64
  | arbitrary => freshSeed
  | fixed value => value

end Seed

structure SamplingConfig where
  doSample : Bool := true
  temperature : Float32 := 0.2
  topK : Nat := 40
  topP : Float32 := 0.9
  repeatPenalty : Float32 := 1.1
  repeatLastN : Nat := 32
  seed : Seed := .arbitrary
  maxNewTokens : Nat := 512
  eosTokenIds : List TokenId := []
  deriving DecidableEq

inductive SamplingConfigError
  | temperature (value : Float32)
  | topP (value : Float32)
  | repeatPenalty (value : Float32)
  deriving DecidableEq

namespace SamplingConfigError

def reason : SamplingConfigError → String
  | temperature value => "temperature must be positive, got " ++ Binary32.display value
  | topP value => "top_p must be in (0, 1], got " ++ Binary32.display value
  | repeatPenalty value => "repeat_penalty must be at least 1, got " ++ Binary32.display value

def message (error : SamplingConfigError) : String :=
  "Invalid sampling config: " ++ error.reason

end SamplingConfigError

namespace SamplingConfig

def greedy : SamplingConfig := { doSample := false }

def validate (config : SamplingConfig) : Except SamplingConfigError Unit := do
  if config.doSample then
    if !(config.temperature.isFinite && 0 < config.temperature) then
      throw (.temperature config.temperature)
    if !(0 < config.topP && config.topP ≤ 1) then
      throw (.topP config.topP)
    if !(config.repeatPenalty.isFinite && 1 ≤ config.repeatPenalty) then
      throw (.repeatPenalty config.repeatPenalty)

def isEos (config : SamplingConfig) (id : TokenId) : Bool := config.eosTokenIds.contains id

end SamplingConfig

end TextGen
