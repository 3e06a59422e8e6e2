/-!
Statistics of generations. Durations within one generation are in seconds, those that a controller
keeps are in milliseconds.

The library has no clock. Every operation that it measures counts one unit of time, so its durations
tell which operations took place and how often.
-/

namespace TextGen

def unitDuration : Float := 1

structure RunStats where
  count : Nat := 0
  averageDuration : Float := 0
  deriving DecidableEq

structure PhaseStats where
  duration : Float := 0
  tokenCount : Nat := 0
  tokensPerSecond : Float := 0
  runs : RunStats := {}
  deriving DecidableEq

namespace PhaseStats

def rate (count : Nat) (duration : Float) : Float :=
  if 0 < duration then Float.ofNat count / duration else 0

def ofRuns (tokenCount runCount : Nat) : PhaseStats :=
  let duration := Float.ofNat runCount * unitDuration
  { duration
    tokenCount
    tokensPerSecond := rate tokenCount duration
    runs := ⟨runCount, duration / Float.ofNat runCount⟩ }

end PhaseStats

structure TotalStats where
  duration : Float := 0
  inputTokenCount : Nat := 0
  outputTokenCount : Nat := 0
  deriving DecidableEq

structure GenerationStats where
  prefill : PhaseStats := {}
  decoding : Option PhaseStats := none
  total : TotalStats := {}
  deriving DecidableEq

def GenerationStats.tokensPerSecond (stats : GenerationStats) : Float :=
  (stats.decoding.getD stats.prefill).tokensPerSecond

/--
What a controller keeps from call to call. The durations of loading and unloading stay until they
are replaced, the rest is that of the last generation.
-/
structure PerformanceStatistics where
  modelLoadDuration : Float := 0
  modelUnloadDuration : Float := 0
  cancelDuration : Float := 0
  tokenizerLoadDuration : Float := 0
  tokenizerUnloadDuration : Float := 0
  firstInferDuration : Float := 0
  promptEvaluationSpeed : Float := 0
  nextTokenDuration : Float := 0
  averageTokensPerSecond : Float := 0
  inputTokenCount : Nat := 0
  generatedTokenCount : Nat := 0
  deriving DecidableEq, Inhabited

def PerformanceStatistics.record (statistics : PerformanceStatistics) (stats : GenerationStats) :
    PerformanceStatistics :=
  { statistics with
    inputTokenCount := stats.total.inputTokenCount
    generatedTokenCount := stats.total.outputTokenCount
    firstInferDuration := stats.prefill.duration * 1000
    promptEvaluationSpeed := stats.prefill.tokensPerSecond
    nextTokenDuration := stats.decoding.elim 0 fun phase => phase.runs.averageDuration * 1000
    averageTokensPerSecond := stats.decoding.elim 0 (·.tokensPerSecond) }

structure AgreementStats where
  iterations : Nat := 0
  agreed : Nat := 0
  disagreed : Nat := 0
  deriving DecidableEq, Repr

def AgreementStats.rate (stats : AgreementStats) : Float :=
  if stats.iterations = 0 then 0
  else Float.ofNat stats.agreed / Float.ofNat stats.iterations

end TextGen
