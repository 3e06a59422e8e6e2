import TextGen.Random.Weighted
import TextGen.Sampling.Config
import TextGen.Sampling.Filter

/-!
Choosing the next token. A sampler is seeded once, so that a fixed seed gives the same choices over
a whole generation.
-/

namespace TextGen

/--
The index of the largest score, the first one among equals. NaN is larger than nothing, and without
a score above `-∞` the index is 0.
-/
def argmax (scores : List Float32) : Nat :=
  (scores.zipIdx.foldl step (0, Binary32.negativeInfinity)).1
where
  step (best : Nat × Float32) (next : Float32 × Nat) : Nat × Float32 :=
    if best.2 < next.1 then (next.2, next.1) else best

structure Sampler where
  generator : Random.Generator
  deriving DecidableEq

namespace Sampler

def ofSeed (seed : UInt64) : Sampler := ⟨.ofSeed seed⟩

def candidates (logits : List Float32) (history : List TokenId) (config : SamplingConfig) :
    List Candidate :=
  let scores := penalizeRepeats logits history config.repeatPenalty config.repeatLastN
  let scores := applyTemperature scores config.temperature
  Candidate.topP (Candidate.topK (Candidate.ofScores scores) config.topK) config.topP

def draw (sampler : Sampler) (candidates : List Candidate) : TokenId × Sampler :=
  let fallback := (Candidate.best? candidates).elim 0 (·.id)
  let weights := (Candidate.softmax candidates).map (·.score)
  match sampler.generator.weighted? weights with
  | (none, generator) => (fallback, ⟨generator⟩)
  | (some index, generator) => (candidates[index]?.elim fallback (·.id), ⟨generator⟩)

def select (sampler : Sampler) (logits : List Float32) (history : List TokenId)
    (config : SamplingConfig) : TokenId × Sampler :=
  if config.doSample then
    sampler.draw (candidates logits history config)
  else
    (argmax logits, sampler)

end Sampler

end TextGen
