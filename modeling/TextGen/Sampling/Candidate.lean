import TextGen.Model.Shape
import TextGen.Numeric.Binary

/-!
Candidates for the next token and the order in which they rank. A candidate keeps the bits of its
score, since the ranking tells apart what arithmetic does not: the zeros, and NaN of different bits.
-/

namespace TextGen

structure Candidate where
  id : TokenId
  bits : UInt32
  deriving DecidableEq

namespace Candidate

def ofScore (id : TokenId) (score : Float32) : Candidate := ⟨id, score.toBits⟩

def score (c : Candidate) : Float32 := .ofBits c.bits

def ranksBefore (a b : Candidate) : Bool :=
  Binary32.orderKey b.bits < Binary32.orderKey a.bits ||
    (Binary32.orderKey b.bits == Binary32.orderKey a.bits && a.id ≤ b.id)

def ranked (candidates : List Candidate) : List Candidate := candidates.mergeSort ranksBefore

def best? (candidates : List Candidate) : Option Candidate :=
  candidates.foldl
    (fun best c =>
      match best with
      | none => some c
      | some b => if b.ranksBefore c then some b else some c)
    none

/--
The candidates of a score list, a token being the index of its score. A score that is NaN counts as
`-∞`, so that it ranks behind every number.
-/
def ofScores (scores : List Float32) : List Candidate :=
  scores.zipIdx.map fun (score, index) =>
    .ofScore index (if score.isNaN then Binary32.negativeInfinity else score)

end Candidate

end TextGen
