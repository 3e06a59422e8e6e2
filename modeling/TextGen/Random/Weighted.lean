import TextGen.Random.ChaCha
import TextGen.Numeric.Binary

/-!
Drawing an index with given weights. The weights are summed from left to right, a point below the
total is drawn, and the index is the number of partial sums that the point has reached.
-/

namespace TextGen.Random

def partialSums (weights : List Float32) : List Float32 :=
  go 0 weights
where
  go (sum : Float32) : List Float32 → List Float32
    | [] => []
    | w :: ws => (sum + w) :: go (sum + w) ws

def total (weights : List Float32) : Float32 := weights.foldl (· + ·) 0

def isDistribution (weights : List Float32) : Bool :=
  !weights.isEmpty && weights.all (fun w => decide (0 ≤ w)) && !(total weights == 0)

def unitPoint (word : UInt32) : Float32 := (word >>> 9).toFloat32 / 8388608

def indexAt (weights : List Float32) (word : UInt32) : Nat :=
  let point := unitPoint word * total weights
  ((partialSums weights).dropLast.takeWhile fun sum => decide (sum ≤ point)).length

def Generator.weighted? (g : Generator) (weights : List Float32) : Option Nat × Generator :=
  if isDistribution weights then
    let (word, g) := g.next
    (some (indexAt weights word), g)
  else
    (none, g)

end TextGen.Random
