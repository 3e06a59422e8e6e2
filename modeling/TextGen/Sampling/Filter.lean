import TextGen.Sampling.Candidate

/-!
The filters between the scores of a model and the draw of a token: repetition penalty, temperature,
and the cuts to the best few candidates and to the best share of the probability mass.
-/

namespace TextGen

def recent (history : List TokenId) (count : Nat) : List TokenId :=
  history.drop (history.length - min history.length count)

def dampen (penalty score : Float32) : Float32 :=
  if 0 < score then score / penalty else score * penalty

def penalizeRepeats (scores : List Float32) (history : List TokenId) (penalty : Float32)
    (count : Nat) : List Float32 :=
  if penalty == 1 then scores
  else
    let window := recent history count
    scores.zipIdx.map fun (score, index) =>
      if window.contains (index : TokenId) then dampen penalty score else score

def applyTemperature (scores : List Float32) (temperature : Float32) : List Float32 :=
  if temperature ≤ 0 then scores else scores.map (· / temperature)

namespace Candidate

def topK (candidates : List Candidate) (count : Nat) : List Candidate :=
  if count = 0 ∨ candidates.length ≤ count then candidates
  else (ranked candidates).take count

def weights (candidates : List Candidate) (reference : Float32) : List Float32 :=
  candidates.map fun c => Binary32.exp (c.score - reference)

def massPrefix (share total : Float32) : List Float32 → Float32 → Nat
  | [], _ => 0
  | w :: ws, sum =>
    let sum := sum + w / total
    if share ≤ sum then 1 else massPrefix share total ws sum + 1

def topP (candidates : List Candidate) (share : Float32) : List Candidate :=
  if 0 < share ∧ share < 1 then
    match ranked candidates with
    | [] => []
    | first :: rest =>
      let ws := weights (first :: rest) first.score
      (first :: rest).take (massPrefix share (ws.foldl (· + ·) 0) ws 0)
  else candidates

def maxScore (candidates : List Candidate) : Float32 :=
  candidates.foldl (fun m c => if m < c.score then c.score else m) Binary32.negativeInfinity

def softmax (candidates : List Candidate) : List Candidate :=
  let ws := weights candidates (maxScore candidates)
  let sum := ws.foldl (· + ·) 0
  candidates.zipWith (fun c w => .ofScore c.id (w / sum)) ws

end Candidate

end TextGen
