import TextGen.Generation.Basic

/-!
Speculative generations: a draft and a target session advance side by side. In every iteration each
of them chooses its best token, the policy says which one is committed, and both sessions are fed
before the next iteration.
-/

namespace TextGen

inductive VerificationPolicy
  -- The draft's token. The target follows its own choices beside it.
  | unverified
  | greedy
  deriving DecidableEq, Repr

structure SpeculativeConfig where
  maxIterations : Nat := 50
  eosTokenIds : List TokenId := [2]
  policy : VerificationPolicy := .unverified
  deriving DecidableEq, Repr

/--
The committed token and the token that the target is fed.
-/
def VerificationPolicy.commit (policy : VerificationPolicy) (proposed predicted : TokenId) :
    TokenId × TokenId :=
  match policy with
  | unverified => (proposed, predicted)
  | greedy => (predicted, predicted)

def AgreementStats.count (stats : AgreementStats) (agreed : Bool) : AgreementStats where
  iterations := stats.iterations + 1
  agreed := if agreed then stats.agreed + 1 else stats.agreed
  disagreed := if agreed then stats.disagreed else stats.disagreed + 1

inductive SpeculationPhase
  | scored (draft target : List Float32)
  | pending (draft target : TokenId)
  | finished (reason : FinishReason)
  | failed (error : GenerationError)
  deriving DecidableEq

def SpeculationPhase.ofError (e : SessionError) : SpeculationPhase :=
  e.finishReason?.elim (failed (.session e)) finished

structure Speculation where
  draft : Session
  target : Session
  codec : Codec
  config : SpeculativeConfig
  prompt : List TokenId
  phase : SpeculationPhase
  tokens : List TokenId
  text : String
  streamed : IncrementalText
  stats : AgreementStats

namespace Speculation

def history (s : Speculation) : List TokenId := s.prompt ++ s.tokens

def isRunning (s : Speculation) : Bool :=
  match s.phase with
  | .scored .. | .pending .. => true
  | .finished _ | .failed _ => false

def feed (draft target : Session)
    (feedDraft feedTarget : Session → Bool → Session.Outcome (List Float32)) (cancelled : Bool) :
    SpeculationPhase × Session × Session × Bool :=
  let drafted := feedDraft draft cancelled
  match drafted.result with
  | .error e => (.ofError e, drafted.session, target, drafted.cancelled)
  | .ok draftScores =>
    let checked := feedTarget target drafted.cancelled
    match checked.result with
    | .error e => (.ofError e, drafted.session, checked.session, checked.cancelled)
    | .ok targetScores =>
      (.scored draftScores targetScores, drafted.session, checked.session, checked.cancelled)

def start (draft target : Session) (codec : Codec) (config : SpeculativeConfig)
    (prompt : List TokenId) (cancelled : Bool) : Speculation × Bool :=
  let (phase, draft, target, cancelled) :=
    feed draft target (·.prefill prompt ·) (·.prefill prompt ·) cancelled
  ({ draft, target, codec, config, prompt, phase
     tokens := []
     text := ""
     streamed := .empty
     stats := {} }, cancelled)

def choose (s : Speculation) (draft target : List Float32) : Option String × Speculation :=
  let proposed : TokenId := argmax draft
  let predicted : TokenId := argmax target
  let (committed, targetInput) := s.config.policy.commit proposed predicted
  let s :=
    { s with
      stats := s.stats.count (proposed = predicted)
      tokens := s.tokens ++ [committed] }
  if s.config.eosTokenIds.contains committed then
    (none, { s with phase := .finished .stop })
  else
    match s.streamed.put s.codec committed with
    | (.error e, streamed) => (none, { s with streamed, phase := .failed (.codec e) })
    | (.ok chunk, streamed) =>
      (chunk,
        { s with
          phase := .pending committed targetInput
          text := s.text ++ chunk.getD ""
          streamed })

def isExhausted (s : Speculation) : Bool := s.config.maxIterations ≤ s.stats.iterations

def next (s : Speculation) (cancelled : Bool) : Option String × Speculation × Bool :=
  match s.phase, s.isExhausted with
  | .finished _, _ | .failed _, _ => (none, s, cancelled)
  | _, true => (none, { s with phase := .finished .length }, cancelled)
  | .scored draftScores targetScores, false =>
    let (chunk, s) := s.choose draftScores targetScores
    (chunk, s, cancelled)
  | .pending draftInput targetInput, false =>
    let (phase, draft, target, cancelled) :=
      feed s.draft s.target (·.decodeStep draftInput ·) (·.decodeStep targetInput ·) cancelled
    let s := { s with phase, draft, target }
    match phase with
    | .scored draftScores targetScores =>
      let (chunk, s) := s.choose draftScores targetScores
      (chunk, s, cancelled)
    | _ => (none, s, cancelled)

def budget (s : Speculation) : Nat := s.config.maxIterations - s.stats.iterations

def run (cancelsAt : List String → Bool) (limit : Nat) (chunks : List String) (s : Speculation)
    (cancelled : Bool) : List String × Speculation × Bool :=
  match limit with
  | 0 => (chunks, s, cancelled)
  | limit + 1 =>
    if !s.isRunning then (chunks, s, cancelled)
    else
      match s.next cancelled with
      | (none, s, cancelled) => run cancelsAt limit chunks s cancelled
      | (some chunk, s, cancelled) =>
        let chunks := chunk :: chunks
        run cancelsAt limit chunks s (cancelled || cancelsAt chunks)

def ending (s : Speculation) : Except GenerationError FinishReason :=
  match s.phase with
  | .failed e => .error e
  | .finished reason => .ok reason
  | _ => .ok .length

end Speculation

end TextGen
