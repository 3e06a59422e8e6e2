import TextGen.Controller.StopHandle
import TextGen.Generation.Error
import TextGen.Generation.FinishReason
import TextGen.Sampling.Sampler
import TextGen.Session.Basic
import TextGen.Statistics.Basic
import TextGen.Text.Incremental

/-!
Generations: tokens are chosen one after the other, and a token is fed back to the model only when
the next one is asked for. A generation ends once, by finishing or by failing, and leaves its
session empty.
-/

namespace TextGen

def SessionError.finishReason? : SessionError → Option FinishReason
  | .backend .cancelled => some .cancelled
  | .contextLengthExceeded _ => some .contextLimitReached
  | _ => none

structure StreamEvent where
  token : TokenId
  text : String
  deriving DecidableEq, Repr

inductive Phase
  | scored (logits : List Float32)
  | pending (token : TokenId)
  | finished (reason : FinishReason)
  | failed
  deriving DecidableEq

structure Generation where
  session : Session
  codec : Codec
  config : SamplingConfig
  sampler : Sampler
  promptLength : Nat
  phase : Phase
  tokens : List TokenId
  text : String
  streamed : IncrementalText
  prefills : Nat
  feedbacks : Nat

namespace Generation

def isRunning (g : Generation) : Bool :=
  match g.phase with
  | .scored _ | .pending _ => true
  | .finished _ | .failed => false

def finishReason? (g : Generation) : Option FinishReason :=
  match g.phase with
  | .finished reason => some reason
  | _ => none

def stats (g : Generation) : GenerationStats where
  prefill := if g.prefills = 0 then {} else .ofRuns g.promptLength g.prefills
  decoding := if g.feedbacks = 0 then none else some (.ofRuns g.feedbacks g.feedbacks)
  total :=
    { duration := Float.ofNat (g.prefills + g.feedbacks) * unitDuration
      inputTokenCount := g.promptLength
      outputTokenCount := g.tokens.length }

def finish (g : Generation) (reason : FinishReason) : Generation :=
  let (tail, streamed) := g.streamed.finish g.codec
  { g with
    phase := .finished reason
    text := g.text ++ tail.toOption.getD ""
    streamed := streamed
    session := g.session.reset }

def abandon (g : Generation) : Generation :=
  { g with phase := .failed, streamed := .empty, session := g.session.reset }

def start (session : Session) (codec : Codec) (config : SamplingConfig) (sampler : Sampler)
    (prompt : List TokenId) (cancelled : Bool) :
    Except GenerationError Unit × Generation × Bool :=
  let outcome := session.prefill prompt cancelled
  let g : Generation :=
    { session := outcome.session, codec, config, sampler
      promptLength := prompt.length
      phase := .failed
      tokens := []
      text := ""
      streamed := .empty
      prefills := 0
      feedbacks := 0 }
  match outcome.result with
  | .ok logits => (.ok (), { g with phase := .scored logits, prefills := 1 }, outcome.cancelled)
  | .error e =>
    if e.isCancelled then (.ok (), g.finish .cancelled, outcome.cancelled)
    else (.error (.session e), g.abandon, outcome.cancelled)

def choose (g : Generation) (logits : List Float32) :
    Except GenerationError StreamEvent × Generation :=
  let (token, sampler) := g.sampler.select logits g.session.tokens g.config
  let g := { g with sampler, tokens := g.tokens ++ [token] }
  if g.config.isEos token then
    (.ok ⟨token, ""⟩, g.finish .stop)
  else
    match g.streamed.put g.codec token with
    | (.error e, streamed) => (.error (.codec e), { g with streamed }.abandon)
    | (.ok chunk, streamed) =>
      let text := chunk.getD ""
      (.ok ⟨token, text⟩, { g with phase := .pending token, text := g.text ++ text, streamed })

def stopReason? (g : Generation) (handle : StopHandle) : Option FinishReason :=
  if handle.stopped then some .cancelled
  else if g.config.maxNewTokens ≤ g.tokens.length then some .length
  else none

def next (g : Generation) (handle : StopHandle) :
    Option (Except GenerationError StreamEvent) × Generation × StopHandle :=
  match g.phase, g.stopReason? handle with
  | .finished _, _ | .failed, _ => (none, g, handle)
  | _, some reason => (none, g.finish reason, handle)
  | .scored logits, none =>
    let (item, g) := g.choose logits
    (some item, g, handle)
  | .pending token, none =>
    let outcome := g.session.decodeStep token handle.cancelled
    let g := { g with session := outcome.session }
    let handle := { handle with cancelled := outcome.cancelled }
    match outcome.result with
    | .ok logits =>
      let (item, g) := { g with feedbacks := g.feedbacks + 1 }.choose logits
      (some item, g, handle)
    | .error e =>
      match e.finishReason? with
      | some reason => (none, g.finish reason, handle)
      | none => (some (.error (.session e)), g.abandon, handle)

def budget (g : Generation) : Nat := g.config.maxNewTokens - g.tokens.length

end Generation

end TextGen
