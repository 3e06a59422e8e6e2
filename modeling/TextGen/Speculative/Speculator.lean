import TextGen.Speculative.Basic

/-!
Speculators hold a draft and a target session on models with the same vocabulary. Both sessions are
empty between generations.
-/

namespace TextGen

structure SpeculativeOutput where
  text : String
  tokens : List TokenId
  finishReason : FinishReason
  stats : AgreementStats
  deriving DecidableEq

structure Speculator where
  draft : Session
  target : Session
  codec : Codec
  config : SpeculativeConfig
  history : List TokenId

namespace Speculator

def ofSessions (draft target : Session) (codec : Codec) (config : SpeculativeConfig) :
    Except GenerationError Speculator :=
  if draft.shape.vocabSize = target.shape.vocabSize then
    .ok { draft, target, codec, config, history := [] }
  else .error (.incompatibleModels draft.shape.vocabSize target.shape.vocabSize)

def release (s : Speculator) (g : Speculation) : Speculator :=
  { s with draft := g.draft.reset, target := g.target.reset, history := g.history }

def start (s : Speculator) (prompt : String) (cancelled : Bool) :
    Except GenerationError (Speculation × Bool) := do
  let ids ← (s.codec.encode prompt).mapError .codec
  return Speculation.start s.draft s.target s.codec s.config ids cancelled

def conclude (g : Speculation) : Except GenerationError (String × SpeculativeOutput) := do
  let finishReason ← g.ending
  let tail ← (g.streamed.finish g.codec).1.mapError .codec
  return (tail, { text := g.text ++ tail, tokens := g.tokens, finishReason, stats := g.stats })

structure Run where
  result : Except GenerationError SpeculativeOutput
  chunks : List String
  speculator : Speculator
  cancelled : Bool

def generate (s : Speculator) (prompt : String) (cancelled : Bool)
    (cancelsAt : List String → Bool) : Run :=
  match s.start prompt cancelled with
  | .error e => ⟨.error e, [], s, cancelled⟩
  | .ok (g, cancelled) =>
    let (chunks, g, cancelled) := g.run cancelsAt (g.budget + 1) [] cancelled
    let s := s.release g
    match conclude g with
    | .error e => ⟨.error e, chunks.reverse, s, cancelled⟩
    | .ok (tail, output) =>
      let chunks := tail :: chunks
      ⟨.ok output, chunks.reverse, s, cancelled || cancelsAt chunks⟩

end Speculator

end TextGen
