import TextGen.CommandLine.Command
import TextGen.CommandLine.Transcript
import TextGen.Controller.Stream
import TextGen.Sampling.Document

/-!
The command that generates with one model and shows the text as it comes.
-/

namespace TextGen.CommandLine.RunOptions

def samplingConfig (o : RunOptions) (base : SamplingConfig) : SamplingConfig where
  doSample := if o.greedy then false else base.doSample
  temperature := o.temperature.getD base.temperature
  topK := o.topK.getD base.topK
  topP := o.topP.getD base.topP
  repeatPenalty := o.repeatPenalty.getD base.repeatPenalty
  repeatLastN := base.repeatLastN
  seed := o.seed.elim base.seed fun seed => .fixed seed.toUInt64
  maxNewTokens := o.maxTokens.getD base.maxNewTokens
  eosTokenIds := base.eosTokenIds

def readSettings (o : RunOptions) (storage : Storage) : Except String SamplingConfig :=
  match o.settingsPath with
  | none => .ok (o.samplingConfig {})
  | some path =>
    match SamplingConfig.ofFile (storage.read? path) with
    | .ok base => .ok (o.samplingConfig base)
    | .error e => .error ("failed to read " ++ path ++ ": " ++ e.message)

def loadController (o : RunOptions) (storage : Storage) (validate : Bool) :
    Except GenerationError Controller := do
  let (result, c) :=
    (Controller.ofConfig {}).loadModel (.ofStorage storage) o.modelPath o.threadCount validate
  result
  let (result, c) := c.loadTokenizer storage o.modelPath
  result
  return c

def narrate (limit : Nat) (printed : Nat) (s : TokenStream) : Transcript :=
  match limit with
  | 0 => conclude s
  | limit + 1 =>
    match s.next with
    | (none, s) => conclude s
    | (some (.error e), _) => .fail e.message
    | (some (.ok event), s) =>
      .say event.text fun _ => narrate limit (printed + event.text.utf8ByteSize) s
where
  conclude (s : TokenStream) : Transcript :=
    let (output, c) := s.intoOutput
    .say (textFrom output.text printed) fun _ =>
      .finish (.run output.stats.total.inputTokenCount c.statistics.generatedTokenCount
        (output.stats.decoding.elim 0 (·.tokenCount)) output.finishReason)

def transcript (o : RunOptions) (storage : Storage) (environment : Environment)
    (freshSeed : UInt64) : Transcript :=
  match o.readSettings storage with
  | .error message => .fail message
  | .ok config =>
    let validate := !EnvironmentVariable.skipModelValidation.isEnabled environment
    match o.loadController storage validate with
    | .error e => .fail e.message
    | .ok c =>
      .reach .loaded fun _ =>
        match c.stream o.prompt config freshSeed with
        | .error (e, _) => .fail e.message
        | .ok s => .reach .promptRead fun _ => narrate (s.generation.budget + 1) 0 s

end TextGen.CommandLine.RunOptions
