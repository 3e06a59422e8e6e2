import TextGen.Controller.Basic
import TextGen.Generation.Basic

/-!
Token streams: a generation together with the controller that runs it. The controller follows the
generation step by step. When the generation ends, however that comes about, its statistics are
recorded and the controller is ready for the next prompt.
-/

namespace TextGen

structure Output where
  text : String
  tokens : List TokenId
  stats : GenerationStats
  finishReason : FinishReason
  deriving DecidableEq

def Controller.follow (c : Controller) (g : Generation) : Controller :=
  let c := { c with session := some g.session }
  match g.phase with
  | .scored _ | .pending _ => { c with status := .generating }
  | .finished .cancelled =>
    { c with status := .stopped, statistics := c.statistics.record g.stats }
  | .finished _ => { c with status := c.restStatus, statistics := c.statistics.record g.stats }
  | .failed => { c with status := c.restStatus }

structure TokenStream where
  controller : Controller
  generation : Generation

namespace TokenStream

def advance (s : TokenStream) (g : Generation) : TokenStream := ⟨s.controller.follow g, g⟩

def start (c : Controller) (session : Session) (codec : Codec) (prompt : List TokenId)
    (config : SamplingConfig) (sampler : Sampler) :
    Except (GenerationError × Controller) TokenStream :=
  let (result, g, cancelled) := Generation.start session codec config sampler prompt false
  let c := { c with stopHandle := { StopHandle.lowered with cancelled } }
  match result with
  | .ok () => .ok ⟨c.follow g, g⟩
  | .error e => .error (e, c.follow g)

def next (s : TokenStream) : Option (Except GenerationError StreamEvent) × TokenStream :=
  let (item, g, stopHandle) := s.generation.next s.controller.stopHandle
  (item, { s with controller.stopHandle := stopHandle }.advance g)

def stop (s : TokenStream) : TokenStream := { s with controller.stopHandle := .raised }

def take (limit : Nat) (s : TokenStream) :
    List (Except GenerationError StreamEvent) × TokenStream :=
  match limit with
  | 0 => ([], s)
  | limit + 1 =>
    match s.next with
    | (none, s) => ([], s)
    | (some item, s) =>
      let (items, s) := s.take limit
      (item :: items, s)

def rest (s : TokenStream) : List (Except GenerationError StreamEvent) × TokenStream :=
  s.take (s.generation.budget + 1)

def close (s : TokenStream) : TokenStream :=
  if s.generation.isRunning then s.advance (s.generation.finish .cancelled) else s

/--
End a stream and return what it has produced. The tokens are moved out before the statistics of the
output are made up, so that these count none; those of the controller count them.
-/
def intoOutput (s : TokenStream) : Output × Controller :=
  let s := s.close
  let g := s.generation
  ({ text := g.text
     tokens := g.tokens
     stats := { g with tokens := [] }.stats
     finishReason := g.finishReason?.getD .cancelled }, s.controller)

/--
Run a stream to its end and return the events with the error that ended it, if any. After every
event `stopsAt` is asked whether to stop, and sees the events so far, the last one first.
-/
def drain (stopsAt : List StreamEvent → Bool) (limit : Nat) (seen : List StreamEvent)
    (s : TokenStream) : List StreamEvent × Option GenerationError × TokenStream :=
  match limit with
  | 0 => (seen.reverse, none, s)
  | limit + 1 =>
    match s.next with
    | (none, s) => (seen.reverse, none, s)
    | (some (.error e), s) => (seen.reverse, some e, s)
    | (some (.ok event), s) =>
      let seen := event :: seen
      drain stopsAt limit seen (if stopsAt seen then s.stop else s)

end TokenStream

namespace Controller

def stream (c : Controller) (prompt : String) (config : SamplingConfig) (freshSeed : UInt64) :
    Except (GenerationError × Controller) TokenStream := do
  let (session, codec, ids) ← prepare.mapError fun e => (e, c)
  TokenStream.start c session codec ids config (.ofSeed (config.seed.resolve freshSeed))
where
  prepare : Except GenerationError (Session × Codec × List TokenId) := do
    config.validate.mapError .invalidConfig
    let (session, codec) ← c.checkReady
    return (session, codec, ← (codec.encode prompt).mapError .codec)

def generateWith (c : Controller) (prompt : String) (config : SamplingConfig) (freshSeed : UInt64)
    (stopsAt : List StreamEvent → Bool) :
    List StreamEvent × Except GenerationError Output × Controller :=
  match c.stream prompt config freshSeed with
  | .error (e, c) => ([], .error e, c)
  | .ok s =>
    match s.drain stopsAt (s.generation.budget + 1) [] with
    | (events, some e, s) => (events, .error e, s.controller)
    | (events, none, s) =>
      let (output, c) := s.intoOutput
      (events, .ok output, c)

def generate (c : Controller) (prompt : String) (config : SamplingConfig) (freshSeed : UInt64) :
    Except GenerationError Output × Controller :=
  (c.generateWith prompt config freshSeed fun _ => false).2

end Controller

end TextGen
