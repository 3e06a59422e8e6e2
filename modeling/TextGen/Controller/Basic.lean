import TextGen.Codec.WordLevel.File
import TextGen.Controller.Config
import TextGen.Controller.StopHandle
import TextGen.Generation.Error
import TextGen.Session.Basic
import TextGen.Statistics.Basic

/-!
Controllers load a model and a tokenizer and keep the statistics of the generations that are run
with them. The status tells at any time what is loaded.
-/

namespace TextGen

structure Controller where
  config : ControllerConfig
  status : ControllerStatus
  session : Option Session
  codec : Option Codec
  stopHandle : StopHandle
  statistics : PerformanceStatistics

namespace Controller

def ofConfig (config : ControllerConfig) : Controller where
  config := config
  status := .uninitialized
  session := none
  codec := none
  stopHandle := .lowered
  statistics := {}

def restStatus (c : Controller) : ControllerStatus := .ofLoaded c.session.isSome c.codec.isSome

/--
Run one token on a session and drop it again, so that a model that breaks the rules of the cache is
found out before any prompt.
-/
def trial (session : Session) : Except SessionError Session := do
  let outcome := session.prefill [0] false
  let _ ← outcome.result
  return outcome.session.reset

def openSession (backend : Backend) (path : String) (config : ControllerConfig) (validate : Bool) :
    Except GenerationError Session := do
  let compiled ← (backend path config.compileOptions).mapError .backend
  let session ← (Session.create compiled config.contextLimit).mapError .session
  if validate then (trial session).mapError .session else return session

/--
Load the model at a path. A thread count that is given takes the place of the configured one, and
stays even if the model cannot be loaded.
-/
def loadModel (c : Controller) (backend : Backend) (path : String) (threadCount : Option Nat)
    (validate : Bool) : Except GenerationError Unit × Controller :=
  let c := { c with config.threadCount := threadCount <|> c.config.threadCount }
  match openSession backend path c.config validate with
  | .error e => (.error e, c)
  | .ok session =>
    let c :=
      { c with session := some session, statistics.modelLoadDuration := 1000 * unitDuration }
    (.ok (), { c with status := c.restStatus })

def setTokenizer (c : Controller) (codec : Codec) : Controller :=
  let c := { c with codec := some codec }
  { c with status := c.restStatus }

def loadTokenizer (c : Controller) (storage : Storage) (path : String) :
    Except GenerationError Unit × Controller :=
  match WordLevel.load? storage path with
  | none => (.error .tokenizerUnreadable, c)
  | some tokenizer =>
    let c := c.setTokenizer tokenizer.codec
    (.ok (), { c with statistics.tokenizerLoadDuration := 1000 * unitDuration })

def unloadModel (c : Controller) : Controller :=
  { c with
    session := none
    status := .unloaded
    statistics.modelUnloadDuration := 1000 * unitDuration }

def unloadTokenizer (c : Controller) : Controller :=
  let c := { c with codec := none, statistics.tokenizerUnloadDuration := 1000 * unitDuration }
  if c.status = .unloaded then c else { c with status := c.restStatus }

def stop (c : Controller) : Controller :=
  { c with stopHandle := .raised, statistics.cancelDuration := 1000 * unitDuration }

def reset (c : Controller) : Controller :=
  { c with
    session := c.session.map Session.reset
    statistics := {}
    stopHandle := .lowered
    status := if c.status = .stopped then c.restStatus else c.status }

def checkReady (c : Controller) : Except GenerationError (Session × Codec) :=
  match c.session, c.codec with
  | none, _ => .error .modelNotLoaded
  | some _, none => .error .tokenizerNotLoaded
  | some session, some codec =>
    if c.status.canGenerate then .ok (session, codec) else .error (.invalidState c.status)

end Controller

end TextGen
