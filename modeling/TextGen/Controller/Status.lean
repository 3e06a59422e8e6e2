/-!
The status of a controller, which tells what is loaded and whether a generation is running.
-/

namespace TextGen

inductive ControllerStatus
  | uninitialized
  | modelLoaded
  | tokenizerLoaded
  | ready
  | generating
  | stopped
  | unloaded
  deriving DecidableEq, Repr, Inhabited

namespace ControllerStatus

def all : List ControllerStatus :=
  [uninitialized, modelLoaded, tokenizerLoaded, ready, generating, stopped, unloaded]

def text : ControllerStatus → String
  | uninitialized => "uninitialized"
  | modelLoaded => "model loaded"
  | tokenizerLoaded => "tokenizer loaded"
  | ready => "ready"
  | generating => "generating"
  | stopped => "stopped"
  | unloaded => "unloaded"

def name : ControllerStatus → String
  | modelLoaded => "model_loaded"
  | tokenizerLoaded => "tokenizer_loaded"
  | status => status.text

def canGenerate (status : ControllerStatus) : Bool := status = ready || status = stopped

def ofLoaded (hasModel hasTokenizer : Bool) : ControllerStatus :=
  match hasModel, hasTokenizer with
  | true, true => ready
  | true, false => modelLoaded
  | false, true => tokenizerLoaded
  | false, false => uninitialized

end ControllerStatus

end TextGen
