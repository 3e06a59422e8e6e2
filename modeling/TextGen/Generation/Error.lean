import TextGen.Codec.Basic
import TextGen.Controller.Status
import TextGen.Sampling.Config
import TextGen.Session.Error

/-!
What can go wrong when a generation is prepared or run.
-/

namespace TextGen

inductive GenerationError
  | modelNotLoaded
  | tokenizerNotLoaded
  | tokenizerUnreadable
  | invalidConfig (error : SamplingConfigError)
  | invalidState (status : ControllerStatus)
  | incompatibleModels (draft target : Nat)
  | codec (error : CodecError)
  | session (error : SessionError)
  | backend (error : BackendError)
  deriving DecidableEq

namespace GenerationError

def message : GenerationError → String
  | modelNotLoaded => "Model not loaded"
  | tokenizerNotLoaded => "Tokenizer not loaded"
  | tokenizerUnreadable => "Unable to load tokenizer"
  | invalidConfig error => error.message
  | invalidState status => "Cannot generate while " ++ status.text
  | incompatibleModels draft target =>
    "Draft and target models disagree on vocabulary size (" ++ toString draft ++ " vs " ++
      toString target ++ ")"
  | codec error => error.message
  | session error => error.message
  | backend error => error.message

end GenerationError

end TextGen
