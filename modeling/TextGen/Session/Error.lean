import TextGen.Backend.Error

/-!
What can go wrong in a session.
-/

namespace TextGen

inductive SessionError
  | emptyPrompt
  | notPrefilled
  | contextLengthExceeded (limit : Nat)
  | layerCountMismatch (expected actual : Nat)
  | backend (error : BackendError)
  deriving DecidableEq

namespace SessionError

def message : SessionError → String
  | emptyPrompt => "Prompt must contain at least one token"
  | notPrefilled => "Session has not been prefilled"
  | contextLengthExceeded limit => "Context length of " ++ toString limit ++ " tokens exceeded"
  | layerCountMismatch expected actual =>
    "Model exposes " ++ toString actual ++ " cache layers, expected " ++ toString expected
  | backend error => error.message

def isCancelled : SessionError → Bool
  | backend .cancelled => true
  | _ => false

end SessionError

end TextGen
