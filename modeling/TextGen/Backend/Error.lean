import TextGen.Model.File

/-!
What can go wrong when a model is loaded or run.
-/

namespace TextGen

inductive InputFlaw
  | isOutput (name : TensorName)
  | beyondLayers (name : TensorName) (layerCount : Nat)
  | noRow
  | outsideVocabulary (token : TokenId)
  | positions (past : Nat)
  | scripted
  deriving DecidableEq, Repr

namespace InputFlaw

def message : InputFlaw → String
  | isOutput name => name.text ++ " is an output"
  | beyondLayers name layerCount =>
    name.text ++ " exceeds the model's " ++ toString layerCount ++ " layers"
  | noRow => "input_ids must be [1, n] with n > 0"
  | outsideVocabulary token => "token " ++ toString token ++ " is outside the vocabulary"
  | positions past => "position_ids must continue from " ++ toString past
  | scripted => "scripted failure"

end InputFlaw

inductive BackendError
  | modelNotFound (path : String)
  | invalidModel (reason : ModelFileError)
  | missingTensor (name : TensorName)
  | typeMismatch (name : TensorName)
  | shapeMismatch (name : TensorName) (expected actual : List Nat)
  | invalidInput (flaw : InputFlaw)
  | cancelled
  deriving DecidableEq

namespace BackendError

def shapeText (shape : List Nat) : String := "[" ++ ", ".intercalate (shape.map toString) ++ "]"

def message : BackendError → String
  | modelNotFound path => "Model not found at " ++ path
  | invalidModel reason => "Invalid model: " ++ reason.message
  | missingTensor name => "Missing tensor " ++ name.text
  | typeMismatch name => "Tensor " ++ name.text ++ " has unexpected element type"
  | shapeMismatch name expected actual =>
    "Tensor " ++ name.text ++ " has shape " ++ shapeText actual ++ ", expected " ++
      shapeText expected
  | invalidInput flaw => "Invalid input: " ++ flaw.message
  | cancelled => "Inference cancelled"

end BackendError

def BigramModel.load (storage : Storage) (path : String) : Except BackendError BigramModel :=
  match load? storage path with
  | none => .error (.modelNotFound (storage.resolve path fileName))
  | some (.error reason) => .error (.invalidModel reason)
  | some (.ok model) => .ok model

end TextGen
