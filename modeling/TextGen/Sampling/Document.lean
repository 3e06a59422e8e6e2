import TextGen.Json.OneOrMany
import TextGen.Sampling.Config
import TextGen.Text.Utf8

/-!
Settings documents: a JSON object whose members replace default settings. Every member may be left
out or be `null`, and a member that is no setting is refused.
-/

namespace TextGen

namespace SamplingConfig

open Json (RecordField Value OneOrMany Problem)

def setting (name : String) (aliases : List String) (read : Value → Except Problem α)
    (set : SamplingConfig → α → SamplingConfig) : RecordField SamplingConfig where
  name := name
  aliases := aliases
  required := false
  read value config := do
    match ← value.optional read with
    | none => return config
    | some x => return set config x

def settings : List (RecordField SamplingConfig) := [
  setting "max_new_tokens" [] Value.word fun c x => { c with maxNewTokens := x },
  setting "do_sample" [] Value.bool fun c x => { c with doSample := x },
  setting "temperature" [] Value.float32 fun c x => { c with temperature := x },
  setting "top_k" [] Value.word fun c x => { c with topK := x },
  setting "top_p" [] Value.float32 fun c x => { c with topP := x },
  setting "repeat_penalty" ["repetition_penalty"] Value.float32 fun c x =>
    { c with repeatPenalty := x },
  setting "repeat_last_n" [] Value.word fun c x => { c with repeatLastN := x },
  setting "seed" [] Value.signed fun c x => { c with seed := .ofInt x },
  setting "eos_token_id" ["eos_token_ids"] (OneOrMany.read (Json.nestingLimit - 1) Value.signed)
    fun c x => { c with eosTokenIds := x.toList }
]

def ofDocument (v : Value) : Except Problem SamplingConfig := v.record settings true {}

end SamplingConfig

inductive SettingsError
  | unreadable
  | document (problem : Json.Problem)
  | invalid (error : SamplingConfigError)
  deriving DecidableEq

namespace SettingsError

def message : SettingsError → String
  | unreadable => "Unable to load generation config: io"
  | document problem => "Unable to load generation config: " ++ problem.message
  | invalid error => error.message

end SettingsError

namespace SamplingConfig

def parse (text : String) : Except SettingsError SamplingConfig := do
  let config ← (Json.decode ofDocument text).mapError .document
  config.validate.mapError .invalid
  return config

def ofFile (contents : Option (List UInt8)) : Except SettingsError SamplingConfig :=
  match contents.bind Utf8.decode? with
  | none => .error .unreadable
  | some text => parse text

end SamplingConfig

end TextGen
