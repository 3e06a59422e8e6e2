import TextGen.CommandLine.Arguments
import TextGen.CommandLine.Numeral
import TextGen.Speculative.Basic

/-!
The commands: generate with one model, or with a draft model beside a target model. The environment
variables that the program looks at.
-/

namespace TextGen

abbrev Environment := String → Option String

inductive EnvironmentVariable
  | log
  | skipModelValidation
  deriving DecidableEq, Repr

namespace EnvironmentVariable

def key : EnvironmentVariable → String
  | log => "NAGARE_LOG"
  | skipModelValidation => "NAGARE_SKIP_MODEL_VALIDATION"

def value (v : EnvironmentVariable) (environment : Environment) : String :=
  (environment v.key).getD ""

def isEnabled (v : EnvironmentVariable) (environment : Environment) : Bool :=
  ["1", "YES", "TRUE"].contains (v.value environment).toUpper

end EnvironmentVariable

namespace CommandLine

structure RunOptions where
  modelPath : String
  prompt : String
  settingsPath : Option String := none
  greedy : Bool := false
  temperature : Option Float32 := none
  topK : Option Nat := none
  topP : Option Float32 := none
  repeatPenalty : Option Float32 := none
  seed : Option Nat := none
  maxTokens : Option Nat := none
  threadCount : Option Nat := none
  deriving DecidableEq

structure GenerateOptions where
  draftPath : String
  targetPath : String
  prompt : String
  config : SpeculativeConfig := {}
  deriving DecidableEq

def path? (s : String) : Option String := if s.isEmpty then none else some s

namespace RunOptions

def specs : List OptionSpec := [
  { name := "generation-config" },
  { name := "greedy", takesValue := false },
  { name := "temperature" },
  { name := "top-k" },
  { name := "top-p" },
  { name := "repeat-penalty" },
  { name := "seed", letter := some 's' },
  { name := "max-tokens", letter := some 'm' },
  { name := "threads" }
]

def parse? (words : List String) : Option RunOptions := do
  let arguments ← Arguments.ofWords? specs words
  let [modelPath, prompt] := arguments.places | none
  return {
    modelPath := ← path? modelPath
    prompt := prompt
    settingsPath := ← arguments.value? "generation-config" path?
    greedy := ← arguments.flag? "greedy"
    temperature := ← arguments.value? "temperature" Numeral.float32?
    topK := ← arguments.value? "top-k" Numeral.natural?
    topP := ← arguments.value? "top-p" Numeral.float32?
    repeatPenalty := ← arguments.value? "repeat-penalty" Numeral.float32?
    seed := ← arguments.value? "seed" Numeral.natural?
    maxTokens := ← arguments.value? "max-tokens" Numeral.natural?
    threadCount := ← arguments.value? "threads" Numeral.natural?
  }

end RunOptions

namespace GenerateOptions

def specs : List OptionSpec := [
  { name := "max-iterations" },
  { name := "verify", takesValue := false },
  { name := "eos" }
]

def eosTokenIds? (lists : List String) (default : List TokenId) : Option (List TokenId) :=
  if lists.isEmpty then some default
  else (lists.flatMap (·.splitOn ",")).mapM Numeral.integer?

def parse? (words : List String) : Option GenerateOptions := do
  let arguments ← Arguments.ofWords? specs words
  let [draftPath, targetPath, prompt] := arguments.places | none
  let config : SpeculativeConfig := {}
  let maxIterations ← arguments.value? "max-iterations" Numeral.natural?
  let verify ← arguments.flag? "verify"
  return {
    draftPath := ← path? draftPath
    targetPath := ← path? targetPath
    prompt := prompt
    config := {
      maxIterations := maxIterations.getD config.maxIterations
      eosTokenIds := ← eosTokenIds? (arguments.values "eos") config.eosTokenIds
      policy := if verify then .greedy else .unverified
    }
  }

end GenerateOptions

inductive Command
  | run (options : RunOptions)
  | generate (options : GenerateOptions)
  deriving DecidableEq

namespace Command

def parse? : List String → Option Command
  | "run" :: words => (RunOptions.parse? words).map run
  | "generate" :: words => (GenerateOptions.parse? words).map generate
  | _ => none

def usage : String :=
  "usage: run MODEL PROMPT [--generation-config FILE] [--greedy] [--temperature X] [--top-k N] " ++
  "[--top-p X] [--repeat-penalty X] [-s|--seed N] [-m|--max-tokens N] [--threads N]\n" ++
  "       generate DRAFT TARGET PROMPT [--max-iterations N] [--verify] [--eos ID,...]"

end Command

end CommandLine

end TextGen
