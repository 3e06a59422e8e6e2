import TextGen.CommandLine.Command
import TextGen.CommandLine.Transcript
import TextGen.Controller.Basic
import TextGen.Speculative.Speculator

/-!
The command that generates with a draft model beside a target model.
-/

namespace TextGen.CommandLine.GenerateOptions

def openSession (storage : Storage) (path : String) : Except String Session :=
  match Backend.ofStorage storage path {} with
  | .ok compiled => (Session.create compiled none).mapError (·.message)
  | .error e => .error e.message

def loadSpeculator (o : GenerateOptions) (storage : Storage) : Except String Speculator := do
  let draft ← openSession storage o.draftPath
  let target ← openSession storage o.targetPath
  match WordLevel.load? storage o.targetPath with
  | none =>
    let reason : GenerationError := .tokenizerUnreadable
    .error ("no tokenizer in " ++ o.targetPath ++ ": " ++ reason.message)
  | some tokenizer =>
    (Speculator.ofSessions draft target tokenizer.codec o.config).mapError (·.message)

def narrate (limit : Nat) (g : Speculation) (cancelled : Bool) : Transcript :=
  match limit with
  | 0 => conclude g
  | limit + 1 =>
    if !g.isRunning then conclude g
    else
      match g.next cancelled with
      | (none, g, cancelled) => narrate limit g cancelled
      | (some chunk, g, cancelled) => .say chunk fun _ => narrate limit g cancelled
where
  conclude (g : Speculation) : Transcript :=
    match Speculator.conclude g with
    | .error e => .fail e.message
    | .ok (tail, output) => .say tail fun _ => .finish (.generate output.stats output.finishReason)

def transcript (o : GenerateOptions) (storage : Storage) : Transcript :=
  match o.loadSpeculator storage with
  | .error message => .fail message
  | .ok s =>
    .reach .loaded fun _ =>
      match s.start o.prompt false with
      | .error e => .fail e.message
      | .ok (g, cancelled) => .reach .promptRead fun _ => narrate (g.budget + 1) g cancelled

end TextGen.CommandLine.GenerateOptions
