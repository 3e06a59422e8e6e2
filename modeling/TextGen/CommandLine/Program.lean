import TextGen.CommandLine.Generate
import TextGen.CommandLine.Run

/-!
What a command reads and what it prints.
-/

namespace TextGen.CommandLine.Command

def paths : Command → List String
  | run o =>
    o.settingsPath.toList ++
      [o.modelPath, Path.join o.modelPath BigramModel.fileName,
        Path.join o.modelPath WordLevel.fileName]
  | generate o =>
    [o.draftPath, Path.join o.draftPath BigramModel.fileName, o.targetPath,
      Path.join o.targetPath BigramModel.fileName, Path.join o.targetPath WordLevel.fileName]

def environmentKeys : List String := [EnvironmentVariable.skipModelValidation.key]

def transcript (command : Command) (storage : Storage) (environment : Environment)
    (freshSeed : UInt64) : Transcript :=
  match command with
  | run o => o.transcript storage environment freshSeed
  | generate o => o.transcript storage

def usageReport : Report := ⟨2, "", usage ++ "\n"⟩

def report (words : List String) (storage : Storage) (environment : Environment)
    (freshSeed : UInt64) (timing : Timing) : Report :=
  match parse? words with
  | none => usageReport
  | some command => (command.transcript storage environment freshSeed).report timing

end TextGen.CommandLine.Command
