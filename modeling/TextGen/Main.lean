import TextGen.CommandLine.Program

/-!
The program: it looks up what its command needs, and shows the transcript piece by piece.
-/

namespace TextGen.CommandLine

def readEntry (handle : IO.FS.Handle) : IO StoredEntry := do
  try return .file (← handle.readBinToEnd).toList
  catch _ => return .directory

def storedEntry? (path : String) : IO (Option StoredEntry) := do
  try return some (← readEntry (← IO.FS.Handle.mk path .read))
  catch _ => return none

def play (loaded promptRead : Nat) : Transcript → IO UInt32
  | .say text rest => do
    let out ← IO.getStdout
    out.putStr text
    out.flush
    play loaded promptRead (rest ())
  | .reach .loaded rest => do
    let now ← IO.monoNanosNow
    play now now (rest ())
  | .reach .promptRead rest => do
    play loaded (← IO.monoNanosNow) (rest ())
  | .finish summary => do
    let finished ← IO.monoNanosNow
    let timing :=
      match summary with
      | .run promptTokens _ feedbacks _ =>
        Timing.measured loaded promptRead finished promptTokens feedbacks
      | .generate .. => Timing.measured loaded promptRead finished 0 0
    IO.println (summary.line timing)
    return 0
  | .fail message => do
    IO.eprint (Transcript.errorText message)
    return 1

def runProgram (words : List String) : IO UInt32 := do
  match Command.parse? words with
  | none =>
    IO.eprintln Command.usage
    return 2
  | some command =>
    let entries ← command.paths.mapM fun path => return (path, ← storedEntry? path)
    let settings ← Command.environmentKeys.mapM fun key => return (key, ← IO.getEnv key)
    let freshSeed ← IO.rand 0 (wordCount 64 - 1)
    play 0 0 (command.transcript (fun path => (entries.lookup path).join)
      (fun key => (settings.lookup key).join) freshSeed.toUInt64)

end TextGen.CommandLine

def main (words : List String) : IO UInt32 := TextGen.CommandLine.runProgram words
