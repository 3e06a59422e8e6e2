import TextGen.Decimal.Layout
import TextGen.Generation.FinishReason
import TextGen.Statistics.Basic
import TextGen.Text.Word

/-!
Transcripts: what a command prints, piece by piece, and how it ends. The rest of a transcript is
worked out only when it is asked for, so that a piece can be shown before the next one is known.
-/

namespace TextGen.CommandLine

inductive Milestone
  | loaded
  | promptRead
  deriving DecidableEq, Repr

inductive Summary
  | run (promptTokens tokens feedbacks : Nat) (reason : FinishReason)
  | generate (stats : AgreementStats) (reason : FinishReason)
  deriving DecidableEq

inductive Transcript
  | say (text : String) (rest : Unit → Transcript)
  | reach (milestone : Milestone) (rest : Unit → Transcript)
  | finish (summary : Summary)
  | fail (message : String)

structure Timing where
  total : String
  rate : String
  firstToken : String
  deriving DecidableEq, Repr

namespace Timing

def measured (loaded promptRead finished : Nat) (promptTokens feedbacks : Nat) : Timing :=
  let seconds (t : Nat) : Float := Float.ofNat t / 1000000000
  let prefill := seconds (promptRead - loaded)
  let decoding := seconds (finished - promptRead)
  let rate :=
    if feedbacks = 0 then PhaseStats.rate promptTokens prefill
    else PhaseStats.rate feedbacks decoding
  ⟨Binary64.fixed (prefill + decoding) 3, Binary64.fixed rate 3, Binary64.fixed (prefill * 1000) 1⟩

end Timing

def Summary.line (timing : Timing) : Summary → String
  | run _ tokens _ reason =>
    timing.total ++ "s, " ++ timing.rate ++ "t/s, first token " ++ timing.firstToken ++ "ms, " ++
      toString tokens ++ " tokens, " ++ reason.title
  | generate stats reason =>
    toString stats.iterations ++ " iterations, " ++ Binary64.fixed (stats.rate * 100) 1 ++
      "% agreement, " ++ reason.title

structure Report where
  code : Nat
  output : String
  diagnostics : String
  deriving DecidableEq, Repr

def errorMark : String := "error: "

def Report.errors (report : Report) : List String :=
  ((Text.lines report.diagnostics.toList).filter errorMark.toList.isPrefixOf).map String.ofList

namespace Transcript

def errorText (message : String) : String := errorMark ++ message ++ "\n"

def report (timing : Timing) : Transcript → Report
  | say text rest =>
    let report := (rest ()).report timing
    { report with output := text ++ report.output }
  | reach _ rest => (rest ()).report timing
  | finish summary => ⟨0, summary.line timing ++ "\n", ""⟩
  | fail message => ⟨1, "", errorText message⟩

end Transcript

end TextGen.CommandLine
