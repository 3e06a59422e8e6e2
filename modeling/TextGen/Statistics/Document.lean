import TextGen.Generation.FinishReason
import TextGen.Json.Reader
import TextGen.Statistics.Basic

/-!
Statistics as JSON documents. Members that belong to no statistic are skipped.
-/

namespace TextGen

open Json (RecordField Value Problem)

namespace RunStats

def fields : List (RecordField RunStats) := [
  { name := "count", read := fun v s => return { s with count := ← v.word } },
  { name := "average_duration", read := fun v s => return { s with averageDuration := ← v.float } }
]

def ofDocument (v : Value) : Except Problem RunStats := v.record fields false {}

end RunStats

namespace PhaseStats

def fields : List (RecordField PhaseStats) := [
  { name := "duration", read := fun v s => return { s with duration := ← v.float } },
  { name := "tokens_count", read := fun v s => return { s with tokenCount := ← v.word } },
  { name := "tokens_per_second",
    read := fun v s => return { s with tokensPerSecond := ← v.float } },
  { name := "model_run", read := fun v s => return { s with runs := ← RunStats.ofDocument v } }
]

def ofDocument (v : Value) : Except Problem PhaseStats := v.record fields false {}

end PhaseStats

namespace TotalStats

def fields : List (RecordField TotalStats) := [
  { name := "duration", read := fun v s => return { s with duration := ← v.float } },
  { name := "tokens_count_input",
    read := fun v s => return { s with inputTokenCount := ← v.word } },
  { name := "tokens_count_output",
    read := fun v s => return { s with outputTokenCount := ← v.word } }
]

def ofDocument (v : Value) : Except Problem TotalStats := v.record fields false {}

end TotalStats

namespace GenerationStats

def fields : List (RecordField GenerationStats) := [
  { name := "prefill_stats",
    read := fun v s => return { s with prefill := ← PhaseStats.ofDocument v } },
  { name := "generate_stats", required := false,
    read := fun v s => return { s with decoding := ← v.optional PhaseStats.ofDocument } },
  { name := "total_stats",
    read := fun v s => return { s with total := ← TotalStats.ofDocument v } }
]

def ofDocument (v : Value) : Except Problem GenerationStats := v.record fields false {}

end GenerationStats

namespace PerformanceStatistics

def measure (name : String) (set : PerformanceStatistics → Float → PerformanceStatistics) :
    RecordField PerformanceStatistics where
  name := name
  read v s := return set s (← v.float)

def count (name : String) (set : PerformanceStatistics → Nat → PerformanceStatistics) :
    RecordField PerformanceStatistics where
  name := name
  read v s := return set s (← v.word)

def fields : List (RecordField PerformanceStatistics) := [
  measure "llm_load_duration" fun s x => { s with modelLoadDuration := x },
  measure "llm_unload_duration" fun s x => { s with modelUnloadDuration := x },
  measure "llm_cancel_duration" fun s x => { s with cancelDuration := x },
  measure "tokenizer_load_duration" fun s x => { s with tokenizerLoadDuration := x },
  measure "tokenizer_unload_duration" fun s x => { s with tokenizerUnloadDuration := x },
  measure "llm_first_infer_duration" fun s x => { s with firstInferDuration := x },
  measure "llm_prompt_evaluation_speed" fun s x => { s with promptEvaluationSpeed := x },
  measure "llm_generate_next_token_duration" fun s x => { s with nextTokenDuration := x },
  measure "llm_average_token_per_second" fun s x => { s with averageTokensPerSecond := x },
  count "input_token_num" fun s n => { s with inputTokenCount := n },
  count "generated_token_num" fun s n => { s with generatedTokenCount := n }
]

def ofDocument (v : Value) : Except Problem PerformanceStatistics := v.record fields false {}

end PerformanceStatistics

namespace AgreementStats

def fields : List (RecordField AgreementStats) := [
  { name := "iterations", read := fun v s => return { s with iterations := ← v.word } },
  { name := "agreed", read := fun v s => return { s with agreed := ← v.word } },
  { name := "disagreed", read := fun v s => return { s with disagreed := ← v.word } }
]

def ofDocument (v : Value) : Except Problem AgreementStats := v.record fields false {}

end AgreementStats

namespace FinishReason

def ofDocument : Value → Except Problem FinishReason
  | .text name => read name
  | .object ((name, v) :: rest) closed => do
    let reason ← read name
    match v with
    | .null => if rest.isEmpty ∧ closed then return reason else throw .malformed
    | v => throw v.mismatch
  | _ => .error .malformed
where
  read (name : Json.Quoted) : Except Problem FinishReason :=
    match name.text? with
    | none => .error .malformed
    | some text => (ofName? text).elim (.error .badValue) .ok

end FinishReason

end TextGen
