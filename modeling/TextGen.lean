import TextGen.Codec.Pieces
import TextGen.Main
import TextGen.Statistics.Document
import TextGen.Proofs.Backend.Acceptance
import TextGen.Proofs.Backend.Engine
import TextGen.Proofs.Backend.Outputs
import TextGen.Proofs.Backend.Positions
import TextGen.Proofs.Backend.Reads
import TextGen.Proofs.Backend.Request
import TextGen.Proofs.Backend.Scores
import TextGen.Proofs.Codec.WordLevel
import TextGen.Proofs.Controller.FailedLoads
import TextGen.Proofs.Controller.Generate
import TextGen.Proofs.Controller.Independence
import TextGen.Proofs.Controller.Interruption
import TextGen.Proofs.Controller.Lifecycle
import TextGen.Proofs.Controller.Runs
import TextGen.Proofs.Controller.Status
import TextGen.Proofs.Controller.Stream
import TextGen.Proofs.Except
import TextGen.Proofs.Generation.Interruption
import TextGen.Proofs.Generation.Lifecycle
import TextGen.Proofs.Generation.Steps
import TextGen.Proofs.Generation.Task
import TextGen.Proofs.Json.Literal
import TextGen.Proofs.Json.Number
import TextGen.Proofs.Json.Record
import TextGen.Proofs.Json.RoundTrip
import TextGen.Proofs.Json.Spelling
import TextGen.Proofs.Model.File
import TextGen.Proofs.Numeric.Arithmetic
import TextGen.Proofs.Numeric.Bounds
import TextGen.Proofs.Numeric.Decoding
import TextGen.Proofs.Numeric.Nearest
import TextGen.Proofs.Numeric.Rounding
import TextGen.Proofs.Sampling.Argmax
import TextGen.Proofs.Sampling.Cuts
import TextGen.Proofs.Sampling.Draw
import TextGen.Proofs.Sampling.Greedy
import TextGen.Proofs.Sampling.NotANumber
import TextGen.Proofs.Sampling.Overlay
import TextGen.Proofs.Sampling.Penalty
import TextGen.Proofs.Sampling.Ranking
import TextGen.Proofs.Sampling.Selection
import TextGen.Proofs.Sampling.Shares
import TextGen.Proofs.Session.Absorption
import TextGen.Proofs.Session.Answers
import TextGen.Proofs.Session.Atomicity
import TextGen.Proofs.Session.Cache
import TextGen.Proofs.Session.Handover
import TextGen.Proofs.Session.Independence
import TextGen.Proofs.Session.Interruption
import TextGen.Proofs.Session.Invariant
import TextGen.Proofs.Session.Operations
import TextGen.Proofs.Session.Recomputation
import TextGen.Proofs.Session.Reset
import TextGen.Proofs.Session.Run
import TextGen.Proofs.Session.Safety
import TextGen.Proofs.Session.Sequence
import TextGen.Proofs.Session.Working
import TextGen.Proofs.Speculative.Bookkeeping
import TextGen.Proofs.Speculative.Shadow
import TextGen.Proofs.Speculative.Simulation
import TextGen.Proofs.Speculative.Steps
import TextGen.Proofs.Speculative.Transparency
import TextGen.Proofs.Tensor.Bindings
import TextGen.Proofs.Tensor.Grid
import TextGen.Proofs.Text.Incremental
import TextGen.Proofs.Text.Lines
import TextGen.Proofs.Text.Lossy
import TextGen.Proofs.Text.Streaming
import TextGen.Proofs.Text.Utf8
