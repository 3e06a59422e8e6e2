import TextGen.Proofs.Controller.Status

/-!
This module contains what a load that fails leaves behind. Of a tokenizer that cannot be loaded
nothing is left. Of a model that cannot be loaded the thread count is left, with which the next
model is compiled if no other one is given, and no call but that load can tell the difference.
-/

namespace TextGen

inductive ControllerAnswer
  | done
  | loaded (result : Except GenerationError Unit)
  | generated (events : List StreamEvent) (result : Except GenerationError Output)
  | refused (e : GenerationError)
  | streamed (answers : List StreamAnswer) (output : Option Output)

def ControllerCall.isModelLoad : ControllerCall → Bool
  | .loadModel .. => true
  | _ => false

def fillThreads (threads : Option Nat) : List ControllerCall → List ControllerCall
  | [] => []
  | .loadModel backend path threadCount validate :: calls =>
    .loadModel backend path (threadCount <|> threads) validate :: calls
  | call :: calls => call :: fillThreads threads calls

theorem fillThreads_cons {call : ControllerCall} (threads : Option Nat)
    (calls : List ControllerCall) (hcall : call.isModelLoad = false)
    : fillThreads threads (call :: calls) = call :: fillThreads threads calls := by
  cases call with
  | loadModel => contradiction
  | _ => rfl

namespace Controller

def answer (c : Controller) : ControllerCall → ControllerAnswer
  | .loadModel backend path threadCount validate =>
    .loaded (c.loadModel backend path threadCount validate).1
  | .loadTokenizer storage path => .loaded (c.loadTokenizer storage path).1
  | .setTokenizer _ | .unloadModel | .unloadTokenizer | .stop | .reset => .done
  | .generate prompt config freshSeed stopsAt =>
    let run := c.generateWith prompt config freshSeed stopsAt
    .generated run.1 run.2.1
  | .stream prompt config freshSeed calls ending =>
    match c.stream prompt config freshSeed with
    | .error (e, _) => .refused e
    | .ok s =>
      let (answers, s) := s.performAll calls
      .streamed answers (if ending = .output then some s.intoOutput.1 else none)

def answerAll (c : Controller) : List ControllerCall → List ControllerAnswer
  | [] => []
  | call :: calls => c.answer call :: (c.perform call).answerAll calls

def withThreads (c : Controller) (threads : Option Nat) : Controller :=
  { c with config.threadCount := threads }

theorem follow_withThreads (c : Controller) (g : Generation) (threads : Option Nat)
    : (c.withThreads threads).follow g = (c.follow g).withThreads threads := by
  unfold follow
  dsimp only
  split <;> rfl

end Controller

/-! ## Streams -/

namespace TokenStream

def withThreads (s : TokenStream) (threads : Option Nat) : TokenStream :=
  { s with controller := s.controller.withThreads threads }

theorem advance_withThreads (s : TokenStream) (g : Generation) (threads : Option Nat)
    : (s.withThreads threads).advance g = (s.advance g).withThreads threads := by
  unfold advance withThreads
  rw [Controller.follow_withThreads]

theorem next_withThreads (s : TokenStream) (threads : Option Nat)
    : (s.withThreads threads).next = (s.next.1, s.next.2.withThreads threads) := by
  unfold next
  rcases hnext : s.generation.next s.controller.stopHandle with ⟨item, g, handle⟩
  have hsame : (s.withThreads threads).generation.next (s.withThreads threads).controller.stopHandle
      = (item, g, handle) := hnext
  rw [hsame]
  dsimp only
  rw [← advance_withThreads]
  rfl

theorem close_withThreads (s : TokenStream) (threads : Option Nat)
    : (s.withThreads threads).close = s.close.withThreads threads := by
  have hrunning : (s.withThreads threads).generation.isRunning = s.generation.isRunning := rfl
  unfold close
  rw [hrunning]
  split
  . exact advance_withThreads s _ threads
  . rfl

theorem performAll_withThreads (s : TokenStream) (threads : Option Nat) (calls : List StreamCall)
    : (s.withThreads threads).performAll calls
        =
      ((s.performAll calls).1, (s.performAll calls).2.withThreads threads) := by
  induction calls generalizing s with
  | nil => rfl
  | cons call calls ih =>
    cases call with
    | next =>
      unfold performAll
      rw [next_withThreads]
      dsimp only
      rw [ih]
    | stop => exact ih s.stop

theorem intoOutput_withThreads (s : TokenStream) (threads : Option Nat)
    : (s.withThreads threads).intoOutput
        =
      (s.intoOutput.1, s.intoOutput.2.withThreads threads) := by
  unfold intoOutput
  rw [close_withThreads]
  rfl

theorem letGo_withThreads (s : TokenStream) (threads : Option Nat) (ending : StreamEnd)
    : (s.withThreads threads).letGo ending = (s.letGo ending).withThreads threads := by
  cases ending with
  | output => exact congrArg Prod.snd (intoOutput_withThreads s threads)
  | drop =>
    unfold letGo
    rw [close_withThreads]
    rfl
  | leak => rfl

theorem drain_withThreads (s : TokenStream) (threads : Option Nat)
    (stopsAt : List StreamEvent → Bool) (limit : Nat) (seen : List StreamEvent)
    : (s.withThreads threads).drain stopsAt limit seen
        =
      ((s.drain stopsAt limit seen).1, (s.drain stopsAt limit seen).2.1,
        (s.drain stopsAt limit seen).2.2.withThreads threads) := by
  induction limit generalizing s seen with
  | zero => rfl
  | succ limit ih =>
    unfold drain
    rw [next_withThreads]
    rcases s.next with ⟨_ | (e | event), after⟩
    . rfl
    . rfl
    . dsimp only
      split
      . exact ih after.stop _
      . exact ih after _

end TokenStream

/-! ## Calls that compile nothing -/

namespace Controller

variable {c : Controller} {call : ControllerCall} {threads : Option Nat}

def restarted (threads : Option Nat) :
    Except (GenerationError × Controller) TokenStream →
      Except (GenerationError × Controller) TokenStream
  | .error (e, c) => .error (e, c.withThreads threads)
  | .ok s => .ok (s.withThreads threads)

theorem start_withThreads (c : Controller) (threads : Option Nat) (session : Session)
    (codec : Codec) (ids : List TokenId) (config : SamplingConfig) (sampler : Sampler)
    : TokenStream.start (c.withThreads threads) session codec ids config sampler
        =
      restarted threads (TokenStream.start c session codec ids config sampler) := by
  have hfollow (cancelled : Bool) (g : Generation) :=
    follow_withThreads { c with stopHandle := { StopHandle.lowered with cancelled } } g threads
  unfold TokenStream.start
  rcases Generation.start session codec config sampler ids false with ⟨e | _, g, cancelled⟩
  . exact congrArg (fun c => Except.error (e, c)) (hfollow cancelled g)
  . exact congrArg (fun c => Except.ok (TokenStream.mk c g)) (hfollow cancelled g)

theorem stream_withThreads (c : Controller) (threads : Option Nat) (prompt : String)
    (config : SamplingConfig) (freshSeed : UInt64)
    : (c.withThreads threads).stream prompt config freshSeed
        =
      restarted threads (c.stream prompt config freshSeed) := by
  have hprepare : stream.prepare (c.withThreads threads) prompt config
      = stream.prepare c prompt config := rfl
  unfold stream
  rw [hprepare]
  cases stream.prepare c prompt config with
  | error e => rfl
  | ok prepared => exact start_withThreads c threads _ _ _ config _

theorem generateWith_withThreads (c : Controller) (threads : Option Nat) (prompt : String)
    (config : SamplingConfig) (freshSeed : UInt64) (stopsAt : List StreamEvent → Bool)
    : (c.withThreads threads).generateWith prompt config freshSeed stopsAt
        =
      ((c.generateWith prompt config freshSeed stopsAt).1,
        (c.generateWith prompt config freshSeed stopsAt).2.1,
        (c.generateWith prompt config freshSeed stopsAt).2.2.withThreads threads) := by
  unfold generateWith
  rw [stream_withThreads]
  rcases c.stream prompt config freshSeed with ⟨e, c'⟩ | s
  . rfl
  . dsimp only [restarted]
    have hbudget : (s.withThreads threads).generation.budget = s.generation.budget := rfl
    rw [hbudget, TokenStream.drain_withThreads]
    rcases s.drain stopsAt (s.generation.budget + 1) [] with ⟨events, _ | e, after⟩
    . dsimp only
      rw [TokenStream.intoOutput_withThreads]
    . rfl

theorem loadTokenizer_withThreads (c : Controller) (threads : Option Nat) (storage : Storage)
    (path : String)
    : (c.withThreads threads).loadTokenizer storage path
        =
      ((c.loadTokenizer storage path).1, (c.loadTokenizer storage path).2.withThreads threads) := by
  unfold loadTokenizer
  cases WordLevel.load? storage path with
  | none => rfl
  | some tokenizer => rfl

theorem unloadTokenizer_withThreads (c : Controller) (threads : Option Nat)
    : (c.withThreads threads).unloadTokenizer = c.unloadTokenizer.withThreads threads := by
  have hstatus : (c.withThreads threads).status = c.status := rfl
  unfold unloadTokenizer
  dsimp only
  rw [hstatus]
  split
  . rfl
  . rfl

theorem answer_withThreads (c : Controller) (threads : Option Nat)
    (hcall : call.isModelLoad = false)
    : (c.withThreads threads).answer call = c.answer call := by
  cases call with
  | loadModel backend path threadCount validate => contradiction
  | loadTokenizer storage path =>
    have h := loadTokenizer_withThreads c threads storage path
    exact congrArg (fun r => ControllerAnswer.loaded r.1) h
  | setTokenizer codec => rfl
  | unloadModel => rfl
  | unloadTokenizer => rfl
  | stop => rfl
  | reset => rfl
  | generate prompt config freshSeed stopsAt =>
    have h := generateWith_withThreads c threads prompt config freshSeed stopsAt
    exact congrArg (fun run => ControllerAnswer.generated run.1 run.2.1) h
  | stream prompt config freshSeed calls ending =>
    dsimp only [answer]
    rw [stream_withThreads]
    rcases c.stream prompt config freshSeed with ⟨e, c'⟩ | s
    . rfl
    . dsimp only [restarted]
      rw [TokenStream.performAll_withThreads]
      dsimp only
      rw [TokenStream.intoOutput_withThreads]

theorem perform_withThreads (c : Controller) (threads : Option Nat)
    (hcall : call.isModelLoad = false)
    : (c.withThreads threads).perform call = (c.perform call).withThreads threads := by
  cases call with
  | loadModel backend path threadCount validate => contradiction
  | loadTokenizer storage path =>
    exact congrArg Prod.snd (loadTokenizer_withThreads c threads storage path)
  | setTokenizer codec => rfl
  | unloadModel => rfl
  | unloadTokenizer => exact unloadTokenizer_withThreads c threads
  | stop => rfl
  | reset => rfl
  | generate prompt config freshSeed stopsAt =>
    have h := generateWith_withThreads c threads prompt config freshSeed stopsAt
    exact congrArg (fun run => run.2.2) h
  | stream prompt config freshSeed calls ending =>
    dsimp only [perform]
    rw [stream_withThreads]
    rcases c.stream prompt config freshSeed with ⟨e, c'⟩ | s
    . rfl
    . dsimp only [restarted]
      rw [TokenStream.performAll_withThreads, TokenStream.letGo_withThreads]

theorem threadCount_perform (c : Controller) (hcall : call.isModelLoad = false)
    : (c.perform call).config.threadCount = c.config.threadCount :=
  congrArg (fun c => c.config.threadCount) (perform_withThreads c c.config.threadCount hcall)

/-! ## Loads -/

theorem loadModel_withThreads (c : Controller) (backend : Backend) (path : String)
    (given threads : Option Nat) (validate : Bool)
    : (c.withThreads (threads <|> c.config.threadCount)).loadModel backend path given validate
        =
      c.loadModel backend path (given <|> threads) validate := by
  have hthreads : (given <|> threads <|> c.config.threadCount)
      = ((given <|> threads) <|> c.config.threadCount) := by
    cases given <;> rfl
  unfold loadModel withThreads
  dsimp only
  rw [hthreads]

theorem loadModel_error {backend : Backend} {path : String} {validate : Bool} {e : GenerationError}
    {c' : Controller} (h : c.loadModel backend path threads validate = (.error e, c'))
    : c' = c.withThreads (threads <|> c.config.threadCount) := by
  unfold loadModel at h
  dsimp only at h
  split at h
  . cases h
    rfl
  . cases h

theorem loadTokenizer_error {storage : Storage} {path : String} {e : GenerationError}
    {c' : Controller} (h : c.loadTokenizer storage path = (.error e, c')) : c' = c := by
  unfold loadTokenizer at h
  split at h
  . cases h
    rfl
  . cases h

/-! ## After a load that failed -/

/--
The second controller is the first one with another thread count, which shows in the first model
that is loaded later on and in nothing else.
-/
structure LeavesThreads (c : Controller) (threads : Option Nat) (c' : Controller) : Prop where
  eq_withThreads : c' = c.withThreads (threads <|> c.config.threadCount)
  answers (calls : List ControllerCall)
    : c'.answerAll calls = c.answerAll (fillThreads threads calls)
  remains (calls : List ControllerCall)
    : ∃ left, c'.performAll calls
        = (c.performAll (fillThreads threads calls)).withThreads left

theorem answerAll_withThreads (c : Controller) (threads : Option Nat)
    (calls : List ControllerCall)
    : (c.withThreads (threads <|> c.config.threadCount)).answerAll calls
        =
      c.answerAll (fillThreads threads calls) := by
  induction calls generalizing c with
  | nil => rfl
  | cons call calls ih =>
    cases hload : call.isModelLoad with
    | true =>
      cases call with
      | loadModel backend path given validate =>
        have h := loadModel_withThreads c backend path given threads validate
        exact congrArg (fun r => .loaded r.1 :: r.2.answerAll calls) h
      | _ => contradiction
    | false =>
      rw [fillThreads_cons threads calls hload]
      unfold answerAll
      rw [answer_withThreads c _ hload, perform_withThreads c _ hload,
        ← threadCount_perform c hload, ih]

theorem performAll_withThreads (c : Controller) (threads : Option Nat)
    (calls : List ControllerCall)
    : ∃ left, (c.withThreads (threads <|> c.config.threadCount)).performAll calls
        = (c.performAll (fillThreads threads calls)).withThreads left := by
  induction calls generalizing c with
  | nil => exact ⟨threads <|> c.config.threadCount, rfl⟩
  | cons call calls ih =>
    cases hload : call.isModelLoad with
    | true =>
      cases call with
      | loadModel backend path given validate =>
        have h := loadModel_withThreads c backend path given threads validate
        have hsame := congrArg (fun r => r.2.performAll calls) h
        exact ⟨_, hsame⟩
      | _ => contradiction
    | false =>
      rw [fillThreads_cons threads calls hload]
      unfold performAll
      rw [List.foldl_cons, List.foldl_cons, perform_withThreads c _ hload,
        ← threadCount_perform c hload]
      exact ih (c.perform call)

theorem leavesThreads_withThreads (c : Controller) (threads : Option Nat)
    : c.LeavesThreads threads (c.withThreads (threads <|> c.config.threadCount)) where
  eq_withThreads := rfl
  answers := answerAll_withThreads c threads
  remains := performAll_withThreads c threads

theorem loadFails_leavesThreads (c : Controller)
    : (∀ backend path threads validate e c',
        c.loadModel backend path threads validate = (.error e, c') →
          c.LeavesThreads threads c')
      ∧ ∀ storage path e c', c.loadTokenizer storage path = (.error e, c') → c' = c := by
  refine ⟨?_, ?_⟩
  . intro backend path threads validate e c' h
    rw [loadModel_error h]
    exact leavesThreads_withThreads c threads
  . intro storage path e c' h
    exact loadTokenizer_error h

def used : Controller :=
  (ofConfig { threadCount := some 2 }).performAll
    [.loadModel (fun _ options =>
        .ok ((BigramModel.ofShape ⟨1, 1, 1, 1⟩).compile options.threadCount)) "model" none true,
      .setTokenizer (PieceTable.ofPieces [(0, [104])]).codec,
      .generate "h" { doSample := false, maxNewTokens := 2 } 0 fun _ => false]

theorem leavesThreads_of_missing_files
    : (used.session.isSome = true ∧ used.codec.isSome = true
          ∧ used.statistics.generatedTokenCount = 2)
        ∧ (∃ e c', used.loadModel (Backend.ofStorage fun _ => none) "m" (some 8) true
            = (.error e, c') ∧ used.LeavesThreads (some 8) c')
        ∧ ∃ e c', used.loadTokenizer (fun _ => none) "t" = (.error e, c') ∧ c' = used := by
  obtain ⟨hmodel, htokenizer⟩ := loadFails_leavesThreads used
  refine ⟨⟨rfl, rfl, rfl⟩, ⟨_, _, rfl, ?_⟩, ⟨_, _, rfl, ?_⟩⟩
  . apply hmodel (Backend.ofStorage fun _ => none) "m" (some 8) true
    rfl
  . apply htokenizer (fun _ => none) "t"
    rfl

theorem not_forall_compileOptions_eq
    : ¬ ∀ (c : Controller) backend path threads validate e c',
        c.loadModel backend path threads validate = (.error e, c') →
          c'.config.compileOptions = c.config.compileOptions := by
  intro h
  have hsame := h (ofConfig {}) (Backend.ofStorage fun _ => none) "m" (some 8) true _ _ rfl
  exact absurd hsame (by decide)

end Controller

end TextGen
