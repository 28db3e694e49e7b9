import Scenario.Run.Branch
import Scenario.Text.Integer

/-!
# Loop steps

A loop runs its children in iterations: a number of times, once for every item of a list or entry of
a mapping, or as long as a predicate holds. Its strategy says what a failed child means: the next
iteration comes all the same, or the loop ends, or the whole case does.

* `iterate` is one iteration, the same in all modes.
* `countLoop`, `sourceLoop` and `conditionLoop` say which iterations there are. Each is a recursion
  on the iterations that may still come.
* A `Tally` keeps which iterations ran and which of them failed; `conclude` turns it into the
  outcome of the loop.
-/

namespace Scenario

/-- A loop that runs. -/
structure Loop (ρ σ : Type) where
  step : StepFields
  /-- The steps of an iteration, in running order. -/
  children : List (Ready ρ σ)
  strategy : LoopStrategy
  /-- Seconds between two iterations. -/
  interval : Binary64

/-- What is known of the iterations that ran. -/
structure Tally where
  /-- The last iteration. -/
  executed : Nat := 0
  failed : List Nat := []
  /-- The iteration that broke the loop. -/
  brokenAt : Option Nat := none

namespace Exec

variable {ρ σ : Type} (w : World ρ σ)

/-! ### One iteration -/

/-- Sets the number of the iteration for the loop and its children. -/
def number (loop : Loop ρ σ) (i : Nat) : Exec ρ σ Unit := do
  act fun s => { s with context := s.context.setIteration loop.step.key i }
  amend fun r => { r with iteration := i }
  act fun s => { s with
    context := loop.children.foldl (fun ctx child => ctx.setIteration child.fields.key i) s.context }

/-- **One iteration.** -/
def iterate (loop : Loop ρ σ) (i : Nat) (tally : Tally) : Exec ρ σ Tally := do
  number loop i
  -- only a loop that continues goes on with the children after one that failed
  match ← runChildren w (loop.strategy ≠ .continue) loop.children with
  | .aborted => fail (.aborted (.insideIteration i))
  | .passed => pure { tally with executed := i }
  | .failed =>
    match loop.strategy with
    | .continue =>
      log w ("iteration " ++ toString i ++ " failed, continuing")
      pure { tally with executed := i, failed := tally.failed ++ [i] }
    | .break =>
      log w ("iteration " ++ toString i ++ " failed, breaking the loop")
      pure { executed := i, failed := tally.failed ++ [i], brokenAt := some i }
    | .stop => fail (.aborted (.failedIteration i))

/-- The pause between two iterations. -/
def pause (loop : Loop ρ σ) : Exec ρ σ Unit :=
  if Binary64.lt (.zero false) loop.interval then sleep w loop.interval else pure ()

/-! ### Counting -/

/-- The iterations from `i` on, of which `left` may still come; `total` is the number asked for. -/
def countIterations (loop : Loop ρ σ) (total : Nat) : Nat → Nat → Tally → Exec ρ σ Tally
  | 0, _, tally => pure tally
  | left + 1, i, tally => do
    log w ("count loop: iteration " ++ toString i ++ "/" ++ toString total)
    let tally ← iterate w loop i tally
    if tally.brokenAt.isSome then pure tally
    else
      if left ≠ 0 then pause w loop
      countIterations loop total left (i + 1) tally

/-- The number of iterations that a value asks for. -/
def countOf (v : Json.Value) : Except Fault Nat :=
  let found : Option Nat :=
    match v with
    | .number n => n.toNat?
    | .string s => Text.natural? (Text.trimList s.toList)
    | _ => none
  match found.filter (0 < ·) with
  | some n => .ok n
  | none => misconfigured (.loopCountNotPositive v)

/-- **A loop that counts.** More iterations than the ceiling allows are an error in the end. -/
def countLoop (loop : Loop ρ σ) : Exec ρ σ Tally := do
  match loop.step.loopMaximums with
  | none => misfit .loopCountMissing
  | some .null => misfit .loopCountMissing
  | some declared =>
    let total ← ofExcept (countOf (← resolveValue w declared))
    log w ("count loop: " ++ toString total ++ " iteration(s)")
    let tally ← countIterations w loop total (min total countLoopCeiling) 1 {}
    if countLoopCeiling < total && tally.brokenAt.isNone then
      fail (.safetyLimit countLoopCeiling tally.executed)
    pure tally

/-! ### Going through a source -/

/-- What a loop goes through: a value, a variable by its placeholder, or JSON text. -/
def source (step : StepFields) : Exec ρ σ Json.Value := do
  match step.loopIterable with
  | none => misfit .loopSourceMissing
  | some .null => misfit .loopSourceMissing
  | some declared =>
    match ← resolveValue w declared with
    | .string s =>
      match Placeholder.bareReference? s.toList with
      | some body => ofExcept ((← context).valueOf (Placeholder.nameOf body))
      | none => pure ((Json.Value.ofText? s).getD (.string s))
    | v => pure v

/-- The name of an injected variable; `otherwise` if none is given. -/
def variableName (declared : Option Json.Value) (otherwise : String) : String :=
  match declared with
  | some (.string s) => if Text.isAllBlank s then otherwise else Text.trim s
  | _ => otherwise

/-- A name in an iteration. -/
def numbered (name : String) (i : Nat) : String := name ++ "_" ++ toString i

/-- The iterations from `i` on, each with the variables that are injected before it. -/
def sourceIterations (loop : Loop ρ σ) : List Json.Members → Nat → Tally → Exec ρ σ Tally
  | [], _, tally => pure tally
  | injected :: rest, i, tally => do
    extend w injected .session
    let tally ← iterate w loop i tally
    if tally.brokenAt.isSome then pure tally
    else
      if !rest.isEmpty then pause w loop
      sourceIterations loop rest (i + 1) tally

/-- The names of the variables that a loop injects. -/
structure LoopNames where
  index : String
  key : String
  value : String

/-- The names that a step declares, or the usual ones. -/
def loopNames (step : StepFields) : LoopNames where
  index := variableName step.loopIndexName "loop_index"
  key := variableName (step.loopKeyName.map .string) "loop_key"
  value := variableName (step.loopValueName.map .string) "loop_value"

/-- What is injected for the item of a list in iteration `i`. -/
def injectedItem (names : LoopNames) (i : Nat) (item : Json.Value) : Json.Members :=
  Keyed.ofList [(numbered names.index i, .ofNat i), (numbered names.value i, item)]

/-- What is injected for the entry of a mapping in iteration `i`. -/
def injectedEntry (names : LoopNames) (i : Nat) (entry : String × Json.Value) : Json.Members :=
  Keyed.ofList [(numbered names.index i, .ofNat i), (numbered names.key i, .string entry.1),
    (numbered names.value i, entry.2)]

/-- **A loop over the items of a list.** -/
def iterableLoop (loop : Loop ρ σ) : Exec ρ σ Tally := do
  match ← source w loop.step with
  | .array [] =>
    log w "iterable loop: source is empty, nothing to do"
    pure {}
  | .array items =>
    let names := loopNames loop.step
    log w ("iterable loop: " ++ toString items.length ++ " item(s), index variable " ++
      names.index ++ ", value variable " ++ names.value)
    sourceIterations w loop (items.mapIdx fun i item => injectedItem names (i + 1) item) 1 {}
  | .string _ => misfit .loopSourceString
  | other => misfit (.loopSourceNotList other)

/-- **A loop over the entries of a mapping,** in key order. -/
def dictLoop (loop : Loop ρ σ) : Exec ρ σ Tally := do
  match ← source w loop.step with
  | .object [] =>
    log w "dict loop: mapping is empty, nothing to do"
    pure {}
  | .object entries =>
    let names := loopNames loop.step
    log w ("dict loop: " ++ toString entries.length ++ " entr(y/ies)")
    sourceIterations w loop (entries.mapIdx fun i entry => injectedEntry names (i + 1) entry) 1 {}
  | other => misfit (.loopSourceNotMapping other)

/-! ### As long as a predicate holds -/

/-- Whether a loop that started at an instant has used up its time. -/
def timeIsUp (timeout : Binary64) (started : Instant) : Exec ρ σ Bool := do
  if Binary64.lt (.zero false) timeout then
    return timeout.le (secondsBetween started (← now w))
  else return false

/-- Whether the predicate still holds after iteration `i`. -/
def stillHolds (condition : Condition) (i : Nat) : Exec ρ σ Bool := do
  try evaluate w condition
  catch
    | .crash c => throw (.crash c)
    | .fault f =>
      log w ("condition loop: predicate failed: " ++ f.message)
      fail (.execution (.predicateFailed i f.message))

/-- The iterations after `done` ones, of which `left` may still come. -/
def conditionIterations (loop : Loop ρ σ) (condition : Condition) (timeout : Binary64)
    (started : Instant) : Nat → Nat → Tally → Exec ρ σ Tally
  | left, done, tally => do
    if ← timeIsUp w timeout started then
      log w ("condition loop: timed out after " ++ toString done ++ " iteration(s) (" ++
        Binary64.plainStyle timeout ++ " s)")
      pure tally
    else
      match left with
      | 0 => fail (.safetyLimit conditionLoopCeiling done)
      | left + 1 =>
        log w ("condition loop: iteration " ++ toString (done + 1))
        let tally ← iterate w loop (done + 1) tally
        if tally.brokenAt.isSome then pure tally
        -- the predicate is asked after an iteration, so that the first one runs whatever it says
        else if ← stillHolds w condition (done + 1) then
          pause w loop
          conditionIterations loop condition timeout started left (done + 1) tally
        else
          log w "condition loop: condition no longer holds"
          pure tally

/-- **A loop that goes on while a predicate holds.** The predicate is evaluated after every
iteration; a positive time limit ends the loop before an iteration. -/
def conditionLoop (loop : Loop ρ σ) : Exec ρ σ Tally := do
  let condition ← ofExcept (Condition.ofField loop.step.conditions)
  let timeout := loop.step.loopTimeout.getD (.zero false)
  if !timeout.isFinite || timeout.lt (.zero false) then misfit (.loopTimeout timeout)
  conditionIterations w loop condition timeout (← now w) conditionLoopCeiling 0 {}

/-! ### The step -/

/-- A text that says something. -/
def said (declared : Option String) : Option String :=
  declared.filter fun text => !Text.isAllBlank text

/-- The mode of a loop. -/
def loopMode (step : StepFields) : Except Fault LoopMode :=
  match said step.loopMode with
  | none => misconfigured .loopModeMissing
  | some declared =>
    match LoopMode.ofText? declared with
    | some mode => .ok mode
    | none => misconfigured (.unsupportedLoopMode declared)

/-- The strategy of a loop. -/
def loopStrategy (step : StepFields) : Except Fault LoopStrategy :=
  match said step.loopOnError with
  | none => misconfigured .loopStrategyMissing
  | some declared =>
    match LoopStrategy.ofText? declared with
    | some strategy => .ok strategy
    | none => misconfigured (.unsupportedLoopStrategy declared)

/-- The interval of a loop, which must be a wait that the settings allow. -/
def loopInterval (settings : Settings) (step : StepFields) : Except Fault Binary64 :=
  let interval := step.loopInterval.getD (.zero false)
  if Binary64.le (.zero false) interval && interval.le settings.waitLimit then .ok interval
  else misconfigured (.loopInterval settings.waitLimit interval)

/-- The outcome of a loop. -/
def conclude (tally : Tally) : Exec ρ σ Unit := do
  say ("loop ran " ++ toString tally.executed ++ " iteration(s)")
  match tally.brokenAt with
  | some i => fail (.execution (.loopBroken i))
  | none =>
    if tally.failed.isEmpty then pure () else fail (.execution (.iterationsFailed tally.failed))

/-- The iterations of a loop in a mode. -/
def iterations (mode : LoopMode) (loop : Loop ρ σ) : Exec ρ σ Tally :=
  match mode with
  | .count => countLoop w loop
  | .iterable => iterableLoop w loop
  | .dict => dictLoop w loop
  | .condition => conditionLoop w loop

/-- **A loop step.** -/
def loop (step : StepFields) (children : List (Ready ρ σ)) : Exec ρ σ Unit := do
  let mode ← ofExcept (loopMode step)
  let strategy ← ofExcept (loopStrategy step)
  let interval ← ofExcept (loopInterval (← context).settings step)
  note w (.loopStarted step.key mode strategy)
  conclude (← iterations w mode ⟨step, Ready.ordered children, strategy, interval⟩)

end Exec

end Scenario
