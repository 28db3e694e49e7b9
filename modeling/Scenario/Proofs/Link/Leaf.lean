import Scenario.Proofs.Link

/-!
# Tied steps

What a step does by itself is made of a few things that touch the world. A `Tie` says that a link
survives these, and then everything that is made of them holds on both sides: request, script and
wait steps from their first line to their last, and what a container does between the steps it runs.
-/

namespace Scenario

/-! ### What a step sees -/

/-- **Contexts in which a step sees the same.** Neither the trace nor the stack of cases, the key or
the client is seen. -/
structure Context.Sees (c d : Context) : Prop where
  environment : c.environment = d.environment
  settings : c.settings = d.settings
  defined : c.defined = d.defined
  session : c.session = d.session
  extract : c.extract = d.extract

namespace Context.Sees

variable {c d : Context}

protected theorem rfl : c.Sees c := ⟨rfl, rfl, rfl, rfl, rfl⟩

theorem lookup (h : c.Sees d) : c.lookup = d.lookup := by
  funext name
  unfold Context.lookup
  rw [h.defined, h.session, h.extract]

theorem valueOf (h : c.Sees d) : c.valueOf = d.valueOf := by
  funext name
  unfold Context.valueOf
  rw [h.lookup]

theorem snapshot (h : c.Sees d) : c.snapshot = d.snapshot := by
  unfold Context.snapshot
  rw [h.defined, h.session, h.extract]

end Context.Sees

theorem Context.Agrees.sees {c d : Context} (h : c.Agrees d) : c.Sees d :=
  ⟨h.environment, h.settings, h.defined, h.session, h.extract⟩

/-- The line that a condition loop leaves when its time is up. -/
def timeoutLine (done : Nat) (timeout : Binary64) : String :=
  "condition loop: timed out after " ++ toString done ++ " iteration(s) (" ++
    Binary64.plainStyle timeout ++ " s)"

/-! ### Ties -/

variable {ρ σ τ α : Type}

/-- **A tie:** a link that a step cannot break before it runs another step. -/
structure Tie (w : World ρ σ) (r : Recorder τ) (strict : Prop) (L : Link ρ σ τ) : Prop where
  mild : ∀ {fault : Fault}, fault.isAbort = false → L.allowed fault
  script : ∀ client job outside fault,
    (w.runScript client job outside).1 = .error fault → L.allowed fault
  sees : ∀ {f g}, L.kept f g → f.state.context.Sees g.state.context
  result : ∀ {f g}, L.kept f g → f.result.Matches strict g.result
  /-- The clocks agree in a strict comparison. -/
  now : strict → ∀ {f g}, L.kept f g → w.now f.state.outside = w.now g.state.outside
  /-- It survives a notice. -/
  note : ∀ {f g}, L.kept f g → ∀ n,
    L.kept (f.mapState (RunState.note w n)) (g.mapState (RunState.note (w.recordedBy r) n))
  /-- It survives a line in the trace. -/
  line : ∀ {f g}, L.kept f g → ∀ {text text'}, Retimed strict text text' →
    L.kept (f.mapState (RunState.log w text)) (g.mapState (RunState.log (w.recordedBy r) text'))
  /-- It survives a wait. -/
  slept : ∀ {f g}, L.kept f g → ∀ seconds,
    L.kept (f.mapState fun s => { s with outside := w.sleep seconds s.outside })
      (g.mapState fun s => { s with outside := w.sleep seconds s.outside })
  /-- It survives what the step extracts. -/
  produced : ∀ {f g}, L.kept f g → ∀ extract,
    L.kept (f.mapContext fun ctx => { ctx with extract })
      (g.mapContext fun ctx => { ctx with extract })
  /-- It survives a change of the words of the result. -/
  worded : ∀ {f g}, L.kept f g → ∀ {change change' : StepResult → StepResult},
    (∀ r, (change r).bare = r.bare) → (∀ r, (change' r).bare = r.bare) →
    (∀ r r', r.Matches strict r' → (change r).Matches strict (change' r')) →
    L.kept (f.mapResult change) (g.mapResult change')
  -- both sides ask the outside alike
  client : L.Holds (fun _ _ => True) (Exec.client w) (Exec.client (w.recordedBy r))
  send : ∀ request, L.Holds Eq (Exec.send w request) (Exec.send (w.recordedBy r) request)
  runScript : ∀ code, L.Holds Eq (Exec.runScript w code) (Exec.runScript (w.recordedBy r) code)
  host : ∀ project environment, L.Holds Eq
    (Exec.lift fun s =>
      let (found, outside) := w.environmentHost project environment s.outside
      (found, { s with outside }))
    (Exec.lift fun s =>
      let (found, outside) := w.environmentHost project environment s.outside
      (found, { s with outside }))
  load : ∀ id, L.Holds Eq
    (Exec.lift fun s =>
      let (trouble, outside) := w.loadTrouble id s.outside
      (trouble, { s with outside }))
    (Exec.lift fun s =>
      let (trouble, outside) := w.loadTrouble id s.outside
      (trouble, { s with outside }))
  /-- What a crash leaves behind survives a notice. -/
  wreck : ∀ {f g}, L.crashed f g → ∀ n,
    L.crashed (f.mapState (RunState.note w n)) (g.mapState (RunState.note (w.recordedBy r) n))
  lost : ∀ {x}, L.lost x → ∀ n, L.lost (w.note n x)
  lost' : ∀ {y}, L.lost' y → ∀ n, L.lost' (r.note n y)
  /-- Unless the clocks agree, a run whose time is up is not compared any more. -/
  late : ¬ strict → ∀ key done timeout x, L.lost (w.note (.logged key (timeoutLine done timeout)) x)
  late' : ¬ strict → ∀ key done timeout y,
    L.lost' (r.note (.logged key (timeoutLine done timeout)) y)

namespace Tie

variable {w : World ρ σ} {r : Recorder τ} {strict : Prop} {L : Link ρ σ τ}
variable (t : Tie w r strict L)

include t

/-! ### What a step does between the steps it runs -/

theorem misfit (cause : Misconfiguration) {V : α → α → Prop} :
    L.Holds V (Exec.misfit cause : Exec ρ σ α) (Exec.misfit cause) :=
  .fail (t.mild rfl)

/-- A value, or a mild fault in its place. -/
theorem ofMild {x : Except Fault α} (hx : Mild x) :
    L.Holds Eq (Exec.ofExcept x : Exec ρ σ α) (Exec.ofExcept x) :=
  .ofExcept fun fault h => t.mild (hx fault h)

theorem noted (notice : Notice) :
    L.Holds Eq (Exec.note w notice) (Exec.note (w.recordedBy r) notice) :=
  .act (fun _ _ h => t.note h notice) (fun _ h => t.lost h notice) fun _ h => t.lost' h notice

theorem retimed {text text' : String} (htext : Retimed strict text text') :
    L.Holds Eq (Exec.log w text) (Exec.log (w.recordedBy r) text') :=
  .act (fun _ _ h => t.line h htext) (fun _ h => t.lost h _) fun _ h => t.lost' h _

theorem log (text : String) : L.Holds Eq (Exec.log w text) (Exec.log (w.recordedBy r) text) :=
  t.retimed (.same text)

theorem context {β : Type} {W : β → β → Prop} {k : Context → Exec ρ σ β} {l : Context → Exec ρ τ β}
    (hk : ∀ c d, c.Sees d → L.Holds W (k c) (l d)) :
    L.Holds W (Exec.context >>= k) (Exec.context >>= l) :=
  .look (v := fun f => f.state.context) (u := fun g => g.state.context)
    (fun _ _ h => t.sees h) (fun _ => .rfl) hk

/-- Looking at what the step has extracted. -/
theorem extracted {β : Type} {W : β → β → Prop} {k : Json.Members → Exec ρ σ β}
    {l : Json.Members → Exec ρ τ β} (hk : ∀ values, L.Holds W (k values) (l values)) :
    L.Holds W (get >>= fun f => k f.result.extracted) (get >>= fun g => l g.result.extracted) :=
  .look (V := Eq) (v := fun f => f.result.extracted) (u := fun g => g.result.extracted)
    (fun _ _ h => (t.result h).extracted) (fun _ => rfl) fun _ _ h => h ▸ hk _

/-- Looking at the clock. -/
theorem clock : L.Holds (fun a b => strict → a = b) (Exec.now w) (Exec.now (w.recordedBy r)) :=
  .look (V := fun a b => strict → a = b) (v := fun f => w.now f.state.outside)
    (u := fun g => w.now g.state.outside) (fun _ _ h hs => t.now hs h) (fun _ _ => rfl)
    fun _ _ h => .pure h

/-- A change of the words of the result. -/
theorem reword {change change' : StepResult → StepResult} (h : ∀ r, (change r).bare = r.bare)
    (h' : ∀ r, (change' r).bare = r.bare)
    (hm : ∀ r r', r.Matches strict r' → (change r).Matches strict (change' r')) :
    L.Holds Eq (Exec.amend change : Exec ρ σ Unit) (Exec.amend change') :=
  .amend fun _ _ hxy => t.worded hxy h h' hm

theorem say (message : String) :
    L.Holds Eq (Exec.say message : Exec ρ σ Unit) (Exec.say message) :=
  t.reword (fun _ => rfl) (fun _ => rfl) fun _ _ h =>
    h.change (f := fun r => { r with message := some message }) fun r => by cases r; rfl

/-! #### Placeholders -/

theorem kept_logMissing (names : List String) {f : Frame ρ σ} {g : Frame ρ τ} (h : L.kept f g) :
    L.kept (f.mapState (RunState.logMissing w names))
      (g.mapState (RunState.logMissing (w.recordedBy r) names)) := by
  induction names generalizing f g with
  | nil => exact h
  | cons name rest ih => exact ih (t.line h (.same _))

theorem lost_logMissing (names : List String) {s : RunState ρ σ} (h : L.lost s.records) :
    L.lost (s.logMissing w names).records := by
  induction names generalizing s with
  | nil => exact h
  | cons name rest ih => exact ih (s := s.log w _) (t.lost h _)

theorem lost'_logMissing (names : List String) {s : RunState ρ τ} (h : L.lost' s.records) :
    L.lost' (s.logMissing (w.recordedBy r) names).records := by
  induction names generalizing s with
  | nil => exact h
  | cons name rest ih => exact ih (s := s.log (w.recordedBy r) _) (t.lost' h _)

/-- Something resolved by the names that the context knows. -/
theorem resolved (resolve : Lookup → Resolved α) :
    L.Holds Eq (Exec.lift fun s => s.resolved w (resolve s.context.lookup))
      (Exec.lift fun s => s.resolved (w.recordedBy r) (resolve s.context.lookup)) := by
  refine .lift (fun x y h => ?_) (fun x y h => ?_)
    (fun s h => t.lost_logMissing _ h) fun s h => t.lost'_logMissing _ h
  · simp only [RunState.resolved, (t.sees h).lookup]
  -- names that are not known leave their lines
  · have h' := t.kept_logMissing (resolve x.state.context.lookup).missing h
    have hl := (t.sees h).lookup
    simpa only [Frame.mapState, RunState.resolved, hl] using h'

theorem resolveValue (v : Json.Value) :
    L.Holds Eq (Exec.resolveValue w v) (Exec.resolveValue (w.recordedBy r) v) :=
  t.resolved fun lookup => Placeholder.resolveValue lookup v

theorem resolveText (text : String) :
    L.Holds Eq (Exec.resolveText w text) (Exec.resolveText (w.recordedBy r) text) :=
  t.resolved fun lookup => Placeholder.resolveText lookup text

/-! #### Waiting -/

theorem sleep (seconds : Binary64) :
    L.Holds Eq (Exec.sleep w seconds) (Exec.sleep (w.recordedBy r) seconds) := by
  have kept : ∀ {s : RunState ρ σ}, L.lost s.records → L.lost (s.sleep w seconds).2.records := by
    intro s h
    unfold RunState.sleep
    split
    · exact h
    · exact t.lost h _
  have kept' : ∀ {s : RunState ρ τ}, L.lost' s.records →
      L.lost' (s.sleep (w.recordedBy r) seconds).2.records := by
    intro s h
    unfold RunState.sleep
    split
    · exact h
    · exact t.lost' h _
  refine .bindOf (.lift (V := Eq) (fun x y h => ?_) (fun x y h => ?_) (fun _ => kept)
    fun _ => kept') (fun _ => rfl) (.lift fun s => Mild.sleep w seconds s)
    (.lift fun s => Mild.sleep (w.recordedBy r) seconds s) fun x _ hxy hx _ => hxy ▸ t.ofMild hx
  · simp only [RunState.sleep, (t.sees h).settings]
    split <;> rfl
  · have hs := (t.sees h).settings
    simp only [Frame.mapState, RunState.sleep, hs]
    split
    · exact h
    -- the line comes before the wait
    · exact t.slept (t.line h (.same _)) seconds

theorem wait (step : StepFields) :
    L.Holds Eq (Exec.wait w step) (Exec.wait (w.recordedBy r) step) := by
  unfold Exec.wait
  split
  · exact t.misfit _
  · exact t.misfit _
  · refine .bind (t.resolveValue _) fun v => ?_
    refine .bind (t.ofMild (.secondsOf _)) fun seconds => ?_
    exact .bind (t.sleep _) fun _ => t.say _

/-! #### Predicates -/

/-- The value that a name stands for. -/
theorem valueOf (name : String) :
    L.Holds Eq (Exec.context >>= fun ctx => Exec.ofExcept (ctx.valueOf name) : Exec ρ σ _)
      (Exec.context >>= fun ctx => Exec.ofExcept (ctx.valueOf name)) := by
  refine t.context fun c d h => ?_
  rw [h.valueOf]
  exact t.ofMild (.valueOf _ _)

theorem actualValue (declared : Json.Value) :
    L.Holds Eq (Exec.actualValue w declared) (Exec.actualValue (w.recordedBy r) declared) := by
  refine .bind (t.resolveValue _) fun found => ?_
  cases found with
  | string s =>
    dsimp only
    split
    · exact t.valueOf _
    · exact .pure rfl
  | _ => exact .pure rfl

theorem evaluate (condition : Condition) :
    L.Holds Eq (Exec.evaluate w condition) (Exec.evaluate (w.recordedBy r) condition) := by
  refine .bind (t.actualValue _) fun actual => ?_
  refine .bind (t.resolveValue _) fun expected => ?_
  refine .bind (t.ofMild (.compareText _ _ _)) fun holds => ?_
  exact .bind (t.log _) fun _ => .pure rfl

theorem announce (text : String) :
    L.Holds Eq (Exec.announce w text) (Exec.announce (w.recordedBy r) text) :=
  .bind (t.log _) fun _ => t.say _

/-! ### Rules -/

theorem resolveExpression (expression : Option String) :
    L.Holds Eq (Exec.resolveExpression w expression)
      (Exec.resolveExpression (w.recordedBy r) expression) := by
  cases expression with
  | none => exact .pure rfl
  | some text => exact .bind (t.resolveText _) fun _ => .pure rfl

theorem resolveExtracts (rules : List ExtractRule) :
    L.Holds Eq (Exec.resolveExtracts w rules) (Exec.resolveExtracts (w.recordedBy r) rules) := by
  induction rules with
  | nil => exact .pure rfl
  | cons rule rest ih =>
    refine .bind (t.resolveExpression _) fun _ => ?_
    exact .bind ih fun _ => .pure rfl

theorem resolveAsserts (rules : List AssertRule) :
    L.Holds Eq (Exec.resolveAsserts w rules) (Exec.resolveAsserts (w.recordedBy r) rules) := by
  induction rules with
  | nil => exact .pure rfl
  | cons rule rest ih =>
    refine .bind (t.resolveExpression _) fun _ => ?_
    refine .bind (t.resolveValue _) fun _ => ?_
    exact .bind ih fun _ => .pure rfl

theorem rules (step : StepFields) :
    L.Holds Eq (Exec.rules w step) (Exec.rules (w.recordedBy r) step) := by
  refine .bind (t.ofMild (.readRules _ _ _)) fun _ => ?_
  refine .bind (t.resolveExtracts _) fun _ => ?_
  refine .bind (t.ofMild (.readRules _ _ _)) fun _ => ?_
  exact .bind (t.resolveAsserts _) fun _ => .pure rfl

theorem noteExtracted (values : List (String × Json.Value)) :
    L.Holds Eq (Exec.noteExtracted w values) (Exec.noteExtracted (w.recordedBy r) values) := by
  induction values with
  | nil => exact .pure rfl
  | cons entry rest ih => exact .bind (t.noted _) fun _ => ih

/-- Rules look at no time, so they find the same in responses that are equal but for it. -/
theorem check (rules : Rules) {p q : Response} (hpq : p.Matches strict q)
    (json : Option Json.Value) :
    L.Holds Eq (Exec.check w rules p json) (Exec.check (w.recordedBy r) rules q json) := by
  have htext : p.text = q.text := hpq.get Response.text fun _ => rfl
  have hheaders : p.headers = q.headers := hpq.get Response.headers fun _ => rfl
  have hcookies : p.cookies = q.cookies := hpq.get Response.cookies fun _ => rfl
  refine t.context fun c d h => ?_
  rw [h.snapshot, htext, hheaders, hcookies]
  -- both sides run the rules on one output
  let output : Output := ⟨json, q.text, q.headers, q.cookies, d.snapshot⟩
  let checked := runChecks rules.extracts rules.asserts output
  let told (values : Json.Members) (r : StepResult) : StepResult := { r with
    extracted := Keyed.extend r.extracted (checked values).values
    ledger := r.ledger ++ (checked values).ledger }
  refine t.extracted
    (k := fun values => do
      Exec.noteExtracted w (checked values).values
      Exec.amend (told values)
      return (checked values).fault?)
    (l := fun values => do
      Exec.noteExtracted (w.recordedBy r) (checked values).values
      Exec.amend (told values)
      return (checked values).fault?) fun values => ?_
  refine .bind (t.noteExtracted _) fun _ => .bind ?_ fun _ => .pure rfl
  exact t.reword (fun _ => rfl) (fun _ => rfl) fun _ _ h =>
    h.change (f := told values) fun r => by cases r; rfl

omit t in
/-- What comes of rules is mild. -/
theorem check_gives (w : World ρ σ) (rules : Rules) (response : Response)
    (json : Option Json.Value) :
    Exec.Gives (Exec.check w rules response json) fun found =>
      ∀ fault, found = some fault → fault.isAbort = false := by
  refine .bind fun _ => .bind fun _ => .bind fun _ => .bind fun _ => .pure fun fault h => ?_
  unfold Checked.fault? at h
  split at h <;> cases h
  rfl

theorem raise {found : Option Fault} (h : ∀ fault, found = some fault → fault.isAbort = false) :
    L.Holds Eq (Exec.raise found : Exec ρ σ Unit) (Exec.raise found) := by
  cases found with
  | none => exact .pure rfl
  | some fault => exact .fail (t.mild (h fault rfl))

/-- Checking rules and stopping at what comes of it. -/
theorem checked (rules : Rules) {p q : Response} (hpq : p.Matches strict q)
    (json : Option Json.Value) {k : Option Fault → Exec ρ σ Unit} {l : Option Fault → Exec ρ τ Unit}
    (hk : ∀ found, (∀ fault, found = some fault → fault.isAbort = false) →
      L.Holds Eq (k found) (l found)) :
    L.Holds Eq (Exec.check w rules p json >>= k)
      (Exec.check (w.recordedBy r) rules q json >>= l) :=
  .bindOf (t.check rules hpq json) (fun _ => rfl) (check_gives w rules p json)
    (check_gives (w.recordedBy r) rules q json) fun found _ h hfound _ => h ▸ hk found hfound

/-! ### Requests -/

theorem baseAddress (step : StepFields) (path : String) :
    L.Holds Eq (Exec.baseAddress w step path) (Exec.baseAddress (w.recordedBy r) step path) := by
  unfold Exec.baseAddress
  cases step.project with
  | none => exact t.misfit _
  | some project =>
    refine t.context fun c d h => ?_
    rw [h.environment]
    cases d.environment with
    | none => exact t.misfit _
    | some environment =>
      refine .bind (t.host project environment) fun found => ?_
      split
      · exact .fail (t.mild rfl)
      · exact t.misfit _
      · split
        · exact t.misfit _
        · exact .pure rfl

theorem address (step : StepFields) :
    L.Holds Eq (Exec.address w step) (Exec.address (w.recordedBy r) step) := by
  unfold Exec.address
  split
  · exact t.misfit _
  · refine .bind (t.resolveText _) fun path => ?_
    dsimp only
    split
    case' isTrue => refine .bind (.pure (V := Eq) rfl) ?_
    case' isFalse =>
      refine .bind (t.baseAddress _ _) fun _ => .bind (.pure (V := Eq) rfl) ?_
    -- wherever the whole address comes from, it is looked at in the same way
    all_goals
      intro full
      split
      · exact t.misfit _
      · split
        · exact .pure rfl
        · exact t.misfit _

theorem resolveField (declared : Option Json.Value) :
    L.Holds Eq (Exec.resolveField w declared) (Exec.resolveField (w.recordedBy r) declared) := by
  unfold Exec.resolveField
  split
  · exact .pure rfl
  · exact .pure rfl
  · exact .bind (t.resolveValue _) fun _ => .pure rfl

theorem resolvePairs (field : String) (declared : Option Json.Value) :
    L.Holds Eq (Exec.resolvePairs w field declared)
      (Exec.resolvePairs (w.recordedBy r) field declared) := by
  refine .bind (t.resolveField _) fun found => ?_
  cases found with
  | none => exact .pure rfl
  | some v => exact t.ofMild (.pairsOf _ _)

theorem payload (step : StepFields) :
    L.Holds Eq (Exec.payload w step) (Exec.payload (w.recordedBy r) step) := by
  refine .bind (t.resolveField _) fun body => ?_
  cases body with
  | some v => exact .pure rfl
  | none =>
    dsimp only
    split
    · exact .bind (t.resolveText _) fun _ => .pure rfl
    · refine .bind (t.resolveField _) fun parts => ?_
      cases parts with
      | some v => exact .bind (t.ofMild (.pairsOf _ _)) fun _ => .pure rfl
      | none =>
        refine .bind (t.resolveField _) fun form => ?_
        cases form with
        | some v => exact .bind (t.ofMild (.pairsOf _ _)) fun _ => .pure rfl
        | none => exact .pure rfl

theorem request (step : StepFields) :
    L.Holds Eq (Exec.request w step) (Exec.request (w.recordedBy r) step) := by
  -- but for a port that is set, both sides build the request part by part
  have built : L.Holds Eq
      (do
        let method ← Exec.ofExcept (methodOf step)
        let address ← Exec.address w step
        let headers ← Exec.resolvePairs w "request_header" step.header
        let params ← Exec.resolvePairs w "request_params" step.params
        let payload ← Exec.payload w step
        return ({ method, address, headers, params := if params.isEmpty then none else some params,
                  payload } : Http.Request))
      (do
        let method ← Exec.ofExcept (methodOf step)
        let address ← Exec.address (w.recordedBy r) step
        let headers ← Exec.resolvePairs (w.recordedBy r) "request_header" step.header
        let params ← Exec.resolvePairs (w.recordedBy r) "request_params" step.params
        let payload ← Exec.payload (w.recordedBy r) step
        return ({ method, address, headers, params := if params.isEmpty then none else some params,
                  payload } : Http.Request)) := by
    refine .bind (t.ofMild (.methodOf _)) fun _ => .bind (t.address _) fun _ => ?_
    refine .bind (t.resolvePairs _ _) fun _ => .bind (t.resolvePairs _ _) fun _ => ?_
    exact .bind (t.payload _) fun _ => .pure rfl
  unfold Exec.request
  split
  · exact .bind (t.misfit _) fun _ => built
  · exact built

omit t in
/-- The line for a response tells its time last. -/
theorem responseLine_retimed {p q : Response} (hpq : p.Matches strict q) :
    Retimed strict (Exec.responseLine p) (Exec.responseLine q) := by
  have hstatus : p.status = q.status := hpq.get Response.status fun _ => rfl
  have hreason : p.reason = q.reason := hpq.get Response.reason fun _ => rfl
  unfold Exec.responseLine
  rw [hstatus, hreason]
  exact .seconds (fun hs => by rw [hpq.same hs]) _ _

theorem exchange (request : Http.Request) :
    L.Holds (Response.Matches strict) (Exec.exchange w request)
      (Exec.exchange (w.recordedBy r) request) := by
  refine .bind (t.noted _) fun _ => .bindRel t.client (fun _ => trivial) fun _ _ _ => ?_
  refine .bind (t.log _) fun _ => .bindRel t.clock (fun _ _ => rfl) fun started started' hs => ?_
  refine .bind (t.send _) fun answer => ?_
  cases answer with
  | error trouble =>
    refine .bind (t.noted _) fun _ => .bind (t.log _) fun _ => ?_
    exact .bind (t.noted _) fun _ => .fail (t.mild rfl)
  | ok answer =>
    refine .bindRel t.clock (fun _ _ => rfl) fun ended ended' he => ?_
    -- the responses are equal but for the time between the two looks at the clock
    have hpq : Response.Matches strict
        (Exec.responseOf answer (secondsBetween started ended))
        (Exec.responseOf answer (secondsBetween started' ended')) :=
      ⟨rfl, fun h => by rw [hs h, he h]⟩
    refine .bind (t.retimed (responseLine_retimed hpq)) fun _ => ?_
    exact .bind (t.noted _) fun _ => .pure hpq

theorem logExtracted (values : List (String × Json.Value)) :
    L.Holds Eq (Exec.logExtracted w values) (Exec.logExtracted (w.recordedBy r) values) := by
  induction values with
  | nil => exact .pure rfl
  | cons entry rest ih => exact .bind (t.log _) fun _ => ih

theorem requestStep (step : StepFields) :
    L.Holds Eq (Exec.requestStep w step) (Exec.requestStep (w.recordedBy r) step) := by
  refine .bind (t.request _) fun _ => .bind (t.rules _) fun rules => ?_
  refine .bindRel (t.exchange _) (fun _ => .rfl) fun p q hpq => ?_
  have hstatus : p.status = q.status := hpq.get Response.status fun _ => rfl
  have hjson : p.json? = q.json? := hpq.get Response.json? fun _ => rfl
  refine .bind (t.retimed (responseLine_retimed hpq)) fun _ => ?_
  rw [hstatus, hjson]
  refine .bind (t.noted _) fun _ => .bind (t.say _) fun _ => ?_
  refine .bind (t.reword (fun _ => rfl) (fun _ => rfl) fun _ _ h => h.responded hpq) fun _ => ?_
  refine t.checked rules hpq _ fun fault hfault => ?_
  refine t.extracted (k := fun values => Exec.logExtracted w values >>= fun _ => Exec.raise fault)
    (l := fun values => Exec.logExtracted (w.recordedBy r) values >>= fun _ => Exec.raise fault)
    fun values => ?_
  exact .bind (t.logExtracted _) fun _ => t.raise hfault

/-- Something that happens inside a span. -/
theorem within (span : Span) {action : Exec ρ σ Unit} {action' : Exec ρ τ Unit}
    (h : L.Holds Eq action action') :
    L.Holds Eq (Exec.within w span action) (Exec.within (w.recordedBy r) span action') := by
  refine .bind (t.noted _) fun _ => .bind ?_ fun _ => t.noted _
  refine .tryCatch h (fun fault hf => .bind (t.noted _) fun _ => .fail hf) (fun c f g hfg => ?_)
    (fun _ _ h => t.lost h _) fun _ _ h => t.lost' h _
  -- a crash is still told of, so what is known of wrecks has to survive a notice
  exact .crash (t.wreck hfg .left)

/-! ### Scripts -/

theorem scriptText (step : StepFields) :
    L.Holds Eq (Exec.scriptText w step) (Exec.scriptText (w.recordedBy r) step) := by
  unfold Exec.scriptText
  split
  · exact t.resolved fun lookup => Script.substitute lookup _
  · exact t.misfit _

omit t in
/-- A fault in place of the outcome of a script is one that the outside gave. -/
theorem runScript_gives (w : World ρ σ) (code : String) :
    Exec.Gives (Exec.runScript w code) fun ended => ∃ client job outside,
      ended = (w.runScript client job outside).1 :=
  .bind fun client => .lift fun s => ⟨client, ⟨code, s.context.defined, s.context.session,
    s.context.extract, s.context.settings.scriptOperations⟩, s.outside, rfl⟩

theorem logPrinted (lines : List String) :
    L.Holds Eq (Exec.logPrinted w lines) (Exec.logPrinted (w.recordedBy r) lines) := by
  induction lines with
  | nil => exact .pure rfl
  | cons line rest ih => exact .bind (t.log _) fun _ => ih

/-- Writing variables that the step extracts. -/
theorem extendExtract (values : Json.Members) :
    L.Holds Eq (Exec.extend w values .extract) (Exec.extend (w.recordedBy r) values .extract) := by
  have kept : ∀ {s : RunState ρ σ}, L.lost s.records →
      L.lost (s.extend w values .extract).records := by
    intro s h
    unfold RunState.extend
    split
    · exact h
    · exact t.lost h _
  have kept' : ∀ {s : RunState ρ τ}, L.lost' s.records →
      L.lost' (s.extend (w.recordedBy r) values .extract).records := by
    intro s h
    unfold RunState.extend
    split
    · exact h
    · exact t.lost' h _
  -- only values that are there are written and told
  refine .act (fun x y h => ?_) (fun _ => kept) fun _ => kept'
  unfold RunState.extend
  split
  · exact h
  · have h' := t.line (t.produced h (Keyed.extend x.state.context.extract values)) (.same
      ("updated " ++ Scope.extract.label ++ " variables: " ++
        Text.Quoted.list ((Keyed.keys values).map Text.Quoted.encode)))
    have hx := (t.sees h).extract
    simpa only [Frame.mapState, Frame.mapContext, Context.extend, hx] using h'

theorem scriptStep (step : StepFields) :
    L.Holds Eq (Exec.scriptStep w step) (Exec.scriptStep (w.recordedBy r) step) := by
  refine .bind (t.scriptText _) fun code => .bind (t.rules _) fun rules => ?_
  refine .bindOf (t.runScript code) (fun _ => rfl) (runScript_gives w code)
    (runScript_gives (w.recordedBy r) code) fun ended _ hsame hended _ => ?_
  subst hsame
  obtain ⟨client, job, outside, hended⟩ := hended
  cases ended with
  | error fault =>
    -- the one fault that comes from outside: a tie has to allow it
    exact .bind (t.log _) fun _ => .fail (t.script client job outside fault hended.symm)
  | ok outcome =>
    refine .bind (t.logPrinted _) fun _ => ?_
    cases outcome.values with
    | none => exact t.say _
    | some values =>
      refine .bind (t.noted _) fun _ => .bind (t.extendExtract _) fun _ => ?_
      refine .bind (t.reword (fun _ => rfl) (fun _ => rfl) fun _ _ h => ?_) fun _ => ?_
      · exact (h.responded .rfl).change (f := fun r => { r with
          extracted := Keyed.extend r.extracted values }) fun r => by cases r; rfl
      let returned (extracted : Json.Members) :=
        "script returned " ++ toString extracted.length ++ " value(s)"
      refine t.extracted
        (k := fun extracted => do
          Exec.say (returned extracted)
          Exec.raise (← Exec.check w rules (Exec.responseOfValues values) (some (.object values))))
        (l := fun extracted => do
          Exec.say (returned extracted)
          Exec.raise (← Exec.check (w.recordedBy r) rules (Exec.responseOfValues values)
            (some (.object values))))
        fun extracted => ?_
      refine .bind (t.say _) fun _ => ?_
      exact t.checked rules .rfl _ fun _ hfault => t.raise hfault

/-! ### Between the steps of a container -/

theorem loadCase (id : Int) :
    L.Holds Eq (Exec.loadCase w id) (Exec.loadCase (w.recordedBy r) id) := by
  refine .bind (t.load id) fun trouble => ?_
  cases trouble with
  | some reason => exact .fail (t.mild rfl)
  | none =>
    dsimp only
    split
    · exact .pure rfl
    · exact t.misfit _

theorem includedCase (step : StepFields) :
    L.Holds Eq (Exec.includedCase w step) (Exec.includedCase (w.recordedBy r) step) := by
  unfold Exec.includedCase
  split
  · exact t.misfit _
  · refine .bind (t.loadCase _) fun record => ?_
    cases record.visibility with
    | shared => exact .pure rfl
    | restricted => exact t.misfit _

omit t in
/-- The record that is loaded is the library's own. -/
theorem loadCase_gives (w : World ρ σ) (id : Int) :
    Exec.Gives (Exec.loadCase w id) fun record => w.library.find? id = some record := by
  -- an answer of the loader is only looked at for trouble
  refine .bind fun trouble => ?_
  cases trouble with
  | some reason => exact .fail _
  | none =>
    dsimp only
    split
    · next record h => exact .pure h
    · exact .fail _

omit t in
/-- An included case is the one that the library has under the id of the step, and it is shared. -/
theorem includedCase_gives (w : World ρ σ) (step : StepFields) :
    Exec.Gives (Exec.includedCase w step) fun found =>
      step.includedCase = some found.1 ∧ w.library.find? found.1 = some found.2 ∧
        found.2.visibility = .shared := by
  unfold Exec.includedCase
  split
  · exact .fail _
  · next id hid =>
    refine .bindOf (loadCase_gives w id) fun record hrecord => ?_
    cases hv : record.visibility with
    | shared => exact .pure ⟨hid, hrecord, hv⟩
    | restricted => exact .fail _

theorem source (step : StepFields) :
    L.Holds Eq (Exec.source w step) (Exec.source (w.recordedBy r) step) := by
  unfold Exec.source
  split
  · exact t.misfit _
  · exact t.misfit _
  · refine .bind (t.resolveValue _) fun found => ?_
    split
    · split
      · exact t.valueOf _
      · exact .pure rfl
    · exact .pure rfl

/-- Whether the time of a loop is up. Where clocks do not agree, neither do the answers. -/
theorem timeIsUp (timeout : Binary64) {started started' : Instant}
    (hs : strict → started = started') :
    L.Holds (fun a b => strict → a = b) (Exec.timeIsUp w timeout started)
      (Exec.timeIsUp (w.recordedBy r) timeout started') := by
  unfold Exec.timeIsUp
  split
  · exact .bindRel t.clock (fun _ _ => rfl) fun a b hab => .pure fun h => by rw [hab h, hs h]
  · exact .pure fun _ => rfl

omit t in
/-- A run on the left that gets lost can be compared with anything. -/
theorem outrun {V : α → α → Prop} {m : Exec ρ σ α} {m' : Exec ρ τ α}
    (hm : ∀ f, L.lost (endState (m f)).state.records) (hm' : m'.Keeps L.lost') :
    L.Holds V m m' :=
  ⟨fun f _ _ => .lost (hm f), fun f _ => hm f, hm'⟩

omit t in
/-- And so can one on the right. -/
theorem outrun' {V : α → α → Prop} {m : Exec ρ σ α} {m' : Exec ρ τ α}
    (hm : m.Keeps L.lost) (hm' : ∀ g, L.lost' (endState (m' g)).state.records) :
    L.Holds V m m' :=
  ⟨fun _ g _ => .lost' (hm' g), hm, fun g _ => hm' g⟩

/-- **The limit of time of a loop,** with what comes if it is not reached. -/
theorem expire (timeout : Binary64) {started started' : Instant}
    (hs : strict → started = started') (done : Nat) (a : α) {m : Exec ρ σ α} {m' : Exec ρ τ α}
    (hm : L.Holds Eq m m') :
    L.Holds Eq
      (do if ← Exec.timeIsUp w timeout started then
            Exec.log w (timeoutLine done timeout)
            pure a
          else m)
      (do if ← Exec.timeIsUp (w.recordedBy r) timeout started' then
            Exec.log (w.recordedBy r) (timeoutLine done timeout)
            pure a
          else m') := by
  have ended : L.Holds Eq (Exec.log w (timeoutLine done timeout) >>= fun _ => pure a)
      (Exec.log (w.recordedBy r) (timeoutLine done timeout) >>= fun _ => pure a) :=
    .bind (t.log _) fun _ => .pure rfl
  refine .bindRel (t.timeIsUp timeout hs) (fun _ _ => rfl) fun up up' hup => ?_
  cases up <;> cases up'
  · exact hm
  -- the answers differ, so the clocks do, and the side that stops is lost by the line it leaves
  · exact outrun' hm.left fun g => t.late' (fun h => by cases hup h) _ _ _ _
  · exact outrun (fun f => t.late (fun h => by cases hup h) _ _ _ _) hm.right
  · exact ended

theorem stillHolds (condition : Condition) (i : Nat) :
    L.Holds Eq (Exec.stillHolds w condition i) (Exec.stillHolds (w.recordedBy r) condition i) := by
  -- a fault in a predicate becomes another one, which is mild whatever the first one was
  refine .tryCatch (t.evaluate _) (fun fault _ => ?_) (fun c f g h => .crash h) (fun stop => ?_)
    fun stop => ?_
  · exact .bind (t.log _) fun _ => .fail (t.mild rfl)
  · cases stop with
    | fault fault => exact fun f h => t.lost h _
    | crash crash => exact fun f h => h
  · cases stop with
    | fault fault => exact fun f h => t.lost' h _
    | crash crash => exact fun f h => h

theorem pause (loop : Loop ρ σ) (loop' : Loop ρ τ) (h : loop.interval = loop'.interval) :
    L.Holds Eq (Exec.pause w loop) (Exec.pause (w.recordedBy r) loop') := by
  unfold Exec.pause
  rw [h]
  split
  · exact t.sleep _
  · exact .pure rfl

theorem conclude (tally : Tally) :
    L.Holds Eq (Exec.conclude tally : Exec ρ σ Unit) (Exec.conclude tally) := by
  refine .bind (t.say _) fun _ => ?_
  cases tally.brokenAt with
  | some i => exact .fail (t.mild rfl)
  | none =>
    dsimp only
    split
    · exact .pure rfl
    · exact .fail (t.mild rfl)

omit t in
theorem settle (hall : ∀ fault, L.allowed fault) (container : String) (outcome : ChildrenOutcome) :
    L.Holds Eq (Exec.settle container outcome : Exec ρ σ Unit)
      (Exec.settle container outcome) := by
  cases outcome with
  | passed => exact .pure rfl
  | failed => exact .fail (hall _)
  | aborted => exact .fail (hall _)

end Tie

end Scenario
