import Mathlib.Logic.Relation
import Scenario.Proofs.Checks
import Scenario.Proofs.Turns

/-!
# Leaf steps

Request, script and wait steps run no other steps. Each prepares something, does it, and may check
rules against what came of it; it can stop on the way at many places. Whatever stops it before its
rules are checked, it has brought nothing about.

* `Frame.Asking` — a step that prepares what it will do asks for hosts, and leaves lines in the
  trace. `Exec.request_asking`, `Exec.rules_asking`.
* `Frame.Spared` — neither what the result says nor the session has changed.
* `Exec.Faults` — how the frames before and after a fault are related: `Frame.SparedUnless`.
* `Exec.requestStep_misfit` — a request step that is misconfigured does not get to its request.
* `Step.run_spares` — **a leaf step fails all or nothing,** unless its checks fail.
-/

namespace Scenario

variable {ρ σ α β : Type}

/-! ### Preparing -/

/-- The outside is asked for the address of a project in an environment. -/
def Outside.AskedHost (o : Outside ρ) (before after : ρ) : Prop :=
  ∃ project environment, after = (o.environmentHost project environment before).2

/-- **While a step prepares,** it asks for hosts at the most. Nothing else happens, but for lines in
the trace and notices. -/
structure Frame.Asking (w : World ρ σ) (f g : Frame ρ σ) : Prop where
  result : g.result = f.result
  context : g.state.context.silent = f.state.context.silent
  outside : Relation.ReflTransGen w.toOutside.AskedHost f.state.outside g.state.outside

namespace Frame.Asking

variable {w : World ρ σ} {f g h : Frame ρ σ}

theorem of_still (hfg : f.Still w g) : Asking w f g where
  result := hfg.result
  context := hfg.context_eq
  outside := by
    rw [show g.state.outside = f.state.outside from hfg.outside]

theorem trans (hfg : Asking w f g) (hgh : Asking w g h) : Asking w f h where
  result := hgh.result.trans hfg.result
  context := hgh.context.trans hfg.context
  outside := hfg.outside.trans hgh.outside

end Frame.Asking

namespace Exec

theorem Moves.mono {R R' : Frame ρ σ → Frame ρ σ → Prop} {m : Exec ρ σ α} (hm : m.Moves R)
    (h : ∀ {f g}, R f g → R' f g) : m.Moves R' :=
  fun f => h (hm f)

section

variable {w : World ρ σ} {m : Exec ρ σ α} {k : α → Exec ρ σ β}

theorem Moves.asking (hm : m.Moves (Frame.Asking w)) (hk : ∀ a, (k a).Moves (Frame.Asking w)) :
    (m >>= k).Moves (Frame.Asking w) :=
  .bind (fun hfg hgh => hfg.trans hgh) hm hk

theorem Moves.silent (hm : m.Moves (Frame.Still w)) : m.Moves (Frame.Asking w) :=
  hm.mono fun hfg => .of_still hfg

theorem pure_asking (a : α) : (pure a : Exec ρ σ α).Moves (Frame.Asking w) :=
  Moves.silent fun _ => .rfl

theorem misfit_asking (cause : Misconfiguration) :
    (misfit cause : Exec ρ σ α).Moves (Frame.Asking w) :=
  Moves.silent fun _ => .rfl

theorem ofExcept_asking (x : Except Fault α) : (ofExcept x).Moves (Frame.Asking w) :=
  .silent (.ofExcept x)

theorem resolveValue_asking (v : Json.Value) : (resolveValue w v).Moves (Frame.Asking w) :=
  .silent (.resolveValue v)

theorem resolveText_asking (text : String) : (resolveText w text).Moves (Frame.Asking w) :=
  Moves.silent fun _ => .resolved _

end

variable (w : World ρ σ) (step : StepFields)

theorem baseAddress_asking (path : String) : (baseAddress w step path).Moves (Frame.Asking w) := by
  unfold baseAddress
  split
  · exact misfit_asking _
  · refine .asking (Moves.silent fun _ => .rfl) fun ctx => ?_
    split
    · exact misfit_asking _
    · next project _ _ environment _ =>
      refine .asking (fun f => ⟨rfl, rfl, .single ⟨project, environment, rfl⟩⟩) fun found => ?_
      split
      · exact Moves.silent fun _ => .rfl
      · exact misfit_asking _
      · split
        · exact misfit_asking _
        · exact pure_asking _

theorem address_asking : (address w step).Moves (Frame.Asking w) := by
  unfold address
  split
  · exact misfit_asking _
  · refine .asking (resolveText_asking _) fun path => ?_
    extract_lets finish
    have hfull : ∀ full : String, (finish full).Moves (Frame.Asking w) := by
      intro full
      unfold finish
      split
      · exact misfit_asking _
      · split
        · exact pure_asking _
        · exact misfit_asking _
    split
    · exact .asking (pure_asking _) hfull
    · exact .asking (baseAddress_asking w step path) fun _ => .asking (pure_asking _) hfull

theorem resolveField_asking (declared : Option Json.Value) :
    (resolveField w declared).Moves (Frame.Asking w) := by
  unfold resolveField
  split
  · exact pure_asking _
  · exact pure_asking _
  · exact .asking (resolveValue_asking _) fun _ => pure_asking _

theorem resolvePairs_asking (field : String) (declared : Option Json.Value) :
    (resolvePairs w field declared).Moves (Frame.Asking w) := by
  refine .asking (resolveField_asking w declared) fun found => ?_
  split
  · exact pure_asking _
  · exact ofExcept_asking _

theorem payload_asking : (payload w step).Moves (Frame.Asking w) := by
  refine .asking (resolveField_asking w _) fun found => ?_
  split
  · exact pure_asking _
  · split
    · exact .asking (resolveText_asking _) fun _ => pure_asking _
    · refine .asking (resolveField_asking w _) fun found => ?_
      split
      · exact .asking (ofExcept_asking _) fun _ => pure_asking _
      · refine .asking (resolveField_asking w _) fun found => ?_
        split
        · exact .asking (ofExcept_asking _) fun _ => pure_asking _
        · exact pure_asking _

/-- **Putting a request together** asks for hosts at the most. -/
theorem request_asking : (request w step).Moves (Frame.Asking w) := by
  unfold request
  split
  · exact misfit_asking _
  · refine .asking (ofExcept_asking _) fun method => ?_
    refine .asking (address_asking w step) fun address => ?_
    refine .asking (resolvePairs_asking w _ _) fun headers => ?_
    refine .asking (resolvePairs_asking w _ _) fun params => ?_
    exact .asking (payload_asking w step) fun payload => pure_asking _

theorem resolveExpression_asking (expression : Option String) :
    (resolveExpression w expression).Moves (Frame.Asking w) := by
  cases expression with
  | none => exact pure_asking _
  | some expression => exact .asking (resolveText_asking _) fun _ => pure_asking _

theorem resolveExtracts_asking (rules : List ExtractRule) :
    (resolveExtracts w rules).Moves (Frame.Asking w) := by
  induction rules with
  | nil => exact pure_asking _
  | cons rule rest ih =>
    refine .asking (resolveExpression_asking w _) fun _ => ?_
    exact .asking ih fun _ => pure_asking _

theorem resolveAsserts_asking (rules : List AssertRule) :
    (resolveAsserts w rules).Moves (Frame.Asking w) := by
  induction rules with
  | nil => exact pure_asking _
  | cons rule rest ih =>
    refine .asking (resolveExpression_asking w _) fun _ => ?_
    refine .asking (resolveValue_asking _) fun _ => ?_
    exact .asking ih fun _ => pure_asking _

/-- **So does getting the rules ready.** -/
theorem rules_asking : (rules w step).Moves (Frame.Asking w) := by
  refine .asking (ofExcept_asking _) fun _ => ?_
  refine .asking (resolveExtracts_asking w _) fun _ => ?_
  refine .asking (ofExcept_asking _) fun _ => ?_
  exact .asking (resolveAsserts_asking w _) fun _ => pure_asking _

end Exec

/-! ### What is spared -/

/-- A fault of checks that failed. -/
def Fault.OfChecks (fault : Fault) : Prop := ∃ failures, fault = .checks failures

/-- **Spared:** the verdict is the same, the result says of extracted variables, assertions and a
response what it said before, and the session is the same. -/
structure Frame.Spared (f g : Frame ρ σ) : Prop where
  success : g.result.success = f.result.success
  extracted : g.result.extracted = f.result.extracted
  ledger : g.result.ledger = f.result.ledger
  response : g.result.response = f.result.response
  session : g.state.context.session = f.state.context.session

namespace Frame

variable {w : World ρ σ} {f g h : Frame ρ σ}

theorem Spared.rfl : Spared f f := ⟨Eq.refl _, Eq.refl _, Eq.refl _, Eq.refl _, Eq.refl _⟩

theorem Spared.trans (hfg : Spared f g) (hgh : Spared g h) : Spared f h where
  success := hgh.success.trans hfg.success
  extracted := hgh.extracted.trans hfg.extracted
  ledger := hgh.ledger.trans hfg.ledger
  response := hgh.response.trans hfg.response
  session := hgh.session.trans hfg.session

theorem Asking.spared (hfg : Asking w f g) : Spared f g where
  success := by rw [hfg.result]
  extracted := by rw [hfg.result]
  ledger := by rw [hfg.result]
  response := by rw [hfg.result]
  session := (congrArg Context.session hfg.context :)

/-- The verdict is the same. -/
def Undecided (f g : Frame ρ σ) : Prop := g.result.success = f.result.success

/-- A fault that spares the frame, unless it is one of failed checks. -/
def SparedUnless (fault : Fault) (f g : Frame ρ σ) : Prop :=
  fault.OfChecks ∨ Spared f g

end Frame

namespace Exec

/-- How the frames before and after a fault are related. -/
def Faults (R : Fault → Frame ρ σ → Frame ρ σ → Prop) (m : Exec ρ σ α) : Prop :=
  ∀ f fault g, m f = .error (.fault fault) g → R fault f g

section

variable {R : Fault → Frame ρ σ → Frame ρ σ → Prop} {m : Exec ρ σ α} {k : α → Exec ρ σ β}

theorem Moves.faults {S : Frame ρ σ → Frame ρ σ → Prop} (hm : m.Moves S)
    (h : ∀ {fault f g}, S f g → R fault f g) : m.Faults R := by
  intro f fault g hfault
  have hmoved := hm f
  rw [hfault] at hmoved
  exact h hmoved

theorem Faultless.faults (hm : m.Faultless) : m.Faults R :=
  fun f fault g h => absurd h (hm f fault g)

theorem Faults.bind {S : Frame ρ σ → Frame ρ σ → Prop} (hm : m.Faults R) (hmoves : m.Moves S)
    (htrans : ∀ {fault f g h}, S f g → R fault g h → R fault f h) (hk : ∀ a, (k a).Faults R) :
    (m >>= k).Faults R := by
  intro f fault h hfault
  rcases bind_error hfault with hfault | ⟨a, g, ha, hfault⟩
  · exact hm f fault h hfault
  · have hmoved := hmoves f
    rw [ha] at hmoved
    exact htrans hmoved (hk a g fault h hfault)

theorem Faults.mono {R' : Fault → Frame ρ σ → Frame ρ σ → Prop} (hm : m.Faults R)
    (h : ∀ {fault f g}, R fault f g → R' fault f g) : m.Faults R' :=
  fun f fault g hfault => h (hm f fault g hfault)

end

/-- Whatever fault `m` stops at, it is one of these. -/
abbrev Raises (P : Fault → Prop) (m : Exec ρ σ α) : Prop := m.Faults fun fault _ _ => P fault

section

variable {P : Fault → Prop} {Q : α → Prop} {m : Exec ρ σ α} {k : α → Exec ρ σ β}

theorem Raises.bindOf (hm : m.Faultless) (hQ : m.Gives Q) (hk : ∀ a, Q a → (k a).Raises P) :
    (m >>= k).Raises P := by
  intro f fault h hfault
  rcases bind_error hfault with hfault | ⟨a, g, ha, hfault⟩
  · exact absurd hfault (hm f fault h)
  · exact hk a (hQ f a g ha) g fault h hfault

theorem Raises.bind (hm : m.Faultless) (hk : ∀ a, (k a).Raises P) : (m >>= k).Raises P :=
  .bindOf hm (Q := fun _ => True) (fun _ _ _ _ => trivial) fun a _ => hk a

end

/-! ### The checks of a step -/

variable (w : World ρ σ)

theorem Faultless.amend (change : StepResult → StepResult) :
    Faultless (amend change : Exec ρ σ Unit) := by
  rintro _ _ _ ⟨⟩

theorem Faultless.get : Faultless (get : Exec ρ σ (Frame ρ σ)) := by
  rintro _ _ _ ⟨⟩

theorem Faultless.logExtracted (values : List (String × Json.Value)) :
    Faultless (logExtracted w values) := by
  induction values with
  | nil => exact .pure _
  | cons entry rest ih => exact .bind (.act _) fun _ => ih

theorem Faultless.check (rules : Rules) (response : Response) (json : Option Json.Value) :
    Faultless (check w rules response json) := by
  intro f fault g h
  obtain ⟨state, hcheck⟩ := check_eq w rules response json f
  rw [hcheck] at h
  cases h

/-- Checking rules gives the fault of failed checks, or none. -/
theorem Gives.check (rules : Rules) (response : Response) (json : Option Json.Value) :
    Gives (check w rules response json) fun found =>
      ∀ fault ∈ found, fault.OfChecks := by
  intro f found g h fault hfault
  obtain ⟨state, hcheck⟩ := check_eq w rules response json f
  rw [hcheck] at h
  cases h
  unfold Checked.fault? at hfault
  split at hfault
  · cases hfault
  · cases hfault
    exact ⟨_, rfl⟩

theorem Raises.raise {P : Fault → Prop} {found : Option Fault} (h : ∀ fault ∈ found, P fault) :
    (raise found : Exec ρ σ Unit).Raises P := by
  intro f fault g hfault
  cases found with
  | none => cases hfault
  | some _ =>
    cases hfault
    exact h fault rfl

/-! ### What a leaf step does -/

section

variable {m : Exec ρ σ α} {k : α → Exec ρ σ β}

theorem Moves.spared (hm : m.Moves Frame.Spared) (hk : ∀ a, (k a).Moves Frame.Spared) :
    (m >>= k).Moves Frame.Spared :=
  .bind (fun hfg hgh => hfg.trans hgh) hm hk

theorem Moves.undecided (hm : m.Moves Frame.Undecided) (hk : ∀ a, (k a).Moves Frame.Undecided) :
    (m >>= k).Moves Frame.Undecided :=
  .bind (fun hfg hgh => hgh.trans hfg) hm hk

theorem Moves.spares (hm : m.Moves Frame.Spared) : m.Moves Frame.Undecided :=
  hm.mono fun h => h.success

theorem Moves.prepares {w : World ρ σ} (hm : m.Moves (Frame.Asking w)) : m.Moves Frame.Spared :=
  hm.mono fun h => h.spared

/-- Something that spares the frame comes first. -/
theorem Moves.sparing (hm : m.Moves Frame.Spared) (hk : ∀ a, (k a).Faults Frame.SparedUnless) :
    (m >>= k).Faults Frame.SparedUnless :=
  (hm.faults fun h => .inr h).bind hm (fun hfg hgh => hgh.imp_right hfg.trans) hk

end

theorem note_spared (notice : Notice) : (note w notice).Moves Frame.Spared :=
  fun _ => ⟨rfl, rfl, rfl, rfl, rfl⟩

theorem log_spared (text : String) : (log w text).Moves Frame.Spared :=
  fun _ => ⟨rfl, rfl, rfl, rfl, rfl⟩

theorem fail_spared (fault : Fault) : (fail fault : Exec ρ σ α).Moves Frame.Spared :=
  fun _ => .rfl

theorem client_spared : (client w).Moves Frame.Spared := by
  refine .spared (fun f => ⟨rfl, rfl, rfl, rfl, ?_⟩) fun answer => ?_
  · change (f.state.client w).2.context.session = _
    unfold RunState.client
    split
    · rfl
    · dsimp only
      split <;> rfl
  · split <;> exact fun _ => ⟨rfl, rfl, rfl, rfl, rfl⟩

theorem send_spared (request : Http.Request) : (send w request).Moves Frame.Spared :=
  .spared (client_spared w) fun _ _ => ⟨rfl, rfl, rfl, rfl, rfl⟩

/-- **An exchange** leaves its response to the step. -/
theorem exchange_spared (request : Http.Request) : (exchange w request).Moves Frame.Spared := by
  refine .spared (note_spared w _) fun _ => ?_
  refine .spared (client_spared w) fun _ => ?_
  refine .spared (log_spared w _) fun _ => ?_
  refine .spared (fun _ => .rfl) fun started => ?_
  refine .spared (send_spared w request) fun answer => ?_
  split
  · refine .spared (note_spared w _) fun _ => ?_
    refine .spared (log_spared w _) fun _ => ?_
    exact .spared (note_spared w _) fun _ => fail_spared _
  · refine .spared (fun _ => .rfl) fun ended => ?_
    refine .spared (log_spared w _) fun _ => ?_
    exact .spared (note_spared w _) fun _ _ => .rfl

theorem runScript_spared (code : String) : (runScript w code).Moves Frame.Spared :=
  .spared (client_spared w) fun _ _ => ⟨rfl, rfl, rfl, rfl, rfl⟩

theorem logPrinted_spared (lines : List String) : (logPrinted w lines).Moves Frame.Spared := by
  induction lines with
  | nil => exact fun _ => .rfl
  | cons line rest ih => exact .spared (log_spared w _) fun _ => ih

theorem sleep_spared (seconds : Binary64) : (sleep w seconds).Moves Frame.Spared := by
  refine .spared (fun f => ⟨rfl, rfl, rfl, rfl, ?_⟩) fun slept => ?_
  · change (f.state.sleep w seconds).2.context.session = _
    unfold RunState.sleep
    split <;> rfl
  · cases slept <;> exact fun _ => .rfl

variable (step : StepFields)

/-- What a request step does with a response. -/
def respond (rules : Rules) (response : Response) : Exec ρ σ Unit := do
  log w (responseLine response)
  note w (.responded response.status)
  say ("HTTP " ++ toString response.status)
  amend fun r => { r with response := some (Response.codec.write response) }
  let fault ← check w rules response response.json?
  logExtracted w (← get).result.extracted
  raise fault

theorem requestStep_eq : requestStep w step = (do
    let request ← request w step
    let rules ← rules w step
    let response ← exchange w request
    respond w rules response) :=
  rfl

/-- Only the checks of a response can fail. -/
theorem respond_raises (rules : Rules) (response : Response) :
    (respond w rules response).Raises Fault.OfChecks := by
  refine .bind (.act _) fun _ => ?_
  refine .bind (.act _) fun _ => ?_
  refine .bind (.amend _) fun _ => ?_
  refine .bind (.amend _) fun _ => ?_
  refine .bindOf (.check w rules response _) (.check w rules response _) fun found hfound => ?_
  refine .bind .get fun frame => ?_
  exact .bind (.logExtracted w _) fun _ => .raise hfound

theorem check_undecided (rules : Rules) (response : Response) (json : Option Json.Value) :
    (check w rules response json).Moves Frame.Undecided := by
  intro f
  obtain ⟨state, hcheck⟩ := check_eq w rules response json f
  rw [hcheck]
  rfl

theorem raise_undecided (found : Option Fault) :
    (raise found : Exec ρ σ Unit).Moves Frame.Undecided := by
  cases found <;> exact fun _ => rfl

theorem logExtracted_spared (values : List (String × Json.Value)) :
    (logExtracted w values).Moves Frame.Spared := by
  induction values with
  | nil => exact fun _ => .rfl
  | cons entry rest ih => exact .spared (log_spared w _) fun _ => ih

/-- The work of a request step gives no verdict. -/
theorem requestStep_undecided : (requestStep w step).Moves Frame.Undecided := by
  rw [requestStep_eq]
  refine .undecided (request_asking w step).prepares.spares fun request => ?_
  refine .undecided (rules_asking w step).prepares.spares fun rules => ?_
  refine .undecided (exchange_spared w request).spares fun response => ?_
  refine .undecided (fun _ => rfl) fun _ => ?_
  refine .undecided (fun _ => rfl) fun _ => ?_
  refine .undecided (fun _ => rfl) fun _ => ?_
  refine .undecided (fun _ => rfl) fun _ => ?_
  refine .undecided (check_undecided w rules response _) fun found => ?_
  refine .undecided (fun _ => rfl) fun frame => ?_
  exact .undecided (logExtracted_spared w _).spares fun _ => raise_undecided found

/-- **A request step** fails all or nothing. -/
theorem requestStep_faults : (requestStep w step).Faults Frame.SparedUnless := by
  rw [requestStep_eq]
  refine Moves.sparing (request_asking w step).prepares fun request => ?_
  refine Moves.sparing (rules_asking w step).prepares fun rules => ?_
  exact Moves.sparing (exchange_spared w request) fun response =>
    (respond_raises w rules response).mono .inl

/-- What a script step does with the outcome of its script. -/
def deliver (rules : Rules) (outcome : ScriptOutcome) : Exec ρ σ Unit := do
  match outcome.values with
  | none => say "script returned nothing"
  | some values =>
    note w (.scriptReturned step.key values.length)
    extend w values .extract
    let response := responseOfValues values
    amend fun r => { r with
      extracted := Keyed.extend r.extracted values
      response := some (Response.codec.write response) }
    say ("script returned " ++ toString (← get).result.extracted.length ++ " value(s)")
    raise (← check w rules response (some (.object values)))

theorem scriptStep_eq : scriptStep w step = (do
    let code ← scriptText w step
    let rules ← rules w step
    match ← runScript w code with
    | .error fault =>
      log w ("script failed: " ++ fault.message)
      fail fault
    | .ok outcome =>
      logPrinted w outcome.printed
      deliver w step rules outcome) :=
  rfl

theorem scriptText_asking : (scriptText w step).Moves (Frame.Asking w) := by
  unfold scriptText
  split
  · exact Moves.silent fun _ => .resolved _
  · exact misfit_asking _

/-- Only the checks of what a script returned can fail. -/
theorem deliver_raises (rules : Rules) (outcome : ScriptOutcome) :
    (deliver w step rules outcome).Raises Fault.OfChecks := by
  unfold deliver
  split
  · exact (Faultless.amend _).faults
  · refine .bind (.act _) fun _ => ?_
    refine .bind (.act _) fun _ => ?_
    refine .bind (.amend _) fun _ => ?_
    refine .bind .get fun frame => ?_
    refine .bind (.amend _) fun _ => ?_
    exact .bindOf (.check w rules _ _) (.check w rules _ _) fun _ => .raise

theorem extend_undecided (data : Json.Members) (scope : Scope) :
    (extend w data scope).Moves Frame.Undecided :=
  fun _ => rfl

/-- The work of a script step gives no verdict. -/
theorem scriptStep_undecided : (scriptStep w step).Moves Frame.Undecided := by
  rw [scriptStep_eq]
  -- the parts of the step one after the other, none of which writes the verdict
  refine .undecided (scriptText_asking w step).prepares.spares fun code => ?_
  refine .undecided (rules_asking w step).prepares.spares fun rules => ?_
  refine .undecided (runScript_spared w code).spares fun ran => ?_
  split
  · exact .undecided (fun _ => rfl) fun _ _ => rfl
  · next outcome =>
    refine .undecided (logPrinted_spared w _).spares fun _ => ?_
    unfold deliver
    split
    · exact fun _ => rfl
    · refine .undecided (fun _ => rfl) fun _ => ?_
      refine .undecided (extend_undecided w _ _) fun _ => ?_
      refine .undecided (fun _ => rfl) fun _ => ?_
      refine .undecided (fun _ => rfl) fun frame => ?_
      refine .undecided (fun _ => rfl) fun _ => ?_
      exact .undecided (check_undecided w rules _ _) raise_undecided

/-- **A script step** fails all or nothing. -/
theorem scriptStep_faults : (scriptStep w step).Faults Frame.SparedUnless := by
  rw [scriptStep_eq]
  refine Moves.sparing (scriptText_asking w step).prepares fun code => ?_
  refine Moves.sparing (rules_asking w step).prepares fun rules => ?_
  refine Moves.sparing (runScript_spared w code) fun ran => ?_
  split
  · exact Moves.sparing (log_spared w _) fun _ => (fail_spared _).faults .inr
  · next outcome =>
    exact Moves.sparing (logPrinted_spared w _) fun _ =>
      (deliver_raises w step rules outcome).mono .inl

/-- **A wait step** brings nothing about, however it ends. -/
theorem wait_spared : (wait w step).Moves Frame.Spared := by
  unfold wait
  split
  · exact fail_spared _
  · exact fail_spared _
  · refine .spared (resolveValue_asking _).prepares fun v => ?_
    refine .spared (ofExcept_asking (w := w) _).prepares fun seconds => ?_
    exact .spared (sleep_spared w seconds) fun _ _ => ⟨rfl, rfl, rfl, rfl, rfl⟩

/-! ### Misconfigured requests -/

theorem Faultless.client : Faultless (client w) := by
  refine .bind (fun _ _ _ h => nomatch h) fun answer => ?_
  split <;> exact fun _ _ _ h => nomatch h

theorem Faultless.send (request : Http.Request) : Faultless (send w request) :=
  .bind (.client w) fun _ _ _ _ h => nomatch h

/-- An exchange that fails has had trouble on the way. -/
theorem exchange_raises (request : Http.Request) :
    (exchange w request).Raises fun fault => fault.isConfiguration = false := by
  refine .bind (.act _) fun _ => ?_
  refine .bind (.client w) fun _ => ?_
  refine .bind (.act _) fun _ => ?_
  refine .bind (.bind .get fun _ => .pure _) fun started => ?_
  refine .bind (.send w request) fun answer => ?_
  split
  · refine .bind (.act _) fun _ => ?_
    refine .bind (.act _) fun _ => ?_
    refine .bind (.act _) fun _ => ?_
    rintro _ _ _ ⟨⟩
    rfl
  · refine .bind (.bind .get fun _ => .pure _) fun ended => ?_
    refine .bind (.act _) fun _ => ?_
    exact .bind (.act _) fun _ => (Faultless.pure _).faults

end Exec

/-- The world, but for the way in which requests are sent. -/
def World.sending (w : World ρ σ)
    (send : Http.Client → Http.Request → ρ → Except Http.Trouble Http.Answer × Http.Client × ρ) :
    World ρ σ :=
  { w with send }

namespace Exec

variable (w : World ρ σ) (step : StepFields)
  (send : Http.Client → Http.Request → ρ → Except Http.Trouble Http.Answer × Http.Client × ρ)

theorem resolveExtracts_sending (rules : List ExtractRule) :
    resolveExtracts (w.sending send) rules = resolveExtracts w rules := by
  induction rules with
  | nil => rfl
  | cons rule rest ih =>
    rw [resolveExtracts, resolveExtracts, ih]
    rfl

theorem resolveAsserts_sending (rules : List AssertRule) :
    resolveAsserts (w.sending send) rules = resolveAsserts w rules := by
  induction rules with
  | nil => rfl
  | cons rule rest ih =>
    rw [resolveAsserts, resolveAsserts, ih]
    rfl

theorem rules_sending : rules (w.sending send) step = rules w step := by
  unfold rules
  simp only [resolveExtracts_sending, resolveAsserts_sending]

/-- **A misconfigured request step** has asked for hosts at the most, and stops in the same place
whatever is done about requests. -/
theorem requestStep_misfit {f g : Frame ρ σ} {fault : Fault}
    (h : requestStep w step f = .error (.fault fault) g) (hfault : fault.isConfiguration = true) :
    f.Asking w g ∧ ∀ send, requestStep (w.sending send) step f = .error (.fault fault) g := by
  have hsending : ∀ send, requestStep (w.sending send) step = (do
      let request ← request w step
      let rules ← rules w step
      let response ← exchange (w.sending send) request
      respond (w.sending send) rules response) := by
    intro send
    rw [requestStep_eq, rules_sending]
    rfl
  simp only [hsending]
  rw [requestStep_eq] at h
  have hrequest := request_asking w step f
  rcases bind_error h with h | ⟨req, f', hreq, h⟩
  · rw [h] at hrequest
    exact ⟨hrequest, fun send => bind_eq_error h⟩
  · rw [hreq] at hrequest
    simp only [bind_eq_ok hreq]
    have hrules := rules_asking w step f'
    rcases bind_error h with h | ⟨rules, f'', -, h⟩
    · rw [h] at hrules
      exact ⟨hrequest.trans hrules, fun send => bind_eq_error h⟩
    · -- neither the exchange nor the checks find a misconfiguration
      exfalso
      rcases bind_error h with h | ⟨response, f₃, -, h⟩
      · exact absurd (exchange_raises w req f'' fault g h) (by simp [hfault])
      · obtain ⟨failures, rfl⟩ := respond_raises w rules response f₃ fault g h
        cases hfault

/-! ### The work of a leaf step -/

/-- A span around something. -/
theorem within_eq (span : Span) (action : Exec ρ σ Unit) (f : Frame ρ σ) :
    within w span action f =
      match action (f.mapState (RunState.note w (.entered span))) with
      | .ok () g => .ok () (g.mapState (RunState.note w .left))
      | .error stop g => .error stop (g.mapState (RunState.note w .left)) := by
  have htry : within w span action f = EStateM.bind (EStateM.tryCatch action fun stop => do
      note w .left
      throw stop) (fun _ => note w .left) (f.mapState (RunState.note w (.entered span))) := rfl
  rw [htry, EStateM.bind, EStateM.tryCatch]
  cases action (f.mapState (RunState.note w (.entered span))) <;> rfl

/-- A span fails at the fault of what it spans. -/
theorem within_eq_fault_iff {span : Span} {action : Exec ρ σ Unit} {f g : Frame ρ σ}
    {fault : Fault} : within w span action f = .error (.fault fault) g ↔
      ∃ g', action (f.mapState (RunState.note w (.entered span))) = .error (.fault fault) g' ∧
        g = g'.mapState (RunState.note w .left) := by
  rw [within_eq]
  constructor
  · intro h
    split at h
    · cases h
    · next stop g' hstop =>
      cases h
      exact ⟨g', hstop, rfl⟩
  · rintro ⟨g', hstop, rfl⟩
    rw [hstop]

end Exec

/-- How the work of a step ends. -/
def Step.ending (w : World ρ σ) (step : Step) (s : RunState ρ σ) : Ending :=
  .ofResult (workOf w (runnable w) step.toStepFields (runnable w step.children)
    (s.openingFrame w step.toStepFields))

section

variable {w : World ρ σ} {ready : List Step → List (Ready ρ σ)} {step : StepFields}
  {children : List (Ready ρ σ)}

theorem workOf_http (hkind : step.declaredKind = .ok .http) : workOf w ready step children =
    Exec.within w (.requestStep step.key) (Exec.requestStep w step) := by
  rw [workOf, hkind]
  rfl

/-- **The work of a leaf step** gives no verdict, -/
theorem workOf_undecided {kind : StepKind} (hkind : step.declaredKind = .ok kind)
    (hleaf : kind.IsLeaf) : (workOf w ready step children).Moves Frame.Undecided := by
  obtain rfl | rfl | rfl := hleaf
  · rw [workOf_http hkind]
    intro f
    have hmoved := Exec.requestStep_undecided w step
      (f.mapState (RunState.note w (.entered (.requestStep step.key))))
    rw [Exec.within_eq]
    generalize Exec.requestStep w step _ = x at hmoved ⊢
    cases x <;> exact hmoved
  · rw [workOf, hkind]
    exact Exec.scriptStep_undecided w step
  · rw [workOf, hkind]
    exact (Exec.wait_spared w step).spares

/-- and it fails all or nothing. -/
theorem workOf_faults {kind : StepKind} (hkind : step.declaredKind = .ok kind)
    (hleaf : kind.IsLeaf) : (workOf w ready step children).Faults Frame.SparedUnless := by
  obtain rfl | rfl | rfl := hleaf
  · rw [workOf_http hkind]
    intro f fault g h
    obtain ⟨g', hstop, rfl⟩ := (Exec.within_eq_fault_iff w).mp h
    exact (Exec.requestStep_faults w step _ fault g' hstop).imp_right fun h =>
      ⟨h.success, h.extracted, h.ledger, h.response, h.session⟩
  · rw [workOf, hkind]
    exact Exec.scriptStep_faults w step
  · rw [workOf, hkind]
    exact (Exec.wait_spared w step).faults .inr

end

/-- A step that fails with a frame that is spared is left without anything extracted, and the session
is the one before it. -/
theorem Frame.Spared.concluded {w : World ρ σ} {step : StepFields} {s : RunState ρ σ} {g : Frame ρ σ}
    (h : (s.openingFrame w step).Spared g) (started : Instant) (fault : Fault) :
    g.result.extracted = [] ∧ g.result.ledger = [] ∧ g.result.response = none ∧
      (concludeStep w step s.context started (recordFault w fault g)).2.context.session =
        s.context.session := by
  have hextracted : g.result.extracted = [] := h.extracted
  refine ⟨hextracted, h.ledger, h.response, ?_⟩
  -- what a step extracts is merged into the session when it is left, and here that is nothing
  have hmerged : (g.state.context.extend g.result.extracted .session).session =
      g.state.context.session := by
    rw [hextracted]
    rfl
  have hsession := congrArg Context.session
    (concludeStep_silent w step s.context started (recordFault w fault g))
  calc _ = g.state.context.session := hsession.trans hmerged
    _ = (s.openingFrame w step).state.context.session := h.session
    _ = s.context.session := s.openingFrame_session w step

/-- **A request step that is misconfigured** has asked for hosts at the most, and stops in the same
place whatever is done about requests. -/
theorem workOf_misfit {w : World ρ σ} {ready : List Step → List (Ready ρ σ)} {step : StepFields}
    {children : List (Ready ρ σ)} (hkind : step.declaredKind = .ok .http) {f g : Frame ρ σ}
    {fault : Fault} (hwork : workOf w ready step children f = .error (.fault fault) g)
    (hfault : fault.isConfiguration = true) :
    Relation.ReflTransGen w.toOutside.AskedHost f.state.outside g.state.outside ∧
      ∀ send ready' children', workOf (w.sending send) ready' step children' f =
        .error (.fault fault) g := by
  rw [workOf_http hkind] at hwork
  obtain ⟨g', hstop, rfl⟩ := (Exec.within_eq_fault_iff w).mp hwork
  obtain ⟨hasking, hsent⟩ := Exec.requestStep_misfit w step hstop hfault
  refine ⟨hasking.outside, fun send ready' children' => ?_⟩
  rw [workOf_http hkind]
  exact (Exec.within_eq_fault_iff (w.sending send)).mpr ⟨g', hsent send, rfl⟩

/-- **A leaf step fails all or nothing.** However it is made, and in whatever context and world, if
it fails at another fault than that of failed checks, then its result has no extracted variables, no
assertions and no response, and the session is the one before the step. A request step that is
misconfigured has sent no request: it has asked the world for the addresses of projects at the most,
and its run is the same whatever the world does about requests. -/
theorem Step.run_spares (w : World ρ σ) (step : Step) {kind : StepKind}
    (hkind : step.declaredKind = .ok kind) (hleaf : kind.IsLeaf) {s s' : RunState ρ σ}
    {r : StepResult} (hrun : step.run w s = .ok r s') (hfailed : r.success = false) :
    ∃ fault, step.ending w s = .faulted fault ∧ r.error = some fault.message ∧
      (¬ fault.OfChecks → (r.extracted = [] ∧ r.ledger = [] ∧ r.response = none) ∧
        s'.context.session = s.context.session) ∧
      (kind = .http → fault.isConfiguration = true →
        Relation.ReflTransGen w.toOutside.AskedHost s.outside s'.outside ∧
          ∀ send, step.run (w.sending send) s = .ok r s') := by
  have hrun' := hrun
  rw [Step.run_eq, runStep_eq] at hrun
  unfold Step.ending
  generalize hwork : workOf w (runnable w) step.toStepFields (runnable w step.children)
    (s.openingFrame w step.toStepFields) = x at hrun ⊢
  have hundecided := (workOf_undecided hkind hleaf :
    (workOf w (runnable w) step.toStepFields (runnable w step.children)).Moves Frame.Undecided)
    (s.openingFrame w step.toStepFields)
  rw [hwork] at hundecided
  -- the work has come to its end, or to a fault, or to a crash that leaves no result
  rcases x with ⟨⟨⟩, g⟩ | ⟨fault | crash, g⟩
  · cases hrun
    have hpassed : g.result.success = true := hundecided
    cases hpassed.symm.trans hfailed
  · cases hrun
    refine ⟨fault, rfl, rfl, fun hchecks => ?_, fun hhttp hfault => ?_⟩
    · have hspared := (workOf_faults hkind hleaf _ _ _ hwork).resolve_left hchecks
      obtain ⟨hextracted, hledger, hresponse, hsession⟩ :=
        hspared.concluded (w.now s.outside) fault
      exact ⟨⟨hextracted, hledger, hresponse⟩, hsession⟩
    · subst hhttp
      obtain ⟨hasked, hsent⟩ := workOf_misfit hkind hwork hfault
      refine ⟨?_, fun send => ?_⟩
      · rw [concludeStep_outside]
        exact s.openingFrame_outside w step.toStepFields ▸ hasked
      · have hsame := hsent send (runnable (w.sending send)) (runnable (w.sending send) step.children)
        change workOf (w.sending send) _ _ _ (s.openingFrame (w.sending send) step.toStepFields) = _
          at hsame
        rw [Step.run_eq, runStep_eq, hsame]
        rfl
  · cases hrun

/-- A request step that finds its host and has form fields that are none. -/
theorem Step.run_spares_misconfigured :
    let w := Site.world []
    let step : Step := ⟨{ code := some "login", kind := some "http", project := some "shop"
                          address := some "/login", formData := some (.string "name") }, []⟩
    let s : RunState Site Store := ⟨
      { environment := some "test", session := [("token", .string "abc")] },
      { environments := [(("shop", "test"), "http://shop.example")] }, {}⟩
    (step.declaredKind = .ok .http ∧ StepKind.http.IsLeaf) ∧
      ∃ r s', step.run w s = .ok r s' ∧ r.success = false ∧
        r.error = some ("configuration error: request_form_data must be an object or a list of " ++
          "key/value entries, got \"name\"") ∧
        (r.extracted = [] ∧ r.ledger = [] ∧ r.response = none) ∧
        s'.context.session = s.context.session ∧
        ∀ send, step.run (w.sending send) s = .ok r s' := by
  intro w step s
  have hseen : step.seen (fun r _ => (r.success, r.error)) w s = some (false,
      some ("configuration error: request_form_data must be an object or a list of " ++
        "key/value entries, got \"name\"")) := by decide +kernel
  -- that the fault is one of configuration is seen by running the step
  have hmisfit : (step.ending w s).fault?.map Fault.isConfiguration = some true := by
    decide +kernel
  obtain ⟨r, s', hrun, hlook⟩ := Step.run_of_seen hseen
  obtain ⟨hfailed, herror⟩ := Prod.mk.inj hlook
  have hkind : step.declaredKind = .ok .http := rfl
  have hleaf : StepKind.http.IsLeaf := .inl rfl
  obtain ⟨fault, hending, -, hspared, hsent⟩ := Step.run_spares w step hkind hleaf hrun hfailed
  rw [hending] at hmisfit
  have hfault : fault.isConfiguration = true := Option.some.inj hmisfit
  have hchecks : ¬ fault.OfChecks := by
    rintro ⟨failures, rfl⟩
    cases hfault
  obtain ⟨hresult, hsession⟩ := hspared hchecks
  exact ⟨⟨hkind, hleaf⟩, r, s', hrun, hfailed, herror, hresult, hsession, (hsent rfl hfault).2⟩

end Scenario
