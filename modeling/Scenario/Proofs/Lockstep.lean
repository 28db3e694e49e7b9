import Scenario.Proofs.Mild

/-!
# Lockstep

Two runs whose worlds differ in the recorder alone ask the same questions and get the same answers,
so they stay side by side. This module says what that means for a computation inside of a step, and
what a relation between frames has to survive for it.

* `Lockstep allowed kept crashed m m'` — started in frames that `kept` relates, `m` and `m'` end
  alike: with the same value or at the same fault, an allowed one, in frames that `kept` relates, or
  at the same crash in frames that `crashed` relates.
* `Bond` — what a relation has to survive for that: a line in the trace, a notice, an answer from
  outside, a client, what a step extracts, and the words of the result. A bond may fix everything
  else about its frames: the session, the defined variables, the cases that are being included, the
  results below the running step. The faults it allows are at least the mild ones.

With the same recorder on both sides and a relation below equality, lockstep is preservation of an
invariant; with two recorders it is the erasure of what only records show.
-/

namespace Scenario

/-! ### Contexts that agree -/

namespace Context

/-- A context without what only records show: its trace and the code of its report. -/
def core (ctx : Context) : Context := { ctx with logs := [], reportCode := none }

/-- Contexts that agree in all that a step looks at. -/
def Agrees (c d : Context) : Prop := c.core = d.core

namespace Agrees

variable {c d : Context}

theorem rfl : c.Agrees c := Eq.refl c.core

theorem case (h : c.Agrees d) : c.case = d.case := congrArg (·.case) h

theorem environment (h : c.Agrees d) : c.environment = d.environment := congrArg (·.environment) h

theorem settings (h : c.Agrees d) : c.settings = d.settings := congrArg (·.settings) h

theorem defined (h : c.Agrees d) : c.defined = d.defined := congrArg (·.defined) h

theorem session (h : c.Agrees d) : c.session = d.session := congrArg (·.session) h

theorem extract (h : c.Agrees d) : c.extract = d.extract := congrArg (·.extract) h

theorem key (h : c.Agrees d) : c.key = d.key := congrArg (·.key) h

theorem iteration (h : c.Agrees d) : c.iteration = d.iteration :=
  (congrArg Context.iteration (id h : c.core = d.core) :)

theorem including (h : c.Agrees d) : c.including = d.including := congrArg (·.including) h

theorem client (h : c.Agrees d) : c.client = d.client := congrArg (·.client) h

end Agrees

end Context

/-! ### Frames and outcomes -/

variable {ρ σ τ α β : Type}

/-- The frame after a change of the state of the run. -/
def Frame.mapState (f : RunState ρ σ → RunState ρ σ) (frame : Frame ρ σ) : Frame ρ σ :=
  { frame with state := f frame.state }

/-- The frame after a change of the context. -/
def Frame.mapContext (f : Context → Context) (frame : Frame ρ σ) : Frame ρ σ :=
  frame.mapState fun s => { s with context := f s.context }

/-- The frame after a change of the result. -/
def Frame.mapResult (f : StepResult → StepResult) (frame : Frame ρ σ) : Frame ρ σ :=
  { frame with result := f frame.result }

/-- A result without its words — its message, its response, what it extracted and its ledger — and
without the time it took. What is left is whose result it is, its verdict, its iteration and the
results below it. -/
def StepResult.bare (r : StepResult) : StepResult :=
  { r with
    message := none
    elapsed := .zero false
    response := none
    extracted := []
    ledger := [] }

/-- The same outside with another recorder. -/
abbrev World.recordedBy (w : World ρ σ) (r : Recorder τ) : World ρ τ :=
  { toOutside := w.toOutside, toRecorder := r }

/-- **Ends that are alike.** -/
inductive Alike {S T : Type} (allowed : Fault → Prop) (kept crashed : S → T → Prop) :
    EStateM.Result Stop S α → EStateM.Result Stop T α → Prop
  | ok {a : α} {s : S} {t : T} (h : kept s t) : Alike allowed kept crashed (.ok a s) (.ok a t)
  | fault {f : Fault} {s : S} {t : T} (hf : allowed f) (h : kept s t) :
    Alike allowed kept crashed (.error (.fault f) s) (.error (.fault f) t)
  | crash {c : Crash} {s : S} {t : T} (h : crashed s t) :
    Alike allowed kept crashed (.error (.crash c) s) (.error (.crash c) t)

/-- **Computations in lockstep.** -/
def Lockstep (allowed : Fault → Prop) (kept crashed : Frame ρ σ → Frame ρ τ → Prop)
    (m : Exec ρ σ α) (m' : Exec ρ τ α) : Prop :=
  ∀ f g, kept f g → Alike allowed kept crashed (m f) (m' g)

namespace Lockstep

variable {allowed : Fault → Prop} {kept crashed : Frame ρ σ → Frame ρ τ → Prop}
variable {m : Exec ρ σ α} {m' : Exec ρ τ α}

protected theorem pure (a : α) : Lockstep allowed kept crashed (pure a) (pure a) :=
  fun _ _ h => .ok h

protected theorem bind {k : α → Exec ρ σ β} {k' : α → Exec ρ τ β}
    (hm : Lockstep allowed kept crashed m m')
    (hk : ∀ a, Lockstep allowed kept crashed (k a) (k' a)) :
    Lockstep allowed kept crashed (m >>= k) (m' >>= k') := by
  intro f g h
  change Alike allowed kept crashed (EStateM.bind m k f) (EStateM.bind m' k' g)
  unfold EStateM.bind
  have hend := hm f g h
  -- what is left depends on the two ends alone, which are of one kind
  generalize m f = x, m' g = y at hend
  cases hend with
  | ok h' => exact hk _ _ _ h'
  | fault hf h' => exact .fault hf h'
  | crash h' => exact .crash h'

theorem lift {f : RunState ρ σ → α × RunState ρ σ} {f' : RunState ρ τ → α × RunState ρ τ}
    (hv : ∀ x y, kept x y → (f x.state).1 = (f' y.state).1)
    (hs : ∀ x y, kept x y → kept (x.mapState fun s => (f s).2) (y.mapState fun s => (f' s).2)) :
    Lockstep allowed kept crashed (Exec.lift f) (Exec.lift f') := by
  intro x y h
  change Alike allowed kept crashed (.ok (f x.state).1 (x.mapState fun s => (f s).2))
    (.ok (f' y.state).1 (y.mapState fun s => (f' s).2))
  rw [hv x y h]
  exact .ok (hs x y h)

end Lockstep

/-! ### What a computation gives -/

namespace Exec

/-- Whatever value `m` ends with has a property. -/
def Gives (m : Exec ρ σ α) (P : α → Prop) : Prop :=
  ∀ f a g, m f = .ok a g → P a

/-- `m` stops at a crash or not at all. -/
def Faultless (m : Exec ρ σ α) : Prop :=
  ∀ f fault g, m f ≠ .error (.fault fault) g

variable {m : Exec ρ σ α} {k : α → Exec ρ σ β} {P : α → Prop} {Q : β → Prop}

theorem bind_ok {f g : Frame ρ σ} {c : β} (h : (m >>= k) f = .ok c g) :
    ∃ a f', m f = .ok a f' ∧ k a f' = .ok c g := by
  change EStateM.bind m k f = .ok c g at h
  unfold EStateM.bind at h
  split at h
  · next a f' hm => exact ⟨a, f', hm, h⟩
  · cases h

theorem bind_error {f g : Frame ρ σ} {stop : Stop} (h : (m >>= k) f = .error stop g) :
    m f = .error stop g ∨ ∃ a f', m f = .ok a f' ∧ k a f' = .error stop g := by
  change EStateM.bind m k f = .error stop g at h
  unfold EStateM.bind at h
  split at h
  · next a f' hm => exact .inr ⟨a, f', hm, h⟩
  · next stop' f' hm =>
    cases h
    exact .inl hm

theorem Gives.pure {a : α} (h : P a) : Gives (pure a : Exec ρ σ α) P := by
  intro f a' g h'
  cases h'
  exact h

theorem Gives.fail (fault : Fault) : Gives (fail fault : Exec ρ σ α) P := by
  rintro _ _ _ ⟨⟩

/-- What is known of a value that stands for itself. -/
theorem Gives.ofExcept (x : Except Fault α) :
    Gives (ofExcept x : Exec ρ σ α) fun a => x = .ok a := by
  cases x with
  | ok a => exact .pure rfl
  | error fault => exact .fail fault

theorem Gives.lift {f : RunState ρ σ → α × RunState ρ σ} (h : ∀ s, P (f s).1) :
    Gives (lift f) P := by
  intro frame a g h'
  cases h'
  exact h frame.state

theorem Gives.bind (h : ∀ a, Gives (k a) Q) : Gives (m >>= k) Q := by
  intro f c g hc
  obtain ⟨a, f', -, hk⟩ := bind_ok hc
  exact h a f' c g hk

theorem Gives.bindOf (hm : Gives m P) (h : ∀ a, P a → Gives (k a) Q) : Gives (m >>= k) Q := by
  intro f c g hc
  obtain ⟨a, f', ha, hk⟩ := bind_ok hc
  exact h a (hm f a f' ha) f' c g hk

theorem Faultless.pure (a : α) : Faultless (pure a : Exec ρ σ α) := by
  rintro _ _ _ ⟨⟩

theorem Faultless.act (change : RunState ρ σ → RunState ρ σ) : Faultless (act change) := by
  rintro _ _ _ ⟨⟩

theorem Faultless.bind (hm : Faultless m) (hk : ∀ a, Faultless (k a)) : Faultless (m >>= k) := by
  intro f fault g h
  rcases bind_error h with h | ⟨a, f', -, h⟩
  · exact hm f fault g h
  · exact hk a f' fault g h

theorem Faultless.runChild (child : Ready ρ σ) : Faultless (runChild child) := by
  intro f fault g h
  unfold Exec.runChild at h
  split at h <;> cases h

theorem Faultless.runChildren (w : World ρ σ) (halt : Bool) (children : List (Ready ρ σ)) :
    Faultless (runChildren w halt children) := by
  induction children with
  | nil => exact .pure _
  | cons child rest ih =>
    refine .bind (.runChild child) fun result => ?_
    -- the list ends here after an abort, goes on after a success, and may do either after a failure
    split
    · exact .bind (.act _) fun _ => .pure _
    · split
      · exact ih
      · split
        · exact .pure _
        · refine .bind ih fun outcome => ?_
          cases outcome <;> exact .pure _

/-- A case that is not on the stack is put on top of it. -/
theorem enter_eq_ok {id : Int} {f : Frame ρ σ} (h : id ∉ f.state.context.including) :
    enter id f =
      .ok () (f.mapContext fun ctx => { ctx with including := ctx.including ++ [id] }) := by
  change EStateM.bind (ofExcept (f.state.context.enter id)) _ f = _
  unfold Context.enter
  rw [if_neg h]
  rfl

/-- A case on the stack is refused, and nothing happens. -/
theorem enter_eq_fault {id : Int} {f : Frame ρ σ} (h : id ∈ f.state.context.including) :
    enter id f = .error (.fault (.configuration
      (.circularInclusion (f.state.context.including ++ [id])))) f := by
  change EStateM.bind (ofExcept (f.state.context.enter id)) _ f = _
  unfold Context.enter
  rw [if_pos h]
  rfl

theorem leave_eq_ok {id : Int} {f : Frame ρ σ} :
    leave id f = .ok () (f.mapContext fun ctx => ctx.leave id) := rfl

end Exec

/-- The case on top of the stack is taken off it. -/
theorem Context.leave_concat {ctx : Context} {including : List Int} {id : Int}
    (h : ctx.including = including ++ [id]) : ctx.leave id = { ctx with including } := by
  unfold Context.leave
  rw [h, List.getLast?_concat, if_pos rfl, List.dropLast_concat]

/-! ### Bonds -/

/-- **A bond:** a relation between the frames of two worlds with one outside that a step cannot
break before it runs another step. -/
structure Bond (w : World ρ σ) (r : Recorder τ) (allowed : Fault → Prop)
    (kept : Frame ρ σ → Frame ρ τ → Prop) : Prop where
  agrees : ∀ {f g}, kept f g → f.state.context.Agrees g.state.context
  outside : ∀ {f g}, kept f g → f.state.outside = g.state.outside
  result : ∀ {f g}, kept f g → f.result = g.result
  mild : ∀ {fault : Fault}, fault.isAbort = false → allowed fault
  script : ∀ client job outside fault,
    (w.runScript client job outside).1 = .error fault → allowed fault
  /-- It survives a notice. -/
  note : ∀ {f g}, kept f g → ∀ n,
    kept (f.mapState (RunState.note w n)) (g.mapState (RunState.note (w.recordedBy r) n))
  /-- It survives a line in the trace. -/
  line : ∀ {f g}, kept f g → ∀ key line,
    kept (f.mapContext fun ctx => ctx.logged key line) (g.mapContext fun ctx => ctx.logged key line)
  /-- It survives a question to the outside. -/
  asked : ∀ {f g}, kept f g → ∀ outside,
    kept (f.mapState fun s => { s with outside }) (g.mapState fun s => { s with outside })
  /-- It survives another client. -/
  connected : ∀ {f g}, kept f g → ∀ client,
    kept (f.mapContext fun ctx => { ctx with client }) (g.mapContext fun ctx => { ctx with client })
  /-- It survives what the step extracts. -/
  produced : ∀ {f g}, kept f g → ∀ extract,
    kept (f.mapContext fun ctx => { ctx with extract })
      (g.mapContext fun ctx => { ctx with extract })
  /-- It survives a change of the words of the result. -/
  worded : ∀ {f g}, kept f g → ∀ change : StepResult → StepResult,
    (∀ r, (change r).bare = r.bare) → kept (f.mapResult change) (g.mapResult change)

namespace Bond

variable {w : World ρ σ} {r : Recorder τ} {allowed : Fault → Prop}
variable {kept crashed : Frame ρ σ → Frame ρ τ → Prop}
variable (b : Bond w r allowed kept)

include b

theorem kept_logTo (key text : String) {f : Frame ρ σ} {g : Frame ρ τ} (h : kept f g) :
    kept (f.mapState (RunState.logTo w key text))
      (g.mapState (RunState.logTo (w.recordedBy r) key text)) := by
  -- a line is told first and then written, with the time that the outside shows on both sides
  have h' := b.line (b.note h (.logged key text)) key ⟨w.now f.state.outside, text⟩
  have ho := b.outside h
  simpa only [Frame.mapState, Frame.mapContext, RunState.logTo, RunState.note, ho] using h'

theorem kept_log (text : String) {f : Frame ρ σ} {g : Frame ρ τ} (h : kept f g) :
    kept (f.mapState (RunState.log w text)) (g.mapState (RunState.log (w.recordedBy r) text)) := by
  have h' := b.kept_logTo (f.state.context.key.getD "") text h
  have hk := (b.agrees h).key
  simpa only [Frame.mapState, RunState.log, hk] using h'

end Bond

end Scenario
