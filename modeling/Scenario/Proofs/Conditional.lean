import Scenario.Proofs.Turns

/-!
# Loops that go on while a predicate holds

Such a loop looks at its predicate after each iteration, on the variables as they are then. It ends
when the predicate does not hold or cannot be evaluated; it also ends when its time is up or when
there were too many iterations, but only if the predicate holds and after the pause.

* `Exec.stillHolds_eq` — what is done with the answer to the predicate. Evaluating it changes
  nothing (`Exec.evaluate_still`).
* `Loop.Renews` — the step from one iteration to the next one. `Exec.Lapses` — the ends of a loop
  that could go on. After an iteration there is one of both: `Exec.conditionNext_cases`.
* `Exec.conditionIterations_went` — the iterations, by induction on how many may still come.
* `Turn.Settled.goesOn_iff`, `Turn.Settled.judged` — when there is one more iteration, and what the
  last one means for the step.
* `Step.run_condition` — all of this for the run of a step.
-/

namespace Scenario

variable {ρ σ : Type} {w : World ρ σ} {l : Loop ρ σ} {f g : Frame ρ σ}

/-! ### The predicate -/

/-- Evaluating a predicate leaves lines in the trace and nothing else, whatever comes of it. -/
theorem Exec.evaluate_still (w : World ρ σ) (condition : Condition) :
    (Exec.evaluate w condition).Moves (Frame.Still w) := by
  have hactual : (Exec.actualValue w condition.value).Moves (Frame.Still w) := by
    refine .still (.resolveValue _) fun found => ?_
    cases found with
    | string s =>
      dsimp only
      split
      · exact .valueOf _
      · exact fun f => .rfl
    | _ => exact fun f => .rfl
  refine .still hactual fun actual => .still (.resolveValue _) fun expected => ?_
  exact .still (.ofExcept _) fun holds => .still (fun f => .log _) fun _ f => .rfl

theorem Exec.tryCatch_eq_ok {α : Type} {m : Exec ρ σ α} {k : Stop → Exec ρ σ α} {a : α}
    (h : m f = .ok a g) : (tryCatch m k) f = .ok a g := by
  change EStateM.tryCatch m k f = _
  unfold EStateM.tryCatch
  rw [h]

theorem Exec.tryCatch_eq_error {α : Type} {m : Exec ρ σ α} {k : Stop → Exec ρ σ α} {stop : Stop}
    (h : m f = .error stop g) : (tryCatch m k) f = k stop g := by
  change EStateM.tryCatch m k f = _
  unfold EStateM.tryCatch
  rw [h]
  rfl

/-- **After an iteration** the predicate holds or not, or it cannot be evaluated. -/
theorem Exec.stillHolds_eq (w : World ρ σ) (condition : Condition) (i : Nat) (f : Frame ρ σ) :
    match f.state.context.decides condition with
    | .ok holds => ∃ g, f.Still w g ∧ Exec.evaluate w condition f = .ok holds g ∧
        Exec.stillHolds w condition i f = .ok holds g
    | .error fault => ∃ g, f.Still w g ∧ Exec.stillHolds w condition i f =
        .error (.fault (.execution (.predicateFailed i fault.message))) g := by
  have hanswer := Exec.Answers.evaluate (w := w) (f := f) condition
  have hstill := Exec.evaluate_still w condition f
  unfold Exec.Answers at hanswer
  unfold Exec.stillHolds
  cases hx : Exec.evaluate w condition f with
  | ok holds g =>
    rw [hx] at hanswer hstill
    rw [hanswer.1]
    exact ⟨g, hstill, rfl, Exec.tryCatch_eq_ok hx⟩
  | error stop g =>
    rw [hx] at hanswer hstill
    cases stop with
    -- evaluating a predicate does not crash
    | crash c => exact hanswer.elim
    | fault fault =>
      dsimp only at hanswer
      rw [hanswer]
      exact ⟨_, hstill.still (.log _), Exec.tryCatch_eq_error hx⟩

/-! ### The time -/

/-- **The time of a loop is up** that started at an instant. -/
def World.TimeUp (w : World ρ σ) (timeout : Binary64) (started : Instant) (outside : ρ) : Prop :=
  Binary64.lt (.zero false) timeout = true ∧
    timeout.le (secondsBetween started (w.now outside)) = true

instance (w : World ρ σ) (timeout : Binary64) (started : Instant) (outside : ρ) :
    Decidable (w.TimeUp timeout started outside) :=
  inferInstanceAs (Decidable (_ ∧ _))

theorem Exec.timeIsUp_eq (w : World ρ σ) (timeout : Binary64) (started : Instant) (f : Frame ρ σ) :
    Exec.timeIsUp w timeout started f =
      .ok (decide (w.TimeUp timeout started f.state.outside)) f := by
  unfold Exec.timeIsUp World.TimeUp
  split
  · next hpositive =>
    simp only [hpositive, true_and, Bool.decide_eq_true]
    rfl
  · next hpositive =>
    simp only [hpositive]
    rfl

/-! ### The iterations -/

/-- The frame in which iteration `i` is entered. -/
def Frame.announced (w : World ρ σ) (i : Nat) (f : Frame ρ σ) : Frame ρ σ :=
  f.mapState (RunState.log w ("condition loop: iteration " ++ toString i))

section

variable {condition : Condition} {timeout : Binary64} {started : Instant}

/-- **From one iteration to the next:** the predicate is evaluated once and holds, there is a pause,
and then the time is not up. -/
structure Loop.Renews (w : World ρ σ) (l : Loop ρ σ) (condition : Condition) (timeout : Binary64)
    (started : Instant) (i : Nat) (f g : Frame ρ σ) : Prop where
  below : i < conditionLoopCeiling
  onward : f.Onward w l.rest [] g
  held : ∃ h h', Exec.evaluate w condition f = .ok true h ∧ Exec.pause w l h = .ok () h' ∧
    ¬ w.TimeUp timeout started h'.state.outside ∧ g = h'.announced w (i + 1)

/-- **How the iterations end** after turn `t`, if the loop goes on after it: the predicate does not
hold, or cannot be evaluated, or the time is up after the pause, or there were too many. -/
inductive Exec.Lapses (w : World ρ σ) (l : Loop ρ σ) (condition : Condition) (timeout : Binary64)
    (started : Instant) (t : Turn ρ σ) (executed : Nat) (tally : Tally) :
    EStateM.Result Stop (Frame ρ σ) Tally → Prop
  | fails {g : Frame ρ σ} : t.stop.state.context.decides condition = .ok false →
    t.stop.Still w g → Lapses w l condition timeout started t executed tally (.ok tally g)
  | undecided {g : Frame ρ σ} {fault : Fault} :
    t.stop.state.context.decides condition = .error fault → t.stop.Still w g →
    Lapses w l condition timeout started t executed tally
      (.error (.fault (.execution (.predicateFailed executed fault.message))) g)
  | timeUp {g : Frame ρ σ} : t.stop.state.context.decides condition = .ok true →
    t.stop.Onward w l.rest [] g → w.TimeUp timeout started g.state.outside →
    Lapses w l condition timeout started t executed tally (.ok tally g)
  | ceiling {g : Frame ρ σ} : t.stop.state.context.decides condition = .ok true →
    t.stop.Onward w l.rest [] g → ¬ w.TimeUp timeout started g.state.outside →
    executed = conditionLoopCeiling → Lapses w l condition timeout started t executed tally
      (.error (.fault (.safetyLimit conditionLoopCeiling executed)) g)

/-- The rest of a loop whose time is up. -/
theorem Exec.conditionIterations_timeUp (l : Loop ρ σ) (condition : Condition) (left done : Nat)
    (tally : Tally)
    (h : w.TimeUp timeout started f.state.outside) : ∃ g, f.Still w g ∧
      Exec.conditionIterations w l condition timeout started left done tally f = .ok tally g := by
  rw [Exec.conditionIterations.eq_def]
  dsimp only
  rw [Exec.bind_eq_ok (Exec.timeIsUp_eq w timeout started f)]
  simp only [h, decide_true, if_true]
  exact ⟨_, .log _, rfl⟩

/-- The rest of a loop that has run too often. -/
theorem Exec.conditionIterations_zero (done : Nat) (tally : Tally)
    (h : ¬ w.TimeUp timeout started f.state.outside) :
    Exec.conditionIterations w l condition timeout started 0 done tally f =
      .error (.fault (.safetyLimit conditionLoopCeiling done)) f := by
  rw [Exec.conditionIterations, Exec.bind_eq_ok (Exec.timeIsUp_eq w timeout started f)]
  simp only [h, decide_false, Bool.false_eq_true, if_false]
  rfl

/-- The rest of a loop that comes after an iteration. -/
def Exec.conditionNext (w : World ρ σ) (l : Loop ρ σ) (condition : Condition) (timeout : Binary64)
    (started : Instant) (left done : Nat) (tally : Tally) : Exec ρ σ Tally := do
  if ← Exec.stillHolds w condition done then
    Exec.pause w l
    Exec.conditionIterations w l condition timeout started left done tally
  else
    Exec.log w "condition loop: condition no longer holds"
    pure tally

theorem Exec.conditionIterations_succ (left done : Nat) (tally : Tally)
    (h : ¬ w.TimeUp timeout started f.state.outside) :
    Exec.conditionIterations w l condition timeout started (left + 1) done tally f =
      (Exec.iterate w l (done + 1) tally >>= fun tally =>
        if tally.brokenAt.isSome then pure tally
        else Exec.conditionNext w l condition timeout started left (done + 1) tally)
          (f.announced w (done + 1)) := by
  rw [Exec.conditionIterations, Exec.bind_eq_ok (Exec.timeIsUp_eq w timeout started f)]
  simp only [h, decide_false, Bool.false_eq_true, if_false]
  rfl

/-- **After an iteration** the loop either lapses, or it is renewed and there is one more. -/
theorem Exec.conditionNext_cases (condition : Condition) (timeout : Binary64) (started : Instant)
    (tally : Tally) {t : Turn ρ σ} {left done : Nat} (hdone : done + left = conditionLoopCeiling)
    (hwait : RunState.waitFlaw? t.stop.state.context.settings.waitLimit l.interval = none) :
    Exec.Lapses w l condition timeout started t done tally
        (Exec.conditionNext w l condition timeout started left done tally t.stop) ∨
      ∃ rest g, left = rest + 1 ∧ t.stop.Onward w l.rest [] g ∧
        ¬ w.TimeUp timeout started g.state.outside ∧
        Loop.Renews w l condition timeout started done t.stop (g.announced w (done + 1)) ∧
        Exec.conditionNext w l condition timeout started left done tally t.stop =
          Exec.conditionIterations w l condition timeout started left done tally g := by
  have hholds := Exec.stillHolds_eq w condition done t.stop
  unfold Exec.conditionNext
  cases hdecides : t.stop.state.context.decides condition with
  | error fault =>
    rw [hdecides] at hholds
    obtain ⟨h, hstill, hx⟩ := hholds
    rw [Exec.bind_eq_error hx]
    exact .inl (.undecided hdecides hstill)
  | ok holds =>
    rw [hdecides] at hholds
    obtain ⟨h, hstill, hevaluate, hx⟩ := hholds
    rw [Exec.bind_eq_ok hx]
    cases holds with
    | false => exact .inl (.fails hdecides (hstill.still (.log _)))
    -- the pause comes before the time and the ceiling are looked at
    | true =>
      obtain ⟨g, hpause, honward⟩ := Exec.pause_onward (w := w) (l := l) (f := h)
        (by rwa [hstill.settings])
      have honward := hstill.onward honward
      rw [if_pos rfl, Exec.bind_eq_ok hpause]
      by_cases hup : w.TimeUp timeout started g.state.outside
      · obtain ⟨g', hend, hrest⟩ := Exec.conditionIterations_timeUp l condition left done
          tally hup
        rw [hrest]
        refine .inl (.timeUp hdecides (honward.still hend) ?_)
        rwa [show g'.state.outside = g.state.outside from hend.outside]
      · cases left with
        | zero =>
          rw [Exec.conditionIterations_zero done tally hup]
          exact .inl (.ceiling hdecides honward hup hdone)
        | succ rest =>
          exact .inr ⟨rest, g, rfl, honward, hup,
            ⟨by omega, honward.still (.log _), h, g, hevaluate, hpause, hup, rfl⟩, rfl⟩

/-- **The iterations of a loop that goes on while a predicate holds,** by induction on how many may
still come after the next one. -/
theorem Exec.conditionIterations_went {steps : List Step}
    (hl : l.children = Ready.ordered (runnable w steps)) {left done : Nat} {tally : Tally}
    (htally : tally.brokenAt = none) (hdone : done + (left + 1) = conditionLoopCeiling)
    (hwait : RunState.waitFlaw? f.state.context.settings.waitLimit l.interval = none)
    (hup : ¬ w.TimeUp timeout started f.state.outside)
    {x : EStateM.Result Stop (Frame ρ σ) Tally}
    (hx : Exec.conditionIterations w l condition timeout started (left + 1) done tally f = x) :
    l.Went w (l.Renews w condition timeout started) (done + 1) (f.announced w (done + 1))
      (fun turns => ∃ t, turns.getLast? = some t ∧ Exec.Lapses w l condition timeout started t
        (done + turns.length) (tally.after (done + 1) turns) x) x := by
  induction left using Nat.strongRecOn generalizing done tally f with
  | ind left ih =>
    rw [Exec.conditionIterations_succ left done tally hup] at hx
    have hentry : (f.announced w (done + 1)).state.context.settings =
        f.state.context.settings := rfl
    generalize f.announced w (done + 1) = entry at hx hentry ⊢
    obtain ⟨hgo, hcut⟩ := Exec.iterate_then (w := w) (l := l) (i := done + 1) (f := entry) htally
      fun tally => Exec.conditionNext w l condition timeout started left (done + 1) tally
    by_cases hgoes : l.strategy.GoesOn (l.turn w (done + 1) entry).outcome
    · rw [hgo hgoes] at hx
      have hsettings := (Loop.turn_settings (w := w) (i := done + 1) (f := entry) hl).trans hentry
      obtain hlapses | ⟨rest, g, rfl, honward, hup', hrenews, hnext⟩ :=
        Exec.conditionNext_cases condition timeout started
          (tally.after (done + 1) [l.turn w (done + 1) entry]) (l := l) (w := w)
          (t := l.turn w (done + 1) entry) (show done + 1 + left = _ by omega) (by rwa [hsettings])
      -- this turn is the last one
      · rw [hx] at hlapses
        exact .through .one (by simpa using hgoes) ⟨_, rfl, hlapses⟩
      -- what comes after this turn is a loop that has one iteration less
      · rw [hnext] at hx
        refine .cons hgoes hrenews (ih rest (Nat.lt_succ_self rest) (by simpa using htally)
          (by omega) (by rwa [honward.settings, hsettings]) hup' hx) ?_
        rintro turns ⟨t, hlast, hlapses⟩
        refine ⟨t, by simp [List.getLast?_cons, hlast], ?_⟩
        rw [List.length_cons, show done + (turns.length + 1) = done + 1 + turns.length by omega]
        exact hlapses
    · exact .last hgoes (hx ▸ hcut hgoes)

/-- **The loop of a loop step** with a predicate and a time limit that are good. -/
theorem Exec.conditionLoop_eq (hcondition : Condition.ofField l.step.conditions = .ok condition)
    (htimeout : l.step.loopTimeout.getD (.zero false) = timeout)
    (hfinite : timeout.isFinite = true) (hnegative : timeout.lt (.zero false) = false) :
    Exec.conditionLoop w l f = Exec.conditionIterations w l condition timeout
      (w.now f.state.outside) conditionLoopCeiling 0 {} f := by
  have hok : (Exec.ofExcept (Condition.ofField l.step.conditions) : Exec ρ σ Condition) f =
      .ok condition f := by
    rw [hcondition]
    rfl
  unfold Exec.conditionLoop
  rw [Exec.bind_eq_ok hok, htimeout]
  simp only [hfinite, hnegative, Bool.not_true, Bool.or_self, Bool.false_eq_true, if_false]
  rfl

/-- What a loop makes of its last turn, after which it goes on. -/
theorem Exec.Lapses.told {t : Turn ρ σ} {executed : Nat} {tally : Tally}
    {x : EStateM.Result Stop (Frame ρ σ) Tally}
    (h : Exec.Lapses w l condition timeout started t executed tally x) :
    (t.stop.state.context.decides condition = .ok false → Exec.verdict x = tally.verdict) ∧
    (∀ fault, t.stop.state.context.decides condition = .error fault →
      Exec.verdict x = .faulted (.execution (.predicateFailed executed fault.message))) ∧
    (t.stop.state.context.decides condition = .ok true →
      (w.TimeUp timeout started (w.rested l.rest t.stop.state.outside) →
        Exec.verdict x = tally.verdict) ∧
      (¬ w.TimeUp timeout started (w.rested l.rest t.stop.state.outside) →
        executed = conditionLoopCeiling ∧
        Exec.verdict x = .faulted (.safetyLimit conditionLoopCeiling conditionLoopCeiling))) := by
  cases h with
  | fails hdecides => simp [hdecides, Exec.verdict]
  | undecided hdecides =>
    simp [hdecides, Exec.verdict, Ending.ofStop]
  | timeUp hdecides honward hup =>
    rw [honward.outside] at hup
    simp [hdecides, hup, Exec.verdict]
  | ceiling hdecides honward hup hexecuted =>
    rw [honward.outside] at hup
    simp [hdecides, hup, hexecuted, Exec.verdict, Ending.ofStop]

theorem Exec.Lapses.ne_crashed {t : Turn ρ σ} {executed : Nat} {turns : List (Turn ρ σ)}
    {x : EStateM.Result Stop (Frame ρ σ) Tally} (h : Exec.Lapses w l condition timeout started t
      executed (Tally.after {} 1 turns) x) : Exec.verdict x ≠ .crashed := by
  cases h with
  | fails => exact Tally.after_verdict_ne_crashed turns
  | timeUp => exact Tally.after_verdict_ne_crashed turns
  | undecided => simp [Exec.verdict, Ending.ofStop]
  | ceiling => simp [Exec.verdict, Ending.ofStop]

theorem Exec.Lapses.result {t : Turn ρ σ} {executed : Nat} {tally : Tally}
    {x : EStateM.Result Stop (Frame ρ σ) Tally}
    (h : Exec.Lapses w l condition timeout started t executed tally x) :
    (endState x).result = t.stop.result := by
  cases h with
  | fails _ hstill => exact hstill.result
  | undecided _ hstill => exact hstill.result
  | timeUp _ honward _ => exact honward.result
  | ceiling _ honward _ _ => exact honward.result

end

/-! ### What is made of the turns -/

/-- A loop that goes on after all its turns has come to one of its ends after the last one. -/
def Exec.Lapsed (w : World ρ σ) (l : Loop ρ σ) (condition : Condition) (timeout : Binary64)
    (started : Instant) (turns : List (Turn ρ σ)) (ending : Ending) : Prop :=
  ∃ t x, turns.getLast? = some t ∧ ending = Exec.verdict x ∧
    Exec.Lapses w l condition timeout started t turns.length (Tally.after {} 1 turns) x

/-- The time of a loop is up after the pause that comes after a turn. -/
def Turn.Late (w : World ρ σ) (l : Loop ρ σ) (timeout : Binary64) (started : Instant)
    (t : Turn ρ σ) : Prop :=
  w.TimeUp timeout started (w.rested l.rest t.stop.state.outside)

/-- A loop that lapses after its last turn leaves the result to this turn, and does not crash. -/
theorem Exec.Lapses.lapsed {condition : Condition} {timeout : Binary64} {started : Instant}
    {turns : List (Turn ρ σ)} {t : Turn ρ σ} {x : EStateM.Result Stop (Frame ρ σ) Tally}
    (hlapses : Exec.Lapses w l condition timeout started t turns.length (Tally.after {} 1 turns) x)
    (hlast : turns.getLast? = some t) (entry : Frame ρ σ) :
    (endState x).result = (Turn.last entry turns).result ∧
      Exec.Lapsed w l condition timeout started turns (Exec.verdict x) ∧
      Exec.verdict x ≠ .crashed :=
  ⟨by simpa [Turn.last, hlast] using hlapses.result, ⟨t, x, hlast, rfl, hlapses⟩,
    hlapses.ne_crashed⟩

/-- A loop that is settled by its last turn has had one. -/
theorem Turn.Settled.ne_nil {strategy : LoopStrategy} {condition : Condition} {timeout : Binary64}
    {started : Instant} {turns : List (Turn ρ σ)} {ending : Ending}
    (h : Turn.Settled strategy turns
      (fun _ => Exec.Lapsed w l condition timeout started turns) g ending) : turns ≠ [] := by
  rintro rfl
  cases h with
  | cut hlast => cases hlast
  | through _ hlapsed =>
    obtain ⟨t, x, hlast, -⟩ := hlapsed
    cases hlast

/-- **The result of a loop step** whose last turn is `t`. -/
structure Turn.Judged (w : World ρ σ) (l : Loop ρ σ) (condition : Condition) (timeout : Binary64)
    (started : Instant) (turns : List (Turn ρ σ)) (t : Turn ρ σ) (r : StepResult) : Prop where
  /-- A turn that broke or aborted the loop decides how it ends. -/
  cut : ¬ l.strategy.GoesOn t.outcome → r.success = false ∧
    r.aborted = (l.strategy.endsAt turns.length t.outcome).aborts ∧
    r.error = (l.strategy.endsAt turns.length t.outcome).fault?.map Fault.message
  /-- A predicate that does not hold ends the loop, which passes unless an iteration failed. -/
  fails : l.strategy.GoesOn t.outcome → t.stop.state.context.decides condition = .ok false →
    r.aborted = false ∧ (r.success = true ↔ ∀ u ∈ turns, u.outcome ≠ some .failed)
  /-- A predicate that cannot be evaluated fails the step, and does not abort it. -/
  undecided : ∀ fault, l.strategy.GoesOn t.outcome →
    t.stop.state.context.decides condition = .error fault →
    r.success = false ∧ r.aborted = false ∧ r.error =
      some (Fault.execution (.predicateFailed turns.length fault.message)).message
  /-- The end of the time is like a predicate that does not hold. -/
  late : l.strategy.GoesOn t.outcome → t.stop.state.context.decides condition = .ok true →
    t.Late w l timeout started →
    r.aborted = false ∧ (r.success = true ↔ ∀ u ∈ turns, u.outcome ≠ some .failed)
  /-- There is no other end but the ceiling. -/
  ceiling : l.strategy.GoesOn t.outcome → t.stop.state.context.decides condition = .ok true →
    ¬ t.Late w l timeout started → turns.length = 1000 ∧ r.success = false ∧
      r.aborted = false ∧ r.error = some (Fault.safetyLimit 1000 1000).message

section

variable {condition : Condition} {timeout : Binary64} {started : Instant}
variable {turns : List (Turn ρ σ)} {ending : Ending}

/-- **One more iteration.** It is there if and only if the loop goes on, the predicate holds, the
time is not up and there were not too many. -/
theorem Turn.Settled.goesOn_iff {entry : Frame ρ σ}
    (hturns : l.Turns w (l.Renews w condition timeout started) 1 entry turns)
    (h : Turn.Settled l.strategy turns
      (fun _ => Exec.Lapsed w l condition timeout started turns) g ending)
    {k : Nat} {t : Turn ρ σ} (hk : turns[k]? = some t) :
    k + 1 < turns.length ↔ k + 1 < conditionLoopCeiling ∧ l.strategy.GoesOn t.outcome ∧
      t.stop.state.context.decides condition = .ok true ∧ ¬ t.Late w l timeout started := by
  constructor
  · intro hmore
    obtain ⟨hgoes, hbelow, honward, h, h', hevaluate, hpause, hup, hentry⟩ :=
      hturns.next k t _ hk (List.getElem?_eq_getElem hmore)
    have hdecides : t.stop.state.context.decides condition = .ok true := by
      have hanswer := Exec.Answers.evaluate (w := w) (f := t.stop) condition
      unfold Exec.Answers at hanswer
      rw [hevaluate] at hanswer
      exact hanswer.1
    refine ⟨by omega, hgoes, hdecides, ?_⟩
    -- the world around is the one after the pause
    rwa [Turn.Late, ← honward.outside, hentry]
  · rintro ⟨hbelow, hgoes, hdecides, hlate⟩
    obtain ⟨hlength, -⟩ := List.getElem?_eq_some_iff.mp hk
    by_contra hmore
    have hlast : turns.getLast? = some t := by
      rw [List.getLast?_eq_getElem?, show turns.length - 1 = k by omega, hk]
    cases h with
    | cut hlast' hcut =>
      cases hlast.symm.trans hlast'
      exact hcut hgoes
    | through _ hspent =>
      obtain ⟨t', x, hlast', -, hlapses⟩ := hspent
      cases hlast.symm.trans hlast'
      have hceiling := ((hlapses.told.2.2 hdecides).2 hlate).1
      omega

/-- **The verdict on a loop that goes on while a predicate holds.** -/
theorem Turn.Settled.judged {s s' : RunState ρ σ} {r : StepResult}
    (h : Turn.Settled l.strategy turns
      (fun _ => Exec.Lapsed w l condition timeout started turns) g ending)
    (hleft : Left s g ending r s') {t : Turn ρ σ} (hlast : turns.getLast? = some t) :
    Turn.Judged w l condition timeout started turns t r := by
  have hsuccess : ending ≠ .finished → r.success = false := fun hended =>
    Bool.eq_false_iff.mpr fun hr => hended (hleft.success.mp hr)
  cases h with
  | cut hlast' hcut =>
    cases hlast.symm.trans hlast'
    exact {
      cut := fun _ => ⟨hsuccess (LoopStrategy.endsAt_ne_finished hcut), hleft.aborted, hleft.error⟩
      fails := fun hgoes => absurd hgoes hcut
      undecided := fun _ hgoes => absurd hgoes hcut
      late := fun hgoes => absurd hgoes hcut
      ceiling := fun hgoes => absurd hgoes hcut }
  | through hall hspent =>
    obtain ⟨t', x, hlast', rfl, hlapses⟩ := hspent
    cases hlast.symm.trans hlast'
    obtain ⟨hfails, hundecided, hholds⟩ := hlapses.told
    -- the tally is what decides when the loop has come to an end in good order
    have htally : Exec.verdict x = (Tally.after {} 1 turns).verdict →
        r.aborted = false ∧ (r.success = true ↔ ∀ u ∈ turns, u.outcome ≠ some .failed) := by
      intro hverdict
      rw [hleft.aborted, hleft.success, hverdict]
      obtain ⟨hfinished, hpassed⟩ | ⟨is, hfailed, u, hu, hufailed⟩ := Tally.after_verdict turns
      · rw [hfinished]
        exact ⟨rfl, iff_of_true rfl hpassed⟩
      · rw [hfailed]
        exact ⟨rfl, iff_of_false (by simp) fun hpassed => hpassed u hu hufailed⟩
    exact {
      cut := fun hcut => absurd (hall t (List.mem_of_getLast? hlast)) hcut
      fails := fun _ hdecides => htally (hfails hdecides)
      undecided := fun fault _ hdecides => by
        have hverdict := hundecided fault hdecides
        rw [hleft.aborted, hleft.error, hverdict]
        exact ⟨hsuccess (by simp [hverdict]), rfl, rfl⟩
      late := fun _ hdecides hlate => htally ((hholds hdecides).1 hlate)
      ceiling := fun _ hdecides hlate => by
        obtain ⟨hlength, hverdict⟩ := (hholds hdecides).2 hlate
        rw [hleft.aborted, hleft.error, hverdict]
        exact ⟨hlength, hsuccess (by simp [hverdict]), rfl, rfl⟩ }

end

/-! ### The step -/

section

variable {step : Step} {s : RunState ρ σ} {strategy : LoopStrategy} {interval : Binary64}
variable {condition : Condition} {timeout : Binary64}

/-- **Loops that go on while a predicate holds.** The first iteration runs unless the time is up
before it. After an iteration there is one more if and only if there were less than a thousand, it
neither broke nor aborted the loop, the predicate holds of the variables as they are then, and the
time is not up after the pause. If there is none, the last iteration tells how the step ends. -/
theorem Step.run_condition (h : step.Loops s.context.settings .condition strategy interval)
    (hcondition : Condition.ofField step.conditions = .ok condition)
    (htimeout : step.loopTimeout.getD (.zero false) = timeout)
    (hfinite : timeout.isFinite = true) (hnegative : timeout.lt (.zero false) = false) :
    ∃ entry turns, (s.openingFrame w step.toStepFields).Still w entry ∧
      (step.asLoop w strategy interval).Turns w
        ((step.asLoop w strategy interval).Renews w condition timeout (w.now s.outside))
        1 entry turns ∧
      (turns = [] ↔ w.TimeUp timeout (w.now s.outside) s.outside) ∧
      (∀ k t, turns[k]? = some t → (k + 1 < turns.length ↔ k + 1 < 1000 ∧
        strategy.GoesOn t.outcome ∧ t.stop.state.context.decides condition = .ok true ∧
        ¬ t.Late w (step.asLoop w strategy interval) timeout (w.now s.outside))) ∧
      Turn.Told turns (step.run w s) ∧
      ∀ r s', step.run w s = .ok r s' → (turns = [] → r.success = true) ∧
        ∀ t, turns.getLast? = some t → Turn.Judged w (step.asLoop w strategy interval) condition
          timeout (w.now s.outside) turns t r := by
  have hopening : (s.openingFrame w step.toStepFields).Still w
      (step.loopFrame w s .condition strategy) := .note _
  have houtside : (step.loopFrame w s .condition strategy).state.outside = s.outside :=
    s.openingFrame_outside w step.toStepFields
  have hloop := Exec.conditionLoop_eq (w := w) (l := step.asLoop w strategy interval)
    (f := step.loopFrame w s .condition strategy) hcondition htimeout hfinite hnegative
  rw [houtside] at hloop
  by_cases hup : w.TimeUp timeout (w.now s.outside) s.outside
  · -- there is no iteration at all
    obtain ⟨entry, hstill, hnone⟩ := Exec.conditionIterations_timeUp
      (f := step.loopFrame w s .condition strategy) (step.asLoop w strategy interval) condition
      conditionLoopCeiling 0 {} (by rwa [houtside])
    obtain ⟨r, s', hrun, hleft, hchildren, -⟩ :=
      Step.ran_none h (hloop.trans hnone) hstill nofun
    refine ⟨entry, [], hopening.still hstill, .nil, by simpa using hup, by simp, ?_, ?_⟩
    · rw [hrun]
      exact ⟨by simp, by simp, hchildren⟩
    · intro r' s'' hrun'
      cases hrun.symm.trans hrun'
      exact ⟨fun _ => hleft.success.mpr rfl, by simp⟩
  · generalize hx : Exec.conditionIterations w (step.asLoop w strategy interval) condition timeout
      (w.now s.outside) conditionLoopCeiling 0 {} (step.loopFrame w s .condition strategy) = x
      at hloop
    have hl := step.asLoop_children w strategy interval
    have hwent := Exec.conditionIterations_went hl rfl rfl (h.wait hopening) (by rwa [houtside])
      (show Exec.conditionIterations w _ condition timeout (w.now s.outside) (999 + 1) 0 {} _ = x
        from hx)
    simp only [Nat.zero_add] at hwent
    have hentry : ((step.loopFrame w s .condition strategy).announced w 1).result =
        (step.loopFrame w s .condition strategy).result := rfl
    obtain ⟨turns, g, ending, hturns, hsettled, hran, htold⟩ := Step.ran_turns h
      (fun hlink => Loop.Renews.onward hlink |>.result) hentry hloop hwent
      (fun turns _ => Exec.Lapsed w (step.asLoop w strategy interval) condition timeout
        (w.now s.outside) turns) fun _ ⟨_, hlast, hlapses⟩ => hlapses.lapsed hlast _
    -- the loop has come to an end after a turn, in whatever way
    have hsome : turns ≠ [] := hsettled.ne_nil
    refine ⟨_, turns, hopening.still (.log _), hturns, iff_of_false hsome hup,
      fun k t hk => hsettled.goesOn_iff hturns hk, htold, fun r s' hrun => ?_⟩
    rw [hrun] at hran
    exact ⟨fun hnone => absurd hnone hsome, fun t hlast => hsettled.judged hran.2 hlast⟩

end

/-- A predicate of a text that is too short. -/
def Condition.short : Condition where
  value := .string "$\x7bv_1\x7d"
  operation := "ne"
  expected := .string "xxx"

/-- A loop whose iterations make the text longer. -/
def Step.growing : Step :=
  ⟨{ kind := some "loop", loopMode := some "condition", loopOnError := some "stop"
     conditions := some (.object [("except_value", .string "xxx"), ("operation", .string "ne"),
       ("value", .string "$\x7bv_1\x7d")]) },
    [⟨{ kind := some "loop", loopMode := some "iterable", loopOnError := some "stop"
        loopValueName := some "v", loopIterable := some (.array [.string "$\x7bv_1\x7dx"]) },
      [⟨{ kind := some "group" }, []⟩]⟩]⟩

/-- It runs three iterations. The predicate holds after the first two, and not after the third one.
-/
theorem Step.run_condition_growing :
    Step.growing.Loops ({} : Context).settings .condition .stop (.zero false) ∧
    Condition.ofField Step.growing.conditions = .ok Condition.short ∧
    Step.growing.loopTimeout.getD (.zero false) = .zero false ∧
    (Binary64.zero false).isFinite = true ∧ (Binary64.zero false).lt (.zero false) = false ∧
    ∃ r s', ∃ turns : List (Turn Site Store), Step.growing.run (Site.world [])
        ⟨{ session := [("v_1", .string "")] }, {}, {}⟩ = .ok r s' ∧
      r.success = true ∧ r.children = turns.flatMap Turn.results ∧ turns.length = 3 ∧
      ∀ (k : Nat) (t : Turn Site Store), turns[k]? = some t →
        t.stop.state.context.decides Condition.short = .ok (decide (k + 1 < 3)) := by
  have hseen : Step.growing.seen (fun r _ => (r.iteration, r.success)) (Site.world [])
      ⟨{ session := [("v_1", .string "")] }, {}, {}⟩ = some (3, true) := by
    decide +kernel
  have hloops : Step.growing.Loops ({} : Context).settings .condition .stop (.zero false) := by
    refine ⟨rfl, rfl, rfl, ?_⟩
    unfold Exec.loopInterval
    exact if_pos (by decide +kernel)
  have hcondition : Condition.ofField Step.growing.conditions = .ok Condition.short := rfl
  have htimeout : Step.growing.loopTimeout.getD (.zero false) = .zero false := rfl
  have hlimit : (Binary64.zero false).lt (.zero false) = false := by decide +kernel
  have hrun_condition := Step.run_condition (w := Site.world [])
    (s := ⟨{ session := [("v_1", .string "")] }, {}, {}⟩) hloops hcondition htimeout rfl hlimit
  obtain ⟨r, s', hrun, hlook⟩ := Step.run_of_seen hseen
  obtain ⟨hiteration, hsuccess⟩ := Prod.mk.inj hlook
  rw [hrun] at hrun_condition
  obtain ⟨entry, turns, -, -, hnone, hmore, ⟨-, hnumber, hchildren⟩, hverdict⟩ := hrun_condition
  -- without a time limit the time is never up
  have htime : ∀ started outside,
      ¬ (Site.world []).TimeUp (.zero false) started outside :=
    fun _ _ hup => Bool.false_ne_true (hlimit.symm.trans hup.1)
  have hsome : turns ≠ [] := fun h => htime _ _ (hnone.mp h)
  have hlength : turns.length = 3 := (hnumber hsome).symm.trans hiteration
  refine ⟨hloops, hcondition, htimeout, rfl, hlimit, r, s', turns, hrun, hsuccess, hchildren,
    hlength, fun k t hk => ?_⟩
  by_cases hlast : k + 1 < 3
  · rw [decide_eq_true hlast]
    exact ((hmore k t hk).mp (hlength ▸ hlast)).2.2.1
  · have hend : turns.getLast? = some t := by
      obtain ⟨hk', -⟩ := List.getElem?_eq_some_iff.mp hk
      rw [List.getLast?_eq_getElem?, show turns.length - 1 = k by omega, hk]
    have hjudged := (hverdict r s' rfl).2 t hend
    -- the step has passed, which leaves one end of all
    have hpassed : ¬ r.success = false := by simp [hsuccess]
    have hgoes := Classical.not_not.mp fun hcut => hpassed (hjudged.cut hcut).1
    rw [decide_eq_false hlast]
    cases hdecides : t.stop.state.context.decides Condition.short with
    | error fault => exact absurd (hjudged.undecided fault hgoes hdecides).1 hpassed
    | ok holds =>
      cases holds with
      | false => rfl
      | true => exact absurd (hjudged.ceiling hgoes hdecides (htime _ _)).2.1 hpassed

end Scenario
