import Scenario.Proofs.Completeness
import Scenario.Proofs.Turns

/-!
# Loops that count

A loop that counts runs as many iterations as it is asked for, up to a ceiling. What it is asked for
is known before the first iteration; if it is no number, there is none.

* `Json.Value.Asks` — the values that ask for a number of iterations. `Exec.countOf_eq_ok_iff` —
  these are the ones that the loop accepts.
* `Exec.countIterations_went` — the iterations, by induction on how many may still come. The pause
  belongs to the step from one iteration to the next, so the last one has none.
* `Turn.Settled.counted` — when the loop fails because of the ceiling, and when it passes.
* `Step.run_count` — all of this for the run of a step.
-/

namespace Scenario

variable {ρ σ : Type} {w : World ρ σ} {l : Loop ρ σ} {f : Frame ρ σ}

/-- **A value asks for a number of iterations:** it is a positive integer, or a text that is one of
64 bits, up to blanks around it. -/
inductive Json.Value.Asks : Json.Value → Nat → Prop
  | number {n : Nat} : 0 < n → Asks (.number (.integer n)) n
  | text {s : String} {n : Nat} : Text.natural? (Text.trimList s.toList) = some n → 0 < n →
    Asks (.string s) n

theorem Json.Value.Asks.pos {v : Json.Value} {n : Nat} (h : v.Asks n) : 0 < n := by
  cases h <;> assumption

theorem Exec.countOf_eq_ok_iff {v : Json.Value} {n : Nat} :
    Exec.countOf v = .ok n ↔ v.Asks n := by
  constructor
  · intro h
    unfold Exec.countOf at h
    dsimp only at h
    split at h
    · -- only a positive number passes the filter
      next m hm =>
      obtain rfl : m = n := Except.ok.inj h
      obtain ⟨hfound, hpos⟩ := Option.filter_eq_some_iff.mp hm
      have hpos : 0 < m := of_decide_eq_true hpos
      cases v with
      | number number =>
        cases number with
        | integer k =>
          simp only [Json.Number.toNat?, Option.ite_none_right_eq_some, Option.some.injEq] at hfound
          obtain ⟨hk, rfl⟩ := hfound
          have hnumber := Json.Value.Asks.number hpos
          rwa [Int.toNat_of_nonneg hk] at hnumber
        | float x => cases hfound
      | string s => exact .text hfound hpos
      | _ => cases hfound
    · cases h
  · rintro (⟨hpos⟩ | ⟨htext, hpos⟩)
    · simp [Exec.countOf, Json.Number.toNat?, Option.filter_some_pos, hpos]
    · simp [Exec.countOf, htext, Option.filter_some_pos, hpos]

/-- There is one number at most that a value asks for. -/
theorem Json.Value.Asks.unique {v : Json.Value} {m n : Nat} (hm : v.Asks m) (hn : v.Asks n) :
    m = n := by
  have hm := Exec.countOf_eq_ok_iff.mpr hm
  rw [Exec.countOf_eq_ok_iff.mpr hn] at hm
  exact (Except.ok.inj hm).symm

/-- Whatever else is found is a misconfiguration. -/
theorem Exec.countOf_eq_error {v : Json.Value} {fault : Fault}
    (h : Exec.countOf v = .error fault) : fault = .configuration (.loopCountNotPositive v) := by
  unfold Exec.countOf at h
  dsimp only at h
  split at h <;> cases h
  rfl

/-- What a step says about the number of its iterations, as a loop finds it; nothing is null. -/
def Context.maximums (ctx : Context) (step : StepFields) : Json.Value :=
  match step.loopMaximums with
  | none => .null
  | some declared => (Placeholder.resolveValue ctx.lookup declared).out

/-- After the iterations, a loop that was asked for more than it may run is at fault. -/
def Exec.withinCeiling (total : Nat) (tally : Tally) : Exec ρ σ Tally :=
  if countLoopCeiling < total && tally.brokenAt.isNone then
    Exec.fail (.safetyLimit countLoopCeiling tally.executed)
  else pure tally

/-- **How a loop that counts begins,** with what it is asked for: the number is missing before the
first iteration, or it is known then. -/
inductive Exec.Counts (w : World ρ σ) (l : Loop ρ σ) (f : Frame ρ σ) (asked : Json.Value) :
    EStateM.Result Stop (Frame ρ σ) Tally → Prop
  | refused {g : Frame ρ σ} {cause : Misconfiguration} : (∀ n, ¬ asked.Asks n) → f.Still w g →
    Counts w l f asked (.error (.fault (.configuration cause)) g)
  | asked {g : Frame ρ σ} {n : Nat} : asked.Asks n → f.Still w g → Counts w l f asked
    ((Exec.countIterations w l n (min n countLoopCeiling) 1 {} >>= Exec.withinCeiling n) g)

theorem Exec.Counts.after {g : Frame ρ σ} {asked : Json.Value}
    {x : EStateM.Result Stop (Frame ρ σ) Tally} (h : Exec.Counts w l g asked x)
    (hfg : f.Still w g) : Exec.Counts w l f asked x := by
  cases h with
  | refused hasked hstill => exact .refused hasked (hfg.still hstill)
  | asked hasked hstill => exact .asked hasked (hfg.still hstill)

/-- What a loop that counts does with the number that it is asked for. -/
def Exec.counted (w : World ρ σ) (l : Loop ρ σ) (asked : Json.Value) : Exec ρ σ Tally := do
  let total ← Exec.ofExcept (Exec.countOf asked)
  Exec.log w ("count loop: " ++ toString total ++ " iteration(s)")
  let tally ← Exec.countIterations w l total (min total countLoopCeiling) 1 {}
  Exec.withinCeiling total tally

theorem Exec.counted_counts (w : World ρ σ) (l : Loop ρ σ) (f : Frame ρ σ) (asked : Json.Value) :
    Exec.Counts w l f asked (Exec.counted w l asked f) := by
  cases hcount : Exec.countOf asked with
  | ok n =>
    have hasked := Exec.countOf_eq_ok_iff.mp hcount
    unfold Exec.counted
    rw [hcount]
    exact .asked hasked (.log ("count loop: " ++ toString n ++ " iteration(s)"))
  | error fault =>
    have hrefused : ∀ n, ¬ asked.Asks n := fun n h => by
      rw [Exec.countOf_eq_ok_iff.mpr h] at hcount
      cases hcount
    cases Exec.countOf_eq_error hcount
    unfold Exec.counted
    rw [hcount]
    exact .refused hrefused .rfl

theorem Exec.countLoop_counts (w : World ρ σ) (l : Loop ρ σ) (f : Frame ρ σ) :
    Exec.Counts w l f (f.state.context.maximums l.step) (Exec.countLoop w l f) := by
  have hmissing : Exec.Counts w l f .null
      (.error (.fault (.configuration .loopCountMissing)) f) := .refused nofun .rfl
  unfold Exec.countLoop Context.maximums
  cases hdeclared : l.step.loopMaximums with
  | none => exact hmissing
  | some declared =>
    cases declared with
    | null =>
      -- null is resolved to null
      have hout : (Placeholder.resolveValue f.state.context.lookup .null).out = .null := by
        simp [Placeholder.resolveValue]
      dsimp only
      rw [hout]
      exact hmissing
    | _ =>
      exact (Exec.counted_counts w l _ _).after (.resolved _)

/-- **The iterations of a loop that counts.** Before each of them there is a line in the trace. -/
theorem Exec.countIterations_went {steps : List Step}
    (hl : l.children = Ready.ordered (runnable w steps)) (total : Nat) {left i last : Nat}
    {tally : Tally} (htally : tally.brokenAt = none) (hleft : 0 < left) (hi : i + left = last + 1)
    (hwait : RunState.waitFlaw? f.state.context.settings.waitLimit l.interval = none)
    {x : EStateM.Result Stop (Frame ρ σ) Tally}
    (hx : Exec.countIterations w l total left i tally f = x) :
    ∃ entry, f.Still w entry ∧ l.Went w (l.Advances w (fun _ => []) last) i entry (fun turns =>
      turns.length = left ∧ x = .ok (tally.after i turns) (Turn.last entry turns)) x := by
  induction left generalizing i tally f with
  | zero => exact absurd hleft (Nat.lt_irrefl 0)
  | succ left ih =>
    let line := "count loop: iteration " ++ toString i ++ "/" ++ toString total
    have hline : f.Still w (f.mapState (RunState.log w line)) := .log line
    refine ⟨_, hline, .pausing hl htally (by rwa [hline.settings])
      (fun tally => Exec.countIterations w l total left (i + 1) tally) hx
      (fun hlast hx => ?_) fun hmore g honward hwait hx => ?_⟩
    -- none is left
    · obtain rfl : left = 0 := Classical.not_not.mp hlast
      exact ⟨rfl, hx.symm⟩
    · -- the iterations that are left are those of a loop from the next number on
      have hpos := Nat.pos_of_ne_zero hmore
      obtain ⟨entry, hstill, hwent⟩ := ih (by simpa using htally) hpos (by omega) hwait hx
      refine ⟨entry, _, ⟨by omega, honward.still hstill⟩, hwent, ?_⟩
      rintro turns ⟨rfl, hturns⟩
      refine ⟨rfl, hturns.trans ?_⟩
      rw [Turn.last_cons, Turn.last_congr (List.length_pos_iff.mp hpos) entry]
      rfl

/-- **How a loop that counts ends after all its turns:** as these say, unless it was asked for more
than it may run. -/
inductive Exec.Counted (n : Nat) (turns : List (Turn ρ σ)) : Ending → Prop
  | within : n ≤ countLoopCeiling → turns.length = n →
    Counted n turns (Tally.after {} 1 turns).verdict
  | beyond : countLoopCeiling < n → turns.length = countLoopCeiling →
    Counted n turns (.faulted (.safetyLimit countLoopCeiling countLoopCeiling))

theorem Exec.Counted.ne_crashed {n : Nat} {turns : List (Turn ρ σ)} {ending : Ending}
    (h : Exec.Counted n turns ending) : ending ≠ .crashed := by
  cases h with
  | within => exact Tally.after_verdict_ne_crashed turns
  | beyond => simp

/-- The ceiling is looked at when the iterations have come to an end by themselves. -/
theorem Loop.Went.withinCeiling {n : Nat} {entry : Frame ρ σ}
    {link : Nat → Frame ρ σ → Frame ρ σ → Prop} {m : Exec ρ σ Tally}
    (h : l.Went w link 1 entry (fun turns => turns.length = min n countLoopCeiling ∧
      m f = .ok (Tally.after {} 1 turns) (Turn.last entry turns)) (m f)) :
    l.Went w link 1 entry (fun turns =>
      endState ((m >>= Exec.withinCeiling n) f) = Turn.last entry turns ∧
        Exec.Counted n turns (Exec.verdict ((m >>= Exec.withinCeiling n) f)))
      ((m >>= Exec.withinCeiling n) f) := by
  cases h with
  | @through turns hturns hall hdone =>
    obtain ⟨hlength, hm⟩ := hdone
    refine .through hturns hall ?_
    rw [Exec.bind_eq_ok hm, Exec.withinCeiling, Tally.after_brokenAt]
    by_cases hceiling : countLoopCeiling < n
    -- as many ran as there may be, and more were asked for
    · have hsome : turns ≠ [] := by
        rintro rfl
        rw [Nat.min_eq_right (Nat.le_of_lt hceiling)] at hlength
        exact absurd hlength (show 0 ≠ countLoopCeiling by decide)
      have hexecuted : (Tally.after {} 1 turns).executed = countLoopCeiling := by
        have hlast : (Tally.after {} 1 turns).executed + 1 = _ := Tally.after_executed hsome
        omega
      rw [hexecuted]
      simp only [hceiling, decide_true, Option.isNone_none, Bool.and_self, if_true]
      exact ⟨rfl, .beyond hceiling (by omega)⟩
    · simp only [hceiling, decide_false, Bool.false_and, Bool.false_eq_true, if_false]
      exact ⟨rfl, .within (by omega) (by omega)⟩
  -- a loop that was cut off is not looked at
  | @cut before t hturns hend hcut =>
    refine .cut before hturns hend ?_
    generalize hx : m f = x at hcut
    cases hcut with
    | broken hstrategy hfailed hbroken =>
      rw [Exec.bind_eq_ok hx, Exec.withinCeiling, hbroken]
      simp only [Option.isNone_some, Bool.and_false, Bool.false_eq_true, if_false]
      exact .broken hstrategy hfailed hbroken
    | ended hstop =>
      rw [Exec.bind_eq_error hx]
      exact .ended hstop

/-! ### The verdict -/

/-- The message of a loop that ran too often is told from others by its first letter. -/
theorem Fault.head?_safetyLimit (limit executed : Nat) :
    (Fault.safetyLimit limit executed).message.toList.head? = some 'e' :=
  String.head?_append (String.head?_append (String.head?_append (String.head?_append (by decide))))

theorem Fault.head?_loopBroken (i : Nat) :
    (Fault.execution (.loopBroken i)).message.toList.head? = some 'l' :=
  String.head?_append (String.head?_append (by decide))

theorem Fault.head?_iterationsFailed (is : List Nat) :
    (Fault.execution (.iterationsFailed is)).message.toList.head? = some 'c' :=
  String.head?_append (by decide)

theorem Fault.message_ne_safetyLimit {fault : Fault} {c : Char}
    (hhead : fault.message.toList.head? = some c) (hc : c ≠ 'e') (limit executed : Nat) :
    some fault.message ≠ some (Fault.safetyLimit limit executed).message := by
  intro h
  rw [Option.some.inj h, Fault.head?_safetyLimit] at hhead
  exact hc (Option.some.inj hhead).symm

/-- What a loop says that does not go on is not that it ran too often. -/
theorem LoopStrategy.endsAt_message {strategy : LoopStrategy} {i : Nat}
    {outcome : Option ChildrenOutcome} (limit executed : Nat) :
    (strategy.endsAt i outcome).fault?.map Fault.message ≠
      some (Fault.safetyLimit limit executed).message := by
  have haborted := fun cause => Fault.message_ne_safetyLimit (Fault.head?_aborted cause) (by decide)
    limit executed
  have hbroken := Fault.message_ne_safetyLimit (Fault.head?_loopBroken i) (by decide) limit executed
  rcases outcome with _ | _ | _ | _ <;> cases strategy <;>
    first | exact haborted _ | exact hbroken | exact (Option.some_ne_none _).symm

/-- **The verdict on a loop that counts.** It ran too often if and only if it was asked to and no
iteration cut it off; it passes if and only if it was not asked to and all iterations pass. -/
theorem Turn.Settled.counted {strategy : LoopStrategy} {n : Nat} {turns : List (Turn ρ σ)}
    {entry g : Frame ρ σ} {ending : Ending}
    (h : Turn.Settled strategy turns
      (fun g ending => g = Turn.last entry turns ∧ Exec.Counted n turns ending) g ending) :
    g = Turn.last entry turns ∧
    ((∀ t ∈ turns, strategy.GoesOn t.outcome) → turns.length = min n countLoopCeiling) ∧
    (ending.fault?.map Fault.message =
        some (Fault.safetyLimit countLoopCeiling countLoopCeiling).message ↔
      countLoopCeiling < n ∧ ∀ t ∈ turns, strategy.GoesOn t.outcome) ∧
    (ending = .finished ↔ n ≤ countLoopCeiling ∧ ∀ t ∈ turns, t.outcome = some .passed) := by
  cases h with
  -- the turn that cut it off did not pass, and left another message
  | cut hlast hgoes =>
    have hmem := List.mem_of_getLast? hlast
    exact ⟨by simp [Turn.last, hlast], fun hall => absurd (hall _ hmem) hgoes,
      iff_of_false (LoopStrategy.endsAt_message _ _) fun h => hgoes (h.2 _ hmem),
      iff_of_false (LoopStrategy.endsAt_ne_finished hgoes) fun h => hgoes (.inl (h.2 _ hmem))⟩
  | through hall hspent =>
    obtain ⟨hend, hspent⟩ := hspent
    refine ⟨hend, ?_⟩
    cases hspent with
    | beyond hn hlength =>
      refine ⟨fun _ => by omega, iff_of_true rfl ⟨hn, hall⟩, iff_of_false (by simp) fun h => ?_⟩
      exact absurd h.1 (by omega)
    -- the message on failed iterations is not the one of the ceiling
    | within hn hlength =>
      have hlimit : ¬ (countLoopCeiling < n ∧ ∀ t ∈ turns, strategy.GoesOn t.outcome) :=
        fun h => absurd h.1 (by omega)
      refine ⟨fun _ => by omega, iff_of_false ?_ hlimit, ?_⟩
      · obtain ⟨hverdict, -⟩ | ⟨is, hverdict, -⟩ := Tally.after_verdict turns <;> rw [hverdict]
        · exact (Option.some_ne_none _).symm
        · exact Fault.message_ne_safetyLimit (Fault.head?_iterationsFailed is) (by decide) _ _
      · rw [Tally.after_verdict_finished hall]
        exact ⟨fun h => ⟨hn, h⟩, And.right⟩

/-! ### The step -/

section

variable {step : Step} {s : RunState ρ σ} {strategy : LoopStrategy} {interval : Binary64}

/-- What a loop step says about the number of its iterations, as it finds it when it runs. -/
def Step.maximums (w : World ρ σ) (step : Step) (s : RunState ρ σ) : Json.Value :=
  (s.openingFrame w step.toStepFields).state.context.maximums step.toStepFields

/-- **Loops that count.** If no number of iterations is asked for, no iteration runs, and the step
is misconfigured. Otherwise as many run as are asked for and the ceiling allows, unless one of them
cuts the loop off, with a pause between each of them and the next one and none else. The step fails
because of the ceiling if and only if more were asked for and none cut it off. -/
theorem Step.run_count (h : step.Loops s.context.settings .count strategy interval) :
    ((∀ n, ¬ (step.maximums w s).Asks n) → ∃ r s' cause, step.run w s = .ok r s' ∧
      r.children = [] ∧ r.success = false ∧ r.aborted = false ∧
      r.error = some (Fault.configuration cause).message ∧
      s'.outside = s.outside ∧ s'.context.silent = s.context.silent) ∧
    ∀ n, (step.maximums w s).Asks n → ∃ entry turns,
      (s.openingFrame w step.toStepFields).Still w entry ∧
      (step.asLoop w strategy interval).Turns w
        (fun _ => Frame.Onward w (step.asLoop w strategy interval).rest []) 1 entry turns ∧
      turns ≠ [] ∧ turns.length ≤ min n 100 ∧
      ((∀ t ∈ turns, strategy.GoesOn t.outcome) → turns.length = min n 100) ∧
      Turn.Told turns (step.run w s) ∧
      ∀ r s', step.run w s = .ok r s' →
        s'.outside = (Turn.last entry turns).state.outside ∧
        (r.error = some (Fault.safetyLimit 100 100).message ↔
          100 < n ∧ ∀ t ∈ turns, strategy.GoesOn t.outcome) ∧
        (r.success = true ↔ n ≤ 100 ∧ ∀ t ∈ turns, t.outcome = some .passed) := by
  have hopening : (s.openingFrame w step.toStepFields).Still w
      (step.loopFrame w s .count strategy) := .note _
  have hcounts := Exec.countLoop_counts w (step.asLoop w strategy interval)
    (step.loopFrame w s .count strategy)
  generalize hx : Exec.countLoop w (step.asLoop w strategy interval)
    (step.loopFrame w s .count strategy) = x at hcounts
  refine ⟨fun hnone => ?_, fun n hn => ?_⟩
  · cases hcounts with
    | asked hasked => exact absurd hasked (hnone _)
    -- nothing good is asked for, and nothing runs
    | @refused g cause hasked hstill =>
      obtain ⟨r, s', hrun, hleft, hsame⟩ := Step.ran_none h hx hstill nofun
      obtain ⟨hchildren, houtside, hcontext⟩ := hsame
      have hfailed : r.success = false :=
        Bool.eq_false_iff.mpr fun hsuccess => nomatch hleft.success.mp hsuccess
      exact ⟨r, s', cause, hrun, hchildren, hfailed, hleft.aborted, hleft.error, houtside, hcontext⟩
  · cases hcounts with
    | refused hasked => exact absurd hn (hasked n)
    | @asked g m hasked hstill =>
      obtain rfl := hasked.unique hn
      have hsome : 0 < min m countLoopCeiling := Nat.lt_min.mpr ⟨hn.pos, by decide⟩
      generalize hcounted : Exec.countIterations w (step.asLoop w strategy interval) m
        (min m countLoopCeiling) 1 {} = counted at hx
      have hl := step.asLoop_children w strategy interval
      obtain ⟨entry, hentry, hwent⟩ := Exec.countIterations_went hl m rfl hsome
        (Nat.add_comm 1 _) (h.wait (hopening.still hstill)) (congrFun hcounted g)
      have hstart : (s.openingFrame w step.toStepFields).Still w entry :=
        (hopening.still hstill).still hentry
      -- the iterations that run, and what is made of them, are those of any loop
      obtain ⟨turns, g, ending, hturns, hsettled, hran, htold⟩ := Step.ran_turns h
        (fun hlink => hlink.2.result) (hentry.result.trans hstill.result) hx hwent.withinCeiling
        (fun turns g ending => g = Turn.last entry turns ∧ Exec.Counted m turns ending)
        fun turns hspent => ⟨congrArg Frame.result hspent.1, hspent, hspent.2.ne_crashed⟩
      obtain ⟨rfl, hfull, hlimit, hpassed⟩ := hsettled.counted
      refine ⟨entry, turns, hstart, hturns.mono fun hlink => hlink.2, ?_,
        hturns.length_le hsome, hfull, htold, fun r s' hrun => ?_⟩
      · rintro rfl
        exact absurd (hfull (by simp)) (Nat.ne_of_lt hsome)
      · rw [hrun] at hran
        obtain ⟨-, hleft⟩ := hran
        rw [hleft.error, hleft.success]
        exact ⟨hleft.outside, hlimit, hpassed⟩

end

/-- A loop that is asked for one iteration more than it may run, with pauses of two seconds. -/
def Step.paced : Step :=
  ⟨{ kind := some "loop", loopMode := some "count", loopOnError := some "stop"
     loopMaximums := some (.ofNat 101), loopInterval := some (.ofInt 2) },
    [⟨{ kind := some "group" }, []⟩]⟩

/-- It runs a hundred iterations, with ninety-nine pauses between them. -/
theorem Step.run_count_paced :
    Step.paced.Loops ({} : Context).settings .count .stop (.ofInt 2) ∧
    (Step.paced.maximums (Site.world []) ⟨{}, {}, {}⟩).Asks 101 ∧
    ∃ r s' entry turns, Step.paced.run (Site.world []) ⟨{}, {}, {}⟩ = .ok r s' ∧
      (Step.paced.asLoop (Site.world []) .stop (.ofInt 2)).Turns (Site.world [])
        (fun _ => Frame.Onward (Site.world [])
          (Step.paced.asLoop (Site.world []) .stop (.ofInt 2)).rest []) 1 entry turns ∧
      turns.length = 100 ∧ r.iteration = 100 ∧
      r.error = some (Fault.safetyLimit 100 100).message ∧ s'.outside.clock = 99 * 2000 := by
  have hseen : Step.paced.seen (fun r s' => (r.error, s'.outside.clock)) (Site.world [])
      ⟨{}, {}, {}⟩ = some (some (Fault.safetyLimit 100 100).message, 99 * 2000) := by
    decide +kernel
  have hloops : Step.paced.Loops ({} : Context).settings .count .stop (.ofInt 2) := by
    refine ⟨rfl, rfl, rfl, ?_⟩
    unfold Exec.loopInterval
    exact if_pos (by decide +kernel)
  have hasks : (Step.paced.maximums (Site.world []) ⟨{}, {}, {}⟩).Asks 101 := .number (by decide)
  have hcount := (Step.run_count (w := Site.world []) (s := ⟨{}, {}, {}⟩) hloops).2 101 hasks
  obtain ⟨r, s', hrun, hlook⟩ := Step.run_of_seen hseen
  obtain ⟨herror, htime⟩ := Prod.mk.inj hlook
  rw [hrun] at hcount
  obtain ⟨entry, turns, -, hturns, hsome, -, hfull, ⟨-, hiteration, -⟩, hverdict⟩ := hcount
  -- the message says that no iteration has cut the loop off
  have hlength := hfull ((hverdict r s' rfl).2.1.mp herror).2
  exact ⟨hloops, hasks, r, s', entry, turns, hrun, hturns, hlength,
    (hiteration hsome).trans hlength, herror, htime⟩

end Scenario
