import Scenario.Proofs.History.Soundness

/-!
# What histories keep

Facts about all contexts of a history, and about the contexts in which the steps below a step start.

* `Context.Invariant` — what no step breaks, whatever it does. The run lemma is
  `History.Everywhere.edges`: what holds when a step starts holds at every edge of every step that
  is run as a part of it, also if the run breaks down.
* `Course.earlier` — of the steps below a step, only the last one can have broken down. So each of
  them starts as its elder siblings, which are left, have put things back:
  `History.Sound.defined_child` for the variables in force, `History.Sound.including_child` for the
  stack of cases.
* `History.Everywhere.returned` — if a step was left, so was everything that it ran; then its
  history yields its result, with all results below it: `History.Yields`.
* `History.Nest` — the steps that are running at the same time, innermost first.
-/

namespace Scenario

variable {ρ : Type} {o : Outside ρ}

/-! ### Invariants of contexts -/

/-- The contexts at the four edges of a step. -/
def History.edges (h : History) : List Context := [h.before, h.opening, h.closing, h.after]

/-- **An invariant of contexts:** neither the scope of a step nor what happens in its work breaks
it. -/
structure Context.Invariant (I : Context → Prop) : Prop where
  framed : ∀ {c d : Context} {key : Option String} {defined : Json.Members},
    d.still = { c.still with key, defined } → I c → I d
  led : ∀ (event : Event) {c d : Context}, event.history? = none → event.Leads c d → I c → I d

namespace Context.Invariant

variable {I : Context → Prop}

theorem still (hI : Invariant I) {c d : Context} (h : d.still = c.still) (hc : I c) : I d :=
  hI.framed (show d.still = { c.still with key := c.key, defined := c.defined } from h) hc

/-- Events keep an invariant, and each step among them starts with it, if the steps keep it. -/
theorem follows (hI : Invariant I) {events : List Event} {c d : Context} (h : Follows c events d)
    (hran : ∀ g ∈ Event.histories events, I g.before → I g.after) (hc : I c) :
    I d ∧ ∀ g ∈ Event.histories events, I g.before := by
  -- event by event; only a step among them needs more than the invariant itself
  induction events generalizing c with
  | nil => exact ⟨hI.still h hc, fun g hg => absurd hg List.not_mem_nil⟩
  | cons event rest ih =>
    obtain ⟨next, hlead, hrest⟩ := h
    cases event with
    | ran g =>
      have hbefore : I g.before := hI.still hlead.1 hc
      have hnext : I next := hI.still hlead.2 (hran g List.mem_cons_self hbefore)
      obtain ⟨hd, hall⟩ := ih hrest (fun g hg => hran g (List.mem_cons_of_mem _ hg)) hnext
      exact ⟨hd, List.forall_mem_cons.mpr ⟨hbefore, hall⟩⟩
    | _ => exact ih hrest hran (hI.led _ rfl hlead hc)

/-- Leaving a step keeps an invariant. -/
theorem concluded (hI : Invariant I) {h : History} {events : List Event} {ending : Ending}
    {r : StepResult} (hend : h.Concluded events ending r) (hc : I h.closing) : I h.after := by
  have hwritten : I { h.closing with session := Keyed.extend h.closing.session r.extracted } :=
    hI.led (.injected r.extracted) rfl rfl hc
  exact hI.framed hend.after hwritten

end Context.Invariant

/-- **The run lemma:** an invariant that holds when a step starts holds at every edge of every step
that is run as a part of it. -/
theorem History.Everywhere.edges {I : Context → Prop} (hI : Context.Invariant I) {h : History}
    (hs : h.Everywhere (History.Sound o)) (hb : I h.before) :
    h.Everywhere fun k => ∀ c ∈ k.edges, I c := by
  -- by induction on the history: where the steps below keep the invariant, the events carry it from
  -- the opening to each start and to the closing
  induction hs with
  | @intro h hsound _ ih =>
    obtain ⟨events, ending, -, hfollows, hhistories, hconcluded⟩ := hsound.course
    have hopening : I h.opening := hI.framed hsound.opening hb
    have hran : ∀ g ∈ Event.histories events, I g.before → I g.after := by
      intro g hg hbefore
      exact (ih g (hhistories ▸ hg) hbefore).here g.after (by simp [History.edges])
    obtain ⟨hclosing, hbefore⟩ := hI.follows hfollows hran hopening
    have hafter : I h.after := by
      cases hr : h.result with
      | none => rw [hsound.broken hr]; exact hclosing
      | some r => exact hI.concluded (hconcluded r hr) hclosing
    refine .intro ?_ fun g hg => ih g hg (hbefore g (hhistories ▸ hg))
    simpa [History.edges] using ⟨hb, hopening, hclosing, hafter⟩

/-! ### Elder siblings -/

/-- Of the steps of a passage, only the last one can have broken down. -/
theorem Passage.earlier {halt : Bool} {steps : List Step} {hs : List History}
    {outcome : Option ChildrenOutcome} (h : Passage halt steps hs outcome) :
    ∀ g ∈ hs.dropLast, ∃ r, g.result = some r := by
  induction h with
  | done => simp
  | crashed => simp
  | aborted => simp
  | halted => simp
  | @passed h r rest hs outcome hr _ _ _ ih | @failed h r rest hs outcome hr _ _ _ _ ih =>
    cases hs with
    | nil => simp
    | cons g hs =>
      rw [List.dropLast_cons_cons]
      exact List.forall_mem_cons.mpr ⟨⟨r, hr⟩, ih⟩

theorem Rounds.earlier {strategy : LoopStrategy} {steps : List Step} {i : Nat} {rounds : List Round}
    {ending : Ending} (h : Rounds o strategy steps i rounds ending) :
    ∀ g ∈ (rounds.flatMap Round.histories).dropLast, ∃ r, g.result = some r := by
  induction h with
  | done => simp
  | last _ hpass _ => simpa using hpass.earlier
  | @next i round rest ending _ hpass hgoes _ ih =>
    rw [List.flatMap_cons]
    -- an iteration after which the loop goes on has results throughout, be it the last one or not
    by_cases hrest : rest.flatMap Round.histories = []
    · rw [hrest, List.append_nil]
      exact hpass.earlier
    · rw [List.dropLast_append_of_ne_nil hrest]
      refine List.forall_mem_append.mpr ⟨hpass.results ?_, ih⟩
      rcases hgoes with h | ⟨h, _⟩ <;> rw [h] <;> exact Option.some_ne_none _

/-- **Of the steps that a step ran,** only the last one can have broken down. -/
theorem Course.earlier {step : Step} {opening : Context} {events : List Event} {ending : Ending}
    (h : Course o step opening events ending) :
    ∀ g ∈ (Event.histories events).dropLast, ∃ r, g.result = some r := by
  cases h with
  | idle => exact fun g hg => absurd hg List.not_mem_nil
  | pass _ _ _ hpass =>
    rw [Event.histories_ran]
    exact hpass.earlier
  | visit _ _ _ _ _ hpass =>
    rw [Event.histories_visit]
    exact hpass.earlier
  | rounds _ _ _ _ _ hrounds =>
    rw [Round.histories_flatMap]
    exact hrounds.earlier

/-! ### Where the steps below a step start -/

/-- Before a step that was run there are the events that lead to its start. -/
theorem Follows.reaches {events : List Event} {c d : Context} (h : Follows c events d) {g : History}
    (hg : g ∈ Event.histories events) : ∃ before rest inside, events = before ++ .ran g :: rest ∧
      Follows c before inside ∧ g.before.still = inside.still := by
  obtain ⟨event, hevent, hhistory⟩ := List.mem_filterMap.mp hg
  cases event with
  | ran k =>
    obtain rfl : k = g := Option.some.inj hhistory
    obtain ⟨before, rest, rfl⟩ := List.append_of_mem hevent
    obtain ⟨inside, hbefore, next, hlead, -⟩ := h.split
    exact ⟨before, rest, inside, rfl, hbefore, hlead.1⟩
  | _ => exact absurd hhistory.symm (Option.some_ne_none g)

/-- **What elder siblings keep** is there when a step starts. -/
theorem Follows.kept_before {α : Type} {π : Context → α} {events : List Event} {c d : Context}
    (h : Follows c events d) (hstill : ∀ {c d : Context}, d.still = c.still → π d = π c)
    (hled : ∀ event ∈ events, event.history? = none → ∀ {c d}, event.Leads c d → π d = π c)
    (hran : ∀ g ∈ (Event.histories events).dropLast, π g.after = π g.before) {g : History}
    (hg : g ∈ Event.histories events) : π g.before = π c := by
  obtain ⟨before, rest, inside, rfl, hbefore, hstart⟩ := h.reaches hg
  refine (hstill hstart).trans (hbefore.kept hstill ?_ ?_)
  · exact fun event hevent => hled event (List.mem_append_left _ hevent)
  · intro k hk
    refine hran k ?_
    have hne : Event.histories (.ran g :: rest) ≠ [] := List.cons_ne_nil g _
    rw [Event.histories_append, List.dropLast_append_of_ne_nil hne]
    exact List.mem_append_left _ hk

/-- What happens between the steps changes no variables in force. -/
theorem Event.Leads.defined {event : Event} (hnone : event.history? = none) {c d : Context}
    (hlead : event.Leads c d) : d.defined = c.defined := by
  cases event with
  | injected data => exact (congrArg Context.defined hlead :)
  | numbered i => exact (congrArg Context.defined hlead :)
  | entered id => exact (congrArg Context.defined hlead.2 :)
  | left id => exact (congrArg Context.defined hlead.2 :)
  | ran g => exact absurd hnone (Option.some_ne_none g)

namespace History.Sound

variable {h g : History}

/-- A step that is left puts back the variables in force. -/
theorem defined_after (hs : h.Sound o) {r : StepResult} (hr : h.result = some r) :
    h.after.defined = h.before.defined := by
  obtain ⟨events, ending, -, -, -, hconcluded⟩ := hs.course
  exact (congrArg Context.defined (hconcluded r hr).after :)

/-- **A step below a step starts** with the variables that are in force in the work of that one. -/
theorem defined_child (hs : h.Everywhere (Sound o)) (hg : g ∈ h.children) :
    g.before.defined = h.opening.defined := by
  obtain ⟨events, ending, hcourse, hfollows, hhistories, -⟩ := hs.here.course
  refine hfollows.kept_before (π := Context.defined) (fun h => (congrArg Context.defined h :))
    (fun _ _ => Event.Leads.defined) (fun k hk => ?_) (hhistories.symm ▸ hg)
  obtain ⟨r, hr⟩ := hcourse.earlier k hk
  exact (hs.children k (hhistories ▸ List.dropLast_subset _ hk)).here.defined_after hr

/-- **A step below a step starts** with the same stack of cases, but for an include step, which has
put a case on it that was not there. -/
theorem including_child (hs : h.Everywhere (Sound o)) (hg : g ∈ h.children) :
    (h.step.declaredKind ≠ .ok .inclusion ∧ g.before.including = h.before.including) ∨
    ∃ id record, h.step.declaredKind = .ok .inclusion ∧ h.step.includedCase = some id ∧
      o.library.find? id = some record ∧ id ∉ h.before.including ∧
      g.before.including = h.before.including ++ [id] := by
  obtain ⟨events, ending, hcourse, hfollows, hhistories, -⟩ := hs.here.course
  have hopening : h.opening.including = h.before.including :=
    (congrArg Context.including hs.here.opening :)
  -- the elder siblings of a step have ended, so they have put the stack back
  have hkept : ∀ k ∈ (Event.histories events).dropLast, k.after.including = k.before.including := by
    intro k hk
    obtain ⟨r, hr⟩ := hcourse.earlier k hk
    exact (hs.children k (hhistories ▸ List.dropLast_subset _ hk)).including hr
  rw [← hhistories] at hg
  -- where no case is entered or left, the stack stays as it is
  have same : ∀ {events : List Event} {c d : Context}, Follows c events d →
      (∀ id, .entered id ∉ events ∧ .left id ∉ events) →
      (∀ k ∈ (Event.histories events).dropLast, k.after.including = k.before.including) →
      g ∈ Event.histories events → g.before.including = c.including := by
    intro events c d hfollows hcases hkept hg
    refine hfollows.kept_before (fun h => (congrArg Context.including h :)) ?_ hkept hg
    intro event hevent hnone c d hlead
    have hone : Follows c [event] d := ⟨d, hlead, rfl⟩
    exact hone.including
      (fun id => ⟨fun hmem => (hcases id).1 (List.mem_singleton.mp hmem ▸ hevent),
        fun hmem => (hcases id).2 (List.mem_singleton.mp hmem ▸ hevent)⟩)
      (by simp [Event.histories, hnone])
  cases hcourse with
  | idle => exact absurd hg List.not_mem_nil
  -- only an include step visits a case
  | pass hkind hplain =>
    refine .inl ⟨fun hinclusion => ?_, (same hfollows (by simp) hkept hg).trans hopening⟩
    obtain rfl := Except.ok.inj (hkind.symm.trans hinclusion)
    simp [StepKind.IsPlain] at hplain
  | rounds hkind =>
    refine .inl ⟨fun hinclusion => ?_, (same hfollows (Round.no_cases _) hkept hg).trans hopening⟩
    cases hkind.symm.trans hinclusion
  | @visit id record hs outcome hkind hid hrecord =>
    rw [Event.histories_visit] at hg hkept
    obtain ⟨inside, ⟨hnew, hentered⟩, hrest⟩ := hfollows
    obtain ⟨last, hran, -⟩ := Follows.split hrest
    have hinside : inside.including = h.opening.including ++ [id] :=
      (congrArg Context.including hentered :)
    have hstart := same hran (by simp) (by simpa using hkept) (by simpa using hg)
    rw [hopening] at hnew hinside
    exact .inr ⟨id, record, hkind, hid, hrecord, hnew, hstart.trans hinside⟩

/-- The variables in force are those of the step when its work ends, too. -/
theorem defined_closing (hs : h.Everywhere (Sound o)) {r : StepResult} (hr : h.result = some r) :
    h.closing.defined = h.opening.defined := by
  obtain ⟨events, ending, hcourse, hfollows, hhistories, hconcluded⟩ := hs.here.course
  refine hfollows.kept (π := Context.defined) (fun h => (congrArg Context.defined h :))
    (fun _ _ => Event.Leads.defined) fun k hk => ?_
  obtain ⟨r', hr'⟩ := hcourse.results (hconcluded r hr).ended k hk
  exact (hs.children k (hhistories ▸ hk)).here.defined_after hr'

end History.Sound

namespace History

variable {h k : History} {P : History → Prop}

/-- **If a step was left,** so was every step that was run as a part of it. -/
theorem Everywhere.returned (hs : h.Everywhere (Sound o)) {r : StepResult}
    (hr : h.result = some r) : h.Everywhere fun k => ∃ r, k.result = some r := by
  -- from the top down: work that did not crash has only run steps that did not
  induction hs generalizing r with
  | @intro h hsound _ ih =>
    obtain ⟨events, ending, hcourse, -, hhistories, hconcluded⟩ := hsound.course
    refine .intro ⟨r, hr⟩ fun g hg => ?_
    obtain ⟨r', hr'⟩ := hcourse.results (hconcluded r hr).ended g (hhistories ▸ hg)
    exact ih g hg hr'

/-- **A history yields a result,** and the histories in it yield the results below that one. -/
inductive Yields : History → StepResult → Prop
  | intro {h : History} {r : StepResult} : h.result = some r →
    List.Forall₂ Yields h.children r.children → Yields h r

/-- Histories that all yield a result yield their results. -/
theorem Yields.filterMap {hs : List History} (h : ∀ g ∈ hs, ∃ r, g.result = some r ∧ g.Yields r) :
    List.Forall₂ Yields hs (hs.filterMap History.result) := by
  induction hs with
  | nil => exact .nil
  | cons g rest ih =>
    obtain ⟨⟨r, hr, hg⟩, hrest⟩ := List.forall_mem_cons.mp h
    rw [List.filterMap_cons_some hr]
    exact .cons hg (ih hrest)

/-- **If a step was left,** its history yields its result. -/
theorem Everywhere.yields (hs : h.Everywhere (Sound o)) {r : StepResult} (hr : h.result = some r) :
    h.Yields r := by
  -- `children` of the result are the results below the step, and there is one for each of them
  have hall := hs.returned hr
  induction hs generalizing r with
  | @intro h hsound _ ih =>
    obtain ⟨events, ending, -, -, -, hconcluded⟩ := hsound.course
    refine .intro hr ?_
    rw [(hconcluded r hr).children]
    refine Yields.filterMap fun g hg => ?_
    obtain ⟨r', hr'⟩ := (hall.children g hg).here
    exact ⟨r', hr', ih g hg hr' (hall.children g hg)⟩

/-! ### Nested steps -/

/-- **The steps that are running** while the first one of them is, each one run directly below the
next one, down to the step of the history. -/
inductive Nest (h : History) : List History → Prop
  | root : Nest h [h]
  | deeper {k g : History} {ks : List History} : Nest h (k :: ks) → g ∈ k.children →
    Nest h (g :: k :: ks)

/-- What holds everywhere holds of the first one and everywhere in it. -/
theorem Nest.innermost {ks : List History} (hn : h.Nest (k :: ks)) (hP : h.Everywhere P) :
    k.Everywhere P := by
  generalize hks : k :: ks = nest at hn
  induction hn generalizing k ks with
  | root =>
    cases hks
    exact hP
  | deeper _ hg ih =>
    cases hks
    exact (ih rfl).children _ hg

end History

/-- **The history of a run yields its result.** -/
theorem Step.history_yields {σ : Type} {w : World ρ σ} {step : Step} {s s' : RunState ρ σ}
    {r : StepResult} (h : step.run w s = .ok r s') : (step.history w s).Yields r :=
  (step.history_sound w s).yields (Step.history_ok w h).1

end Scenario
