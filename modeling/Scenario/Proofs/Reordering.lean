import Scenario.Proofs.Chaining
import Scenario.Proofs.Kin.Alike

/-!
# Numbers alone decide the order

How the steps of a forest are stored is not seen in a run, as long as siblings have numbers of their
own.

* `Step.Ranked` — forests in which no two siblings have the same place.
* `Step.Rearranged` — forests with the same steps, where siblings at any level stand in another
  order.
* `siblingErrors_rearranged` — the same violations are found in a rearranged forest, in another
  order.
* `Step.readyAll_rearranged` — the same steps are made ready: containers, whose children are run in
  running order, are the same to the last.
* `runCase_rearranged` — so a run of a rearranged forest is the same run.
-/

namespace Scenario

/-! ### Rearranged forests -/

namespace Step

/-- **Siblings have places of their own,** at every level. A step without a number has the place
zero. -/
inductive Ranked : List Step → Prop
  | forest {steps : List Step} (apart : (steps.map fun step => step.rank).Nodup)
      (below : ∀ step ∈ steps, Ranked step.children) : Ranked steps

/-- **Forests with the same steps,** where siblings at any level stand in another order. -/
inductive Rearranged : List Step → List Step → Prop
  | nil : Rearranged [] []
  | cons (fields : StepFields) {children children' rest rest' : List Step}
      (below : Rearranged children children') (beside : Rearranged rest rest') :
      Rearranged (⟨fields, children⟩ :: rest) (⟨fields, children'⟩ :: rest')
  | swap (first second : Step) (rest : List Step) :
      Rearranged (second :: first :: rest) (first :: second :: rest)
  | trans {steps middle steps' : List Step} (before : Rearranged steps middle)
      (after : Rearranged middle steps') : Rearranged steps steps'

namespace Ranked

variable {step : Step} {steps : List Step}

theorem nil : Ranked [] :=
  .forest List.nodup_nil fun _ hnone => absurd hnone List.not_mem_nil

theorem apart (h : Ranked steps) : (steps.map fun step => step.rank).Nodup := by
  cases h with
  | forest apart _ => exact apart

theorem child (h : Ranked steps) (hstep : step ∈ steps) : Ranked step.children := by
  cases h with
  | forest _ below => exact below step hstep

theorem head (h : Ranked (step :: steps)) : Ranked step.children :=
  h.child List.mem_cons_self

theorem tail (h : Ranked (step :: steps)) : Ranked steps :=
  .forest (List.nodup_cons.mp h.apart).2 fun _ hmem => h.child (List.mem_cons_of_mem step hmem)

end Ranked

namespace Rearranged

variable {steps steps' : List Step}

/-- The same places are taken. -/
theorem ranks (h : Rearranged steps steps') :
    (steps.map fun step => step.rank).Perm (steps'.map fun step => step.rank) := by
  induction h with
  | nil => exact .nil
  | cons fields _ _ _ ih => exact .cons fields.rank ih
  | swap first second rest => exact .swap _ _ _
  | trans _ _ ih ih' => exact ih.trans ih'

/-- Siblings of a rearranged forest have places of their own. -/
theorem ranked (h : Rearranged steps steps') (hranked : Ranked steps) : Ranked steps' := by
  induction h with
  | nil => exact hranked
  | @cons fields children children' rest rest' hbelow hbeside ih ih' =>
    have hranks : ((⟨fields, children⟩ :: rest).map fun step : Step => step.rank).Perm
        ((⟨fields, children'⟩ :: rest').map fun step : Step => step.rank) :=
      (Rearranged.cons fields hbelow hbeside).ranks
    refine .forest (hranks.nodup_iff.mp hranked.apart) fun step hstep => ?_
    rcases List.mem_cons.mp hstep with rfl | hrest
    · exact ih hranked.head
    · exact (ih' hranked.tail).child hrest
  | swap first second rest =>
    refine .forest (((List.Perm.swap _ _ _).map _).nodup_iff.mp hranked.apart) fun step hstep => ?_
    exact hranked.child ((List.Perm.swap _ _ _).mem_iff.mp hstep)
  | trans _ _ ih ih' => exact ih' (ih hranked)

theorem isEmpty (h : Rearranged steps steps') : steps.isEmpty = steps'.isEmpty := by
  have hlength := h.ranks.length_eq
  rw [List.length_map, List.length_map] at hlength
  cases steps <;> cases steps' <;> simp_all

end Rearranged

end Step

/-! ### The gate -/

namespace Structure

/-- Siblings with places of their own violate what each of them violates. -/
theorem siblingErrors_apart (parent : Option String) (path : List String) {steps : List Step}
    (hapart : (steps.map fun step => step.rank).Nodup) {seen : List Int}
    (hfree : ∀ step ∈ steps, ∀ n, step.number = some n → n ∉ seen) :
    siblingErrors parent path seen steps = steps.flatMap (stepErrors path) := by
  induction steps generalizing seen with
  | nil => rfl
  | cons step rest ih =>
    obtain ⟨fields, children⟩ := step
    obtain ⟨hhead, hrest⟩ := List.nodup_cons.mp hapart
    have hfree' : ∀ other ∈ rest, ∀ n, other.number = some n →
        n ∉ fields.number.toList ++ seen := by
      intro other hother n hn hmem
      rcases List.mem_append.mp hmem with hown | hseen
      · -- both have the number, so both have the place
        have hrank : other.rank = fields.rank := by
          rw [StepFields.rank, StepFields.rank, hn, Option.mem_toList.mp hown]
        exact hhead (List.mem_map.mpr ⟨other, hother, hrank⟩)
      · exact hfree other (List.mem_cons_of_mem _ hother) n hn hseen
    rw [siblingErrors, numberErrors_eq_nil_iff.mpr (hfree _ List.mem_cons_self), ih hrest hfree',
      List.nil_append, List.flatMap_cons]

/-- **The same violations** are found in a rearranged forest. -/
theorem siblingErrors_rearranged {steps steps' : List Step} (h : Step.Rearranged steps steps')
    (hranked : Step.Ranked steps) (parent : Option String) (path : List String) :
    (siblingErrors parent path [] steps).Perm (siblingErrors parent path [] steps') := by
  rw [siblingErrors_apart parent path hranked.apart fun _ _ _ _ => List.not_mem_nil,
    siblingErrors_apart parent path (h.ranked hranked).apart fun _ _ _ _ => List.not_mem_nil]
  induction h generalizing parent path with
  | nil => exact .nil
  | @cons fields children children' rest rest' hbelow _ ih ih' =>
    rw [List.flatMap_cons, List.flatMap_cons]
    refine List.Perm.append ?_ (ih' hranked.tail parent path)
    -- the step itself is the same, and what is wrong below it is found in another order
    have hdeeper := ih hranked.head (some fields.key) (path ++ [fields.key])
    rw [← siblingErrors_apart (some fields.key) _ hranked.head.apart
        fun _ _ _ _ => List.not_mem_nil,
      ← siblingErrors_apart (some fields.key) _ (hbelow.ranked hranked.head).apart
        fun _ _ _ _ => List.not_mem_nil] at hdeeper
    rw [stepErrors, stepErrors, ← hbelow.isEmpty]
    split
    · exact .refl _
    · exact hdeeper.append_left _
  | swap first second rest => exact (List.Perm.swap first second rest).flatMap_right _
  | trans hbefore _ ih ih' =>
    exact (ih hranked parent path).trans (ih' (hbefore.ranked hranked) parent path)

end Structure

/-- **Both forests pass the gate, or neither does:** then the same violations are reported. -/
theorem validate_rearranged {steps steps' : List Step} (h : Step.Rearranged steps steps')
    (hranked : Step.Ranked steps) :
    (validate steps = .ok () ∧ validate steps' = .ok ()) ∨
      ∃ errors errors', errors.Perm errors' ∧
        validate steps = .error (.invalidTree errors) ∧
        validate steps' = .error (.invalidTree errors') := by
  have herrors : (structuralErrors steps).Perm (structuralErrors steps') :=
    Structure.siblingErrors_rearranged h hranked none []
  unfold validate
  -- a list without violations is a permutation of no other list
  cases hfound : structuralErrors steps with
  | nil =>
    rw [hfound] at herrors
    have hfound' : structuralErrors steps' = [] := herrors.nil_eq.symm
    rw [hfound']
    exact .inl ⟨rfl, rfl⟩
  | cons e rest =>
    rw [hfound] at herrors
    cases hfound' : structuralErrors steps' with
    | nil =>
      rw [hfound'] at herrors
      exact absurd herrors.eq_nil (by simp)
    | cons e' rest' =>
      rw [hfound'] at herrors
      exact .inr ⟨_, _, herrors, rfl, rfl⟩

/-! ### Runs -/

section

variable {ρ σ : Type} (w : World ρ σ)

/-- Running order among steps that are made ready, of a forest in which siblings have places of
their own. -/
theorem Ready.ordered_perm {steps steps' : List Step} (hranked : Step.Ranked steps)
    {included : List Step → List (Ready ρ σ)}
    (h : (Step.readyAll w included steps).Perm (Step.readyAll w included steps')) :
    ordered (Step.readyAll w included steps) = ordered (Step.readyAll w included steps') := by
  have hranks : (fun step : Ready ρ σ => step.fields.rank) ∘ Step.ready w included =
      fun step => step.rank := funext fun step => by
    rw [Function.comp_apply, Step.ready_fields]
  refine orderedBy_eq_of_perm h ?_
  rw [Step.readyAll_eq_map, List.map_map, hranks]
  exact hranked.apart

/-- The work of a step uses its children in running order only. -/
theorem workOf_ordered (included : List Step → List (Ready ρ σ)) (step : StepFields)
    {children children' : List (Ready ρ σ)} (h : Ready.ordered children = Ready.ordered children') :
    workOf w included step children = workOf w included step children' := by
  unfold workOf Exec.branch Exec.loop Exec.group
  rw [h]

/-- **The same steps are made ready.** A container runs its children in running order, so that it is
the same step however they stand. -/
theorem Step.readyAll_rearranged {steps steps' : List Step} (h : Rearranged steps steps')
    (hranked : Ranked steps) (included : List Step → List (Ready ρ σ)) :
    (readyAll w included steps).Perm (readyAll w included steps') := by
  induction h with
  | nil => exact .nil
  | @cons fields children children' rest rest' _ _ ih ih' =>
    have hordered := Ready.ordered_perm w hranked.head (ih hranked.head)
    have hstep : Step.ready w included ⟨fields, children⟩ =
        Step.ready w included ⟨fields, children'⟩ := by
      rw [Step.ready, Step.ready, workOf_ordered w included fields hordered]
    rw [readyAll, readyAll, hstep]
    exact .cons _ (ih' hranked.tail)
  | swap first second rest => exact .swap _ _ _
  | trans hbefore _ ih ih' => exact (ih hranked).trans (ih' (hbefore.ranked hranked))

variable {steps steps' : List Step}

/-- A forest that may run does the same when it is rearranged. -/
theorem runForest_rearranged (h : Step.Rearranged steps steps') (hranked : Step.Ranked steps)
    (case : CaseHeader) (started : Instant) (s : RunState ρ σ) :
    runForest w case steps started s = runForest w case steps' started s := by
  have hroots := Ready.ordered_perm w hranked
    (Step.readyAll_rearranged w h hranked (includedSteps w w.library.length))
  unfold runForest
  rw [hroots]

/-- **Numbers alone decide the order.** Take a forest in which siblings have numbers of their own,
and the same forest with the roots and the children at any levels in another order. Either both are
rejected, for the same violations in another order. Or both may run, and then a run of one is a run
of the other: with one start, they agree in everything that is there at their ends. And if they
start where they are answered alike, they come out alike, whatever their clocks tell, as long as no
condition loop runs out of time. -/
theorem runCase_rearranged (h : Step.Rearranged steps steps') (hranked : Step.Ranked steps)
    (case : CaseHeader) (options : RunOptions) :
    (∃ errors errors', errors.Perm errors' ∧ validate steps = .error (.invalidTree errors) ∧
      validate steps' = .error (.invalidTree errors') ∧ ∀ x : Start ρ σ,
        x.run w case steps options = .ok (.error (.invalidTree errors)) ∧
        x.run w case steps' options = .ok (.error (.invalidTree errors'))) ∨
    (validate steps = .ok () ∧ validate steps' = .ok () ∧
      (∀ client outside records, runCase w case steps options client outside records =
        runCase w case steps' options client outside records) ∧
      ∀ {τ : Type} (r : Recorder τ) same strict near, w.toRecorder.Answers r same →
        w.toOutside.Concord strict near → ∀ (x : Start ρ σ) (y : Start ρ τ),
        same x.records y.records → x.client.isSome = y.client.isSome →
        near (x.client, x.outside) (y.client, y.outside) →
        (¬ strict → ¬ x.TimesOut w case steps options ∧
          ¬ y.TimesOut (w.recordedBy r) case steps' options) →
        CaseOutcome.Alike strict (x.run w case steps options)
          (y.run (w.recordedBy r) case steps' options)) := by
  rcases validate_rearranged h hranked with ⟨hvalid, hvalid'⟩ | hrejected
  · have hsame {ρ σ : Type} (w : World ρ σ) (client : Option Http.Client) (outside : ρ)
        (records : σ) : runCase w case steps options client outside records =
          runCase w case steps' options client outside records := by
      unfold runCase
      rw [hvalid, hvalid']
      simp only [runForest_rearranged w h hranked]
    refine .inr ⟨hvalid, hvalid', hsame w, ?_⟩
    intro τ r same strict near hanswers hconcord x y hrecords hclient hnear hcalm
    -- the second run is, at its own start, a run of the first forest
    have hrun : y.run (w.recordedBy r) case steps' options =
        y.run (w.recordedBy r) case steps options := by
      unfold Start.run
      rw [hsame]
    have htime : y.TimesOut (w.recordedBy r) case steps' options =
        y.TimesOut (w.recordedBy r) case steps options := by
      unfold Start.TimesOut
      rw [hsame]
    rw [htime] at hcalm
    rw [hrun]
    exact Start.alike hanswers hconcord hrecords hclient hnear case steps options hcalm
  · obtain ⟨errors, errors', hperm, hinvalid, hinvalid'⟩ := hrejected
    refine .inl ⟨errors, errors', hperm, hinvalid, hinvalid', fun x => ?_⟩
    unfold Start.run
    rw [runCase_invalid hinvalid, runCase_invalid hinvalid']
    exact ⟨rfl, rfl⟩

end

/-- A group with a code and a number. -/
def Step.numbered (code : String) (number : Int) (children : List Step) : Step :=
  ⟨{ code := some code, number := some number, kind := some "group" }, children⟩

/-- **Two levels in another order:** the roots, and the children of the one that runs last. -/
theorem runCase_rearranged_levels :
    let last (children : List Step) := Step.numbered "last" 9 children
    let steps := [last [.numbered "b" 2 [], .numbered "a" (-1) []], .numbered "first" 3 []]
    let steps' := [.numbered "first" 3 [], last [.numbered "a" (-1) [], .numbered "b" 2 []]]
    Step.Rearranged steps steps' ∧ Step.Ranked steps ∧ validate steps' = .ok () ∧
      runCase World.still {} steps {} none () {} = runCase World.still {} steps' {} none () {} := by
  intro last steps steps'
  have hmoved : Step.Rearranged steps steps' :=
    .trans (.cons _ (.swap _ _ _) (.cons _ .nil .nil)) (.swap _ _ _)
  have hranked : Step.Ranked steps := by
    have hleaf := Step.Ranked.nil
    refine .forest (by decide) ?_
    simp only [steps, List.forall_mem_cons, List.not_mem_nil, false_implies, implies_true, and_true]
    refine ⟨.forest (by decide) ?_, hleaf⟩
    simp only [last, Step.numbered, List.forall_mem_cons, List.not_mem_nil, false_implies,
      implies_true, and_true]
    exact ⟨hleaf, hleaf⟩
  have hvalid : validate steps = .ok () := validate_eq_ok_iff.mpr (by decide +kernel)
  rcases runCase_rearranged World.still hmoved hranked {} {} with ⟨_, _, _, hinvalid, _⟩ |
    ⟨_, hvalid', hsame, _⟩
  · exact absurd (hvalid.symm.trans hinvalid) (by simp)
  · exact ⟨hmoved, hranked, hvalid', hsame none () {}⟩

end Scenario
