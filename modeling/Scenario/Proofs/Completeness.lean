import Scenario.Proofs.Abort

/-!
# Nothing is left out

Only an abort, or a loop that is told to break or to stop, cuts work short. A step that fails does
not: the steps after it are run all the same, whatever was wrong with it.

* `Step.Sequence` — running order, said of the order alone; `Step.ordered_sequence`.
* `RanEach` — each of some steps was run exactly once, in running order, and left a result.
* `History.Sound.ran`, `History.Sound.branched`, `History.Sound.included` — what the work of a
  container did, kind by kind.
* `History.Complete` — so every container has a result for each step that it owes one, and
  conditions that do not hold and include steps that are refused have none.
* `runCase_complete` — all of this of every run of a case.
-/

namespace Scenario

/-! ### Running order -/

/-- **Running order:** the steps of a list, ascending by number, and those with equal numbers as
they stand. -/
structure Step.Sequence (steps sequence : List Step) : Prop where
  perm : sequence.Perm steps
  ascending : sequence.Pairwise fun a b => a.rank ≤ b.rank
  stable : ∀ n, (sequence.filter fun step => step.rank = n) = steps.filter fun step => step.rank = n

/-- Steps are run in running order. -/
theorem Step.ordered_sequence (steps : List Step) : Sequence steps (Step.ordered steps) :=
  ⟨orderedBy_perm _ steps, orderedBy_ascending _ steps, orderedBy_stable _ steps⟩

/-! ### One result for each step -/

/-- **Each of some steps was run once,** in running order, and left a result that is marked with
it. -/
structure RanEach (steps : List Step) (hs : List History) (rs : List StepResult) : Prop where
  sequence : Step.Sequence steps (hs.map History.step)
  results : List.Forall₂ (fun g r => g.result = some r ∧ r.IsOf g.step.toStepFields) hs rs

variable {ρ : Type} {o : Outside ρ}

namespace History

variable {h : History} {r : StepResult}

/-- The result of a step is marked with it. -/
theorem Sound.marked (hs : h.Sound o) (hr : h.result = some r) : r.IsOf h.step.toStepFields := by
  obtain ⟨events, ending, -, -, -, hconcluded⟩ := hs.course
  exact (hconcluded r hr).marked

/-- Steps that all have a result have the marked ones. -/
theorem Sound.marked_all {hs : List History} (hsound : ∀ g ∈ hs, g.Sound o)
    (hresults : ∀ g ∈ hs, ∃ r, g.result = some r) :
    List.Forall₂ (fun g r => g.result = some r ∧ r.IsOf g.step.toStepFields) hs
      (hs.filterMap History.result) := by
  induction hs with
  | nil => exact .nil
  | cons g rest ih =>
    obtain ⟨hg, hrest⟩ := List.forall_mem_cons.mp hsound
    obtain ⟨⟨r, hr⟩, hresults⟩ := List.forall_mem_cons.mp hresults
    rw [List.filterMap_cons_some hr]
    exact .cons ⟨hr, hg.marked hr⟩ (ih hrest hresults)

end History

/-- **A passage that was not cut short** ran each of its steps. -/
theorem Passage.ranEach {steps : List Step} {hs : List History} {outcome : Option ChildrenOutcome}
    (h : Passage false (Step.ordered steps) hs outcome)
    (ho : outcome = some .passed ∨ outcome = some .failed) (hsound : ∀ g ∈ hs, g.Sound o) :
    RanEach steps hs (hs.filterMap History.result) := by
  have hfull : hs.map History.step = Step.ordered steps := by
    refine h.full ?_
    rcases ho with ho | ho
    · exact .inl ho
    · exact .inr ⟨ho, rfl⟩
  have hne : outcome ≠ none := by
    rcases ho with ho | ho <;> rw [ho] <;> exact Option.some_ne_none _
  exact ⟨hfull ▸ Step.ordered_sequence steps, History.Sound.marked_all hsound (h.results hne)⟩

/-! ### Containers, kind by kind -/

namespace History

variable {h : History} {r : StepResult}

/-- Some steps were run one after the other, and the end of the step is what came of them. -/
def Ran (h : History) (steps : List Step) : Prop :=
  ∃ container outcome events, Passage false (Step.ordered steps) h.children outcome ∧
    ∀ r, h.result = some r → h.Concluded events (.ofOutcome container outcome) r

/-- **A group,** and a step of a kind without a behaviour of its own, runs its children. -/
theorem Sound.ran (hs : h.Sound o) {kind : StepKind} (hkind : h.step.declaredKind = .ok kind)
    (hgroup : kind = .group ∨ kind = .tcp ∨ kind = .database) : h.Ran h.step.children := by
  obtain ⟨events, ending, hcourse, -, hhistories, hconcluded⟩ := hs.course
  cases hcourse with
  | pass _ _ _ hpass =>
    rw [Event.histories_ran] at hhistories
    exact ⟨_, _, _, hhistories ▸ hpass, hconcluded⟩
  | visit hkind' | rounds hkind' =>
    obtain rfl := Except.ok.inj (hkind'.symm.trans hkind)
    simp at hgroup
  | idle hidle =>
    -- no other kind of step is idle
    cases hidle with
    | kindless hkind' => cases hkind'.symm.trans hkind
    | leaf hkind' hleaf =>
      obtain rfl := Except.ok.inj (hkind'.symm.trans hkind)
      rcases hleaf with rfl | rfl | rfl <;> simp at hgroup
    | undecided hkind' | declined hkind' | refused hkind' | empty hkind' | flawed hkind' =>
      obtain rfl := Except.ok.inj (hkind'.symm.trans hkind)
      simp at hgroup

/-- **A condition step** runs its children if its predicate holds, and nothing otherwise. -/
theorem Sound.branched (hs : h.Sound o) (hkind : h.step.declaredKind = .ok .condition) :
    (h.opening.branches h.step.toStepFields = .ok true ∧ h.Ran h.step.children) ∨
      (h.opening.branches h.step.toStepFields ≠ .ok true ∧ h.children = []) := by
  obtain ⟨events, ending, hcourse, -, hhistories, hconcluded⟩ := hs.course
  cases hcourse with
  | pass hkind' _ hholds hpass =>
    obtain rfl := Except.ok.inj (hkind'.symm.trans hkind)
    rw [Event.histories_ran] at hhistories
    exact .inl ⟨hholds rfl, _, _, _, hhistories ▸ hpass, hconcluded⟩
  -- the step does not include a case, nor is it a loop
  | visit hkind' | rounds hkind' => cases hkind'.symm.trans hkind
  | idle hidle =>
    cases hidle with
    | undecided _ hbranches => exact .inr ⟨by simp [hbranches], hhistories.symm⟩
    | declined _ hbranches => exact .inr ⟨by simp [hbranches], hhistories.symm⟩
    | leaf hkind' hleaf =>
      obtain rfl := Except.ok.inj (hkind'.symm.trans hkind)
      simp [StepKind.IsLeaf] at hleaf
    -- it has a kind, and the other ways to do nothing are those of other kinds
    | kindless hkind' | refused hkind' | empty hkind' | flawed hkind' =>
      cases hkind'.symm.trans hkind

/-- **An include step gets to its case:** the case is there, public, and not being run already, and
loading it has not failed. -/
structure Accepts (o : Outside ρ) (h : History) (r : StepResult) (id : Int) (record : CaseRecord) :
    Prop where
  includedCase : h.step.includedCase = some id
  found : o.library.find? id = some record
  shared : record.visibility = .shared
  /-- A case without steps is not entered. -/
  entered : record.steps ≠ [] → id ∉ h.before.including
  loaded : ∀ reason, r.error ≠ some (Fault.execution (.caseNotLoaded id reason)).message

end History

/-! #### How messages begin -/

theorem String.head?_append {s t : String} {c : Char} (h : s.toList.head? = some c) :
    (s ++ t).toList.head? = some c := by
  rw [String.toList_append, List.head?_append, h]
  rfl

/-- The message of a case that could not be loaded is told from others by its first letter. -/
theorem Fault.head?_caseNotLoaded (id : Int) (reason : String) :
    (Fault.execution (.caseNotLoaded id reason)).message.toList.head? = some 'f' :=
  String.head?_append (String.head?_append (String.head?_append (by decide)))

theorem Fault.head?_childFailed (container : String) :
    (Fault.execution (.childFailed container)).message.toList.head? = some 'o' :=
  String.head?_append (String.head?_append (by decide))

theorem Fault.head?_aborted (cause : Abort) :
    (Fault.aborted cause).message.toList.head? = some 'c' :=
  String.head?_append (by decide)

/-- What comes of the steps of a case does not read like a failure to load it. -/
theorem Ending.ofOutcome_loaded (container : String) (outcome : Option ChildrenOutcome) (id : Int)
    (reason : String) : (ofOutcome container outcome).fault?.map Fault.message ≠
      some (Fault.execution (.caseNotLoaded id reason)).message := by
  have different : ∀ {fault : Fault} {c : Char}, fault.message.toList.head? = some c → c ≠ 'f' →
      some fault.message ≠ some (Fault.execution (.caseNotLoaded id reason)).message := by
    intro fault c hhead hc hequal
    rw [Option.some.inj hequal, Fault.head?_caseNotLoaded] at hhead
    exact hc (Option.some.inj hhead).symm
  rcases outcome with _ | _ | _ | _
  · exact (Option.some_ne_none _).symm
  · exact (Option.some_ne_none _).symm
  · exact different (Fault.head?_childFailed container) (by decide)
  · exact different (Fault.head?_aborted _) (by decide)

namespace History

variable {h : History} {r : StepResult}

/-- An include step that is refused has not got to a case. -/
theorem Accepts.not_refused {id : Int} {record : CaseRecord} (ha : h.Accepts o r id record)
    (hs : h.Sound o) {fault : Fault} (herror : r.error = some fault.message) :
    ¬ h.opening.Refuses o h.step.toStepFields fault := by
  -- each reason for a refusal is against one of the clauses
  intro hrefuses
  have same : ∀ {id'}, h.step.includedCase = some id' → id' = id :=
    fun hid => Option.some.inj (hid.symm.trans ha.includedCase)
  cases hrefuses with
  | unnamed hid => cases hid.symm.trans ha.includedCase
  | unloaded hid _ =>
    obtain rfl := same hid
    exact ha.loaded _ herror
  | unknown hid hunknown =>
    obtain rfl := same hid
    cases hunknown.symm.trans ha.found
  | restricted hid hfound hrestricted =>
    obtain rfl := same hid
    obtain rfl := Option.some.inj (hfound.symm.trans ha.found)
    cases hrestricted.symm.trans ha.shared
  | running hid hfound _ hsteps hmem =>
    obtain rfl := same hid
    obtain rfl := Option.some.inj (hfound.symm.trans ha.found)
    have hopening : h.opening.including = h.before.including :=
      (congrArg Context.including hs.opening :)
    exact ha.entered hsteps (hopening ▸ hmem)

/-- **An include step** runs the steps of the case that it gets to, and nothing otherwise. -/
theorem Sound.included (hs : h.Everywhere (Sound o)) (hr : h.result = some r)
    (hkind : h.step.declaredKind = .ok .inclusion) :
    (∃ id record, h.Accepts o r id record ∧ h.Ran record.steps) ∨
      ((∀ id record, ¬ h.Accepts o r id record) ∧ h.children = []) := by
  obtain ⟨events, ending, hcourse, hfollows, hhistories, hconcluded⟩ := hs.here.course
  have hend := hconcluded r hr
  cases hcourse with
  | pass hkind' hplain =>
    obtain rfl := Except.ok.inj (hkind'.symm.trans hkind)
    simp [StepKind.IsPlain] at hplain
  | rounds hkind' => cases hkind'.symm.trans hkind
  | @visit id record _ outcome _ hid hfound hshared _ hpass =>
    -- the case is entered first, so it was not on the stack
    obtain ⟨inside, ⟨hnew, -⟩, -⟩ := hfollows
    have hopening : h.opening.including = h.before.including :=
      (congrArg Context.including hs.here.opening :)
    rw [Event.histories_visit] at hhistories
    refine .inl ⟨id, record, ⟨hid, hfound, hshared, fun _ => hopening ▸ hnew, fun reason => ?_⟩,
      _, outcome, _, hhistories ▸ hpass, hconcluded⟩
    rw [hend.error]
    exact Ending.ofOutcome_loaded _ outcome id reason
  | idle hidle =>
    cases hidle with
    | refused _ hrefuses =>
      exact .inr ⟨fun id record ha => ha.not_refused hs.here hend.error hrefuses, hhistories.symm⟩
    | @empty id record _ hid hfound hshared hsteps =>
      -- no step is run, which is a passage through the steps of a case that has none
      have hpass : Passage false (Step.ordered record.steps) h.children (some .passed) := by
        rw [hsteps, Step.ordered_nil, ← hhistories]
        exact .done
      refine .inl ⟨id, record,
        ⟨hid, hfound, hshared, fun hne => absurd hsteps hne, fun reason => ?_⟩,
        "included case", _, _, hpass, hconcluded⟩
      rw [hend.error]
      exact (Option.some_ne_none _).symm
    | leaf hkind' hleaf =>
      obtain rfl := Except.ok.inj (hkind'.symm.trans hkind)
      simp [StepKind.IsLeaf] at hleaf
    | kindless hkind' | undecided hkind' | declined hkind' | flawed hkind' =>
      cases hkind'.symm.trans hkind

/-! ### Complete results -/

/-- **A result is complete:** for each step that its step owes a result there is one below it. -/
structure Complete (o : Outside ρ) (h : History) (r : StepResult) : Prop where
  group : ∀ kind, h.step.declaredKind = .ok kind → kind = .group ∨ kind = .tcp ∨ kind = .database →
    r.aborted = false → RanEach h.step.children h.children r.children
  /-- A condition step owes its children a result if its predicate holds, -/
  met : h.step.declaredKind = .ok .condition →
    h.opening.branches h.step.toStepFields = .ok true →
    r.aborted = false → RanEach h.step.children h.children r.children
  /-- and nothing if it does not hold, or cannot be evaluated. -/
  unmet : h.step.declaredKind = .ok .condition →
    h.opening.branches h.step.toStepFields ≠ .ok true → h.children = [] ∧ r.children = []
  /-- An include step owes a result to the steps of the case that it gets to. -/
  accepted : ∀ id record, h.step.declaredKind = .ok .inclusion → h.Accepts o r id record →
    r.aborted = false → RanEach record.steps h.children r.children
  refused : h.step.declaredKind = .ok .inclusion → (∀ id record, ¬ h.Accepts o r id record) →
    h.children = [] ∧ r.children = []

/-- Steps that were run one after the other were all run, unless the case ended in one of them. -/
theorem Ran.ranEach {steps : List Step} (hran : h.Ran steps) (hs : h.Everywhere (Sound o))
    (hr : h.result = some r) (ha : r.aborted = false) : RanEach steps h.children r.children := by
  obtain ⟨container, outcome, events, hpass, hconcluded⟩ := hran
  have hend := hconcluded r hr
  have hne := Ending.ofOutcome_ne_crashed.mp hend.ended
  have haborted : outcome ≠ some .aborted := by
    intro houtcome
    rw [hend.aborted, Ending.ofOutcome_aborts.mpr houtcome] at ha
    cases ha
  have houtcome : outcome = some .passed ∨ outcome = some .failed := by
    rcases outcome with _ | _ | _ | _ <;> simp_all
  rw [hend.children]
  exact hpass.ranEach houtcome fun g hg => (hs.children g hg).here

/-- A step that ran nothing has no results below it. -/
theorem Sound.no_children (hs : h.Sound o) (hr : h.result = some r) (hnil : h.children = []) :
    h.children = [] ∧ r.children = [] := by
  obtain ⟨events, ending, -, -, -, hconcluded⟩ := hs.course
  refine ⟨hnil, ?_⟩
  rw [(hconcluded r hr).children, hnil, List.filterMap_nil]

/-- **The result of every step is complete.** -/
theorem Everywhere.complete (hs : h.Everywhere (Sound o)) (hr : h.result = some r) :
    h.Complete o r where
  group kind hkind hgroup ha := (hs.here.ran hkind hgroup).ranEach hs hr ha
  met hkind hholds ha := by
    rcases hs.here.branched hkind with ⟨-, hran⟩ | ⟨hno, -⟩
    · exact hran.ranEach hs hr ha
    · exact absurd hholds hno
  unmet hkind hno := by
    rcases hs.here.branched hkind with ⟨hholds, -⟩ | ⟨-, hnil⟩
    · exact absurd hholds hno
    · exact hs.here.no_children hr hnil
  accepted id record hkind haccepts ha := by
    rcases Sound.included hs hr hkind with ⟨id', record', haccepts', hran⟩ | ⟨hno, -⟩
    -- there is only one case that an include step can get to
    · obtain rfl := Option.some.inj (haccepts.includedCase.symm.trans haccepts'.includedCase)
      obtain rfl := Option.some.inj (haccepts.found.symm.trans haccepts'.found)
      exact hran.ranEach hs hr ha
    · exact absurd haccepts (hno id record)
  refused hkind hno := by
    rcases Sound.included hs hr hkind with ⟨id, record, haccepts, -⟩ | ⟨-, hnil⟩
    · exact absurd haccepts (hno id record)
    · exact hs.here.no_children hr hnil

end History

/-! ### Runs of cases -/

/-- **Nothing is left out.** In every run of a case, also in one that breaks down, the result of
every step that was left is complete. If the run gives results and none of its roots is aborted,
there is one for each root. -/
theorem runCase_complete {ρ σ : Type} (w : World ρ σ) (case : CaseHeader) (steps : List Step)
    (options : RunOptions) (client : Option Http.Client) (outside : ρ) (records : σ) :
    let roots := runHistories w case steps options client outside records
    (∀ h ∈ roots, h.Everywhere fun k => ∀ r, k.result = some r → k.Complete w.toOutside r) ∧
      ∀ finished run, runCase w case steps options client outside records = .ok finished →
        finished.outcome = .ok run → List.Forall₂ History.Yields roots run.results ∧
          ((∀ r ∈ run.results, r.aborted = false) → RanEach steps roots run.results) := by
  intro roots
  have hsound : ∀ h ∈ roots, h.Everywhere (History.Sound w.toOutside) :=
    fun h hh => (runHistories_sound w h hh).1
  refine ⟨fun h hh => (hsound h hh).each fun k hk r hr => hk.complete hr,
    fun finished run hfinished hrun => ⟨runHistories_yield w hfinished hrun, fun hnone => ?_⟩⟩
  obtain ⟨⟨outcome, hpass⟩, hresults⟩ := runCase_ran w hfinished hrun
  rw [hresults] at hnone ⊢
  -- a passage of roots that ended in an abort has an aborted root
  have houtcome : outcome ≠ .aborted := by
    rintro rfl
    obtain ⟨g, hg, r, hr, ha⟩ := hpass.exists_aborted rfl
    have hno := hnone r (List.mem_filterMap.mpr ⟨g, List.mem_of_getLast? hg, hr⟩)
    cases ha.symm.trans hno
  refine hpass.ranEach ?_ fun g hg => (hsound g hg).here
  cases outcome <;> simp_all

end Scenario
