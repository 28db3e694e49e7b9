import Mathlib.Data.List.Dedup
import Scenario.Proofs.Coupling.Step

/-!
# How deep inclusions go

An include step runs the steps of another case, which may include further cases, and so on in
circles. What stops this is the stack of the cases that are being run: a case on it is refused, so
every inclusion inside of another one takes a case from those that are left.

* `Library.loadable`, `Library.left` — the cases of a library, and those that are not being run.
* `Unwinds` — a family of ways to make steps ready of which each one runs included cases by the one
  before it. What the first one does is left open: it may be anything.
* `Unwinds.pairedCases` — two such families agree wherever both have an inclusion for every case
  that is left. The induction is over the cases that are left; the stack is the index of the
  coupling.
* `Step.run_unwound` — so a step is run alike by all of them, and none is ever asked for more
  inclusions than there are cases left. `Step.run_unique` — there is one way to run the steps of
  included cases that needs no depth at all.
-/

namespace Scenario

/-! ### The cases that are left -/

namespace Library

/-- The ids of the cases that can be included, each once. -/
def loadable (library : Library) : List Int :=
  (library.filterMap fun record => record.header.id).dedup

/-- The cases that can be included and are not being run. -/
def left (library : Library) (including : List Int) : List Int :=
  library.loadable.filter fun id => id ∉ including

variable {library : Library} {including : List Int} {id : Int} {record : CaseRecord}

theorem mem_loadable_of_find? (h : library.find? id = some record) : id ∈ library.loadable := by
  have hmem := List.mem_of_getLast? h
  obtain ⟨hrecord, hid⟩ := List.mem_filter.mp hmem
  exact List.mem_dedup.mpr (List.mem_filterMap.mpr ⟨record, hrecord, of_decide_eq_true hid⟩)

theorem loadable_nodup (library : Library) : library.loadable.Nodup := List.nodup_dedup _

theorem length_loadable_le (library : Library) : library.loadable.length ≤ library.length := by
  calc library.loadable.length
      ≤ (library.filterMap fun record => record.header.id).length :=
        (List.dedup_sublist _).length_le
    _ ≤ library.length := List.length_filterMap_le _ _

theorem length_left_le (library : Library) (including : List Int) :
    (library.left including).length ≤ library.length := by
  calc (library.left including).length
      ≤ library.loadable.length := List.length_filter_le _ _
    _ ≤ library.length := library.length_loadable_le

/-- **Running a case takes it from those that are left.** -/
theorem length_left_concat (h : id ∈ library.loadable) (hid : id ∉ including) :
    (library.left (including ++ [id])).length + 1 = (library.left including).length := by
  -- both lists name each case once, so they are compared by their members
  have hperm : (library.left including).Perm (id :: library.left (including ++ [id])) := by
    refine (List.perm_ext_iff_of_nodup ((loadable_nodup _).filter _) ?_).mpr fun x => ?_
    · refine List.nodup_cons.mpr ⟨fun hmem => ?_, (loadable_nodup _).filter _⟩
      simp [left] at hmem
    · by_cases hx : x = id
      · subst hx
        simp [left, h, hid]
      · simp [left, hx]
  exact hperm.length_eq.symm

/-- **Induction over the cases that are left:** what holds while certain cases are being run, if it
holds with each further one, holds always. -/
theorem left_induction (library : Library) {P : List Int → Prop}
    (step : ∀ including, (∀ id ∈ library.loadable, id ∉ including → P (including ++ [id])) →
      P including) (including : List Int) : P including := by
  -- by induction on how many cases are left; at none, no further case can be run
  induction hn : (library.left including).length generalizing including with
  | zero =>
    refine step including fun id hmem hid => ?_
    have := length_left_concat hmem hid
    omega
  | succ n ih =>
    refine step including fun id hmem hid => ih (including ++ [id]) ?_
    have := length_left_concat hmem hid
    omega

end Library

/-! ### Steps made ready -/

namespace Coupling

variable {ρ σ τ : Type} {w : World ρ σ} {r : Recorder τ} {K : Coupling w r} {including : List Int}
variable {ready : List Step → List (Ready ρ σ)} {ready' : List Step → List (Ready ρ τ)}

mutual

/-- **A step stays coupled,** if the steps of the cases that it may include do. -/
theorem step_paired (h : K.PairedCases including ready ready') : ∀ step : Step,
    K.Paired including (step.ready w ready) (step.ready (w.recordedBy r) ready')
  | ⟨fields, children⟩ => life fields fun _ => work h fields (steps_paired h children)

theorem steps_paired (h : K.PairedCases including ready ready') : ∀ steps : List Step,
    List.Forall₂ (K.Paired including) (Step.readyAll w ready steps)
      (Step.readyAll (w.recordedBy r) ready' steps)
  | [] => .nil
  | step :: rest => .cons (step_paired h step) (steps_paired h rest)

end

/-- A world is coupled with itself. -/
def same (w : World ρ σ) : Coupling w w.toRecorder where
  traces := Eq
  codes := Eq
  records := Eq
  note h n := congrArg (w.note n) h
  line := Context.logged_congr
  detail h step _ text result started :=
    coupled_eq_iff.mpr (congrArg (fun s => (s.log w text).recordDetail w step result started)
      (coupled_eq_iff.mp h))

theorem same_states {s t : RunState ρ σ} (h : (same w).states s t) : s = t :=
  coupled_eq_iff.mp h

/-- Steps that a world runs alike from every state with certain cases on the stack. -/
theorem run_eq {c d : Ready ρ σ} {s : RunState ρ σ}
    (h : (same w).Paired s.context.including c d) : c.run s = d.run s := by
  have hend := h.run s.context.key s s ⟨⟨.rfl, rfl, rfl, rfl, rfl⟩, rfl⟩
  generalize c.run s = x, d.run s = y at hend
  cases hend with
  | ok hst => rw [same_states hst.1]
  | crash hst => rw [same_states hst]

end Coupling

/-! ### Depth -/

section

variable {ρ σ τ : Type}

/-- **A family that unwinds inclusions:** each member but the first makes the steps of included
cases ready by the one before it. -/
def Unwinds (make : (List Step → List (Ready ρ σ)) → List Step → List (Ready ρ σ))
    (ready : Nat → List Step → List (Ready ρ σ)) : Prop :=
  ∀ depth steps, ready (depth + 1) steps = make (ready depth) steps

/-- **Two families agree** where both are deep enough for every case that is left, if what they make
of paired cases is paired. -/
theorem Unwinds.pairedCases {w : World ρ σ} {r : Recorder τ} {K : Coupling w r}
    {make : (List Step → List (Ready ρ σ)) → List Step → List (Ready ρ σ)}
    {make' : (List Step → List (Ready ρ τ)) → List Step → List (Ready ρ τ)}
    (hmake : ∀ {including ready ready'}, K.PairedCases including ready ready' → ∀ steps,
      List.Forall₂ (K.Paired including) (make ready steps) (make' ready' steps))
    {ready : Nat → List Step → List (Ready ρ σ)} {ready' : Nat → List Step → List (Ready ρ τ)}
    (h : Unwinds make ready) (h' : Unwinds make' ready') (including : List Int)
    {depth depth' : Nat} (hd : (w.library.left including).length ≤ depth)
    (hd' : (w.library.left including).length ≤ depth') :
    K.PairedCases including (ready depth) (ready' depth') := by
  induction including using w.library.left_induction generalizing depth depth' with
  | _ including ih =>
    intro id record hrecord hid
    have hloadable := Library.mem_loadable_of_find? hrecord
    have hleft := Library.length_left_concat hloadable hid
    -- the case itself is one of those that are left, so neither family is at its bottom
    obtain ⟨d, rfl⟩ : ∃ d, depth = d + 1 := ⟨depth - 1, by omega⟩
    obtain ⟨d', rfl⟩ : ∃ d', depth' = d' + 1 := ⟨depth' - 1, by omega⟩
    rw [h, h']
    exact hmake (ih id hloadable hid (by omega) (by omega)) record.steps

theorem includedSteps_unwinds (w : World ρ σ) : Unwinds (Step.readyAll w) (includedSteps w) :=
  fun _ _ => rfl

/-- The steps of included cases stay coupled. -/
theorem Coupling.includedSteps_paired {w : World ρ σ} {r : Recorder τ} (K : Coupling w r)
    (including : List Int) :
    K.PairedCases including (includedSteps w w.library.length)
      (includedSteps (w.recordedBy r) w.library.length) :=
  Unwinds.pairedCases (fun h => steps_paired h) (includedSteps_unwinds w)
    (includedSteps_unwinds (w.recordedBy r)) including (w.library.length_left_le _)
    (w.library.length_left_le _)

/-- Every depth that is enough is as good as every other. -/
theorem Unwinds.same {w : World ρ σ} {ready ready' : Nat → List Step → List (Ready ρ σ)}
    (h : Unwinds (Step.readyAll w) ready) (h' : Unwinds (Step.readyAll w) ready')
    (including : List Int) {depth depth' : Nat}
    (hd : (w.library.left including).length ≤ depth)
    (hd' : (w.library.left including).length ≤ depth') :
    (Coupling.same w).PairedCases including (ready depth) (ready' depth') :=
  Unwinds.pairedCases (K := Coupling.same w) (fun h => Coupling.steps_paired h) h h' including
    hd hd'

variable (w : World ρ σ)

/-- **No depth is ever used up.** However deep inclusions are unwound, and whatever stands in for
the steps of a case at the bottom, a step runs alike if there is an inclusion for every case left.
-/
theorem Step.run_unwound {ready : Nat → List Step → List (Ready ρ σ)}
    (h : Unwinds (Step.readyAll w) ready) (step : Step) (s : RunState ρ σ) {depth : Nat}
    (hd : (w.library.left s.context.including).length ≤ depth) :
    (step.ready w (ready depth)).run s = step.run w s := by
  have cases := h.same (includedSteps_unwinds w) s.context.including hd
    (Library.length_left_le _ _)
  exact Coupling.run_eq (Coupling.step_paired cases step)

/-- The steps of a case, each run with as many inclusions as there may be. -/
def runnable (steps : List Step) : List (Ready ρ σ) :=
  steps.map fun step => ⟨step.toStepFields, step.run w⟩

theorem Step.ready_fields (included : List Step → List (Ready ρ σ)) (step : Step) :
    (step.ready w included).fields = step.toStepFields := by
  cases step
  rfl

theorem Step.readyAll_eq_map (included : List Step → List (Ready ρ σ)) (steps : List Step) :
    Step.readyAll w included steps = steps.map (Step.ready w included) := by
  induction steps with
  | nil => rfl
  | cons step rest ih => rw [Step.readyAll, ih, List.map_cons]

/-- Steps run by `Step.run` stand for the steps of included cases at any depth that is enough. -/
theorem runnable_pairedCases (including : List Int) :
    (Coupling.same w).PairedCases including (runnable w) (includedSteps w w.library.length) := by
  intro id record hrecord hid
  have hleft := Library.length_left_concat (Library.mem_loadable_of_find? hrecord) hid
  have hlib := w.library.length_left_le including
  -- there is a case, so the depth of `Step.run` is not used up by entering it
  obtain ⟨depth, hdepth⟩ : ∃ n, w.library.length = n + 1 := ⟨w.library.length - 1, by omega⟩
  have henough : (w.library.left (including ++ [id])).length ≤ depth := by omega
  have same := (includedSteps_unwinds w).same (includedSteps_unwinds w) _ henough henough
  rw [hdepth, includedSteps_unwinds, Step.readyAll_eq_map, runnable, List.forall₂_map_left_iff,
    List.forall₂_map_right_iff, List.forall₂_same]
  intro step _
  refine ⟨(Step.ready_fields w _ step).symm, fun key s t hst => ?_⟩
  have hincluding : s.context.including = including ++ [id] := Coupling.inside_including hst
  have hrun := Step.run_unwound w (includedSteps_unwinds w) step s (hincluding ▸ henough)
  change AlikeRun _ _ (step.run w s) _
  rw [← hrun]
  exact (Coupling.step_paired same step).run key s t hst

/-- **The recursion without a depth:** there is exactly one way to make the steps of included cases
ready by itself, and it runs each of them as `Step.run` does. -/
theorem Step.run_unique (included : List Step → List (Ready ρ σ)) :
    (∀ steps, included steps = Step.readyAll w included steps) ↔ included = runnable w := by
  have unwound : ∀ included : List Step → List (Ready ρ σ),
      (∀ steps, included steps = Step.readyAll w included steps) →
      ∀ steps, Step.readyAll w included steps = runnable w steps := by
    intro included h steps
    rw [Step.readyAll_eq_map, runnable]
    refine List.map_congr_left fun step _ => ?_
    -- what makes steps ready by itself is a family that is the same at every depth
    have hconst : Unwinds (Step.readyAll w) fun _ => included := fun _ => h
    have hrun : (step.ready w included).run = step.run w :=
      funext fun s => Step.run_unwound w hconst step s (Nat.le_refl _)
    rw [← hrun, ← Step.ready_fields w included step]
  constructor
  · intro h
    exact funext fun steps => (h steps).trans (unwound included h steps)
  · rintro rfl steps
    rw [Step.readyAll_eq_map, runnable]
    refine List.map_congr_left fun step _ => ?_
    have hrun : (step.ready w (runnable w)).run = step.run w :=
      funext fun s => Coupling.run_eq
        (Coupling.step_paired (runnable_pairedCases w s.context.including) step)
    rw [← hrun, ← Step.ready_fields w (runnable w) step]

end

end Scenario
