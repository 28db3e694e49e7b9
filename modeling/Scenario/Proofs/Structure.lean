import Mathlib.Data.List.DropRight
import Scenario.Rule
import Scenario.Structure

/-!
# Well-formed forests

The gate reports no violation if and only if every step of the forest, at every depth, is in its
place: it declares a kind that is known, has children only if they are run, and is not inside a step
of its key; and no two siblings have one number.

* `Step.Within` — a step stands in a forest, with the steps around it.
* `Step.WellFormed` — what is asked of a forest, step by step.
* `siblingErrors_eq_nil_iff` — what one walk over a list of siblings finds.
* `structuralErrors_eq_nil_iff` — **the gate is exact.** That a good forest passes is by induction
  on the size of a step, that a forest that passes is good by induction on where a step stands.
* `Step.WellFormed.declaredKind` — the kind of every step of a good forest is known when it runs.
-/

namespace Scenario

/-! ### Blanks -/

namespace Text

/-- Cutting blanks off a second time changes nothing. -/
theorem trim_trim (text : String) : trim (trim text) = trim text := by
  have hfirst : (trimList text.toList).dropWhile isBlank = trimList text.toList := by
    rw [List.dropWhile_eq_self_iff]
    intro hlength hblank
    -- the first character was the first one behind the blanks
    have hkept : (text.toList.dropWhile isBlank).head? = some (trimList text.toList)[0] := by
      obtain ⟨blanks, hblanks⟩ := List.rdropWhile_prefix isBlank (text.toList.dropWhile isBlank)
      have hlast : (trimList text.toList).head? = some (trimList text.toList)[0] := by
        rw [List.head?_eq_getElem?, List.getElem?_eq_getElem hlength]
      rw [← hblanks, List.head?_append]
      exact congrArg (Option.or · _) hlast
    have hhead := List.head?_dropWhile_not isBlank text.toList
    rw [hkept] at hhead
    exact absurd hblank (by simpa using hhead)
  rw [trim, trim, String.toList_ofList, trimList, trimStartList, hfirst]
  exact congrArg String.ofList (List.rdropWhile_idempotent isBlank _)

/-- A text of blanks is what is cut down to nothing. -/
theorem isAllBlank_iff {text : String} : isAllBlank text = true ↔ trim text = "" := by
  rw [isAllBlank, List.all_eq_true, trim, ← String.ofList_nil, String.ofList_inj]
  refine Iff.trans ?_ (List.rdropWhile_eq_nil_iff (p := isBlank)).symm
  constructor
  · intro hall c hc
    exact hall c ((List.dropWhile_suffix isBlank).subset hc)
  · intro hkept
    -- what stands behind the leading blanks does not begin with one
    have hnone : text.toList.dropWhile isBlank = [] := by
      have hhead := List.head?_dropWhile_not isBlank text.toList
      cases hrest : text.toList.dropWhile isBlank with
      | nil => rfl
      | cons c rest =>
        have hc : isBlank c = true := hkept c (by
          rw [trimStartList, hrest]
          exact List.mem_cons_self)
        rw [hrest] at hhead
        exact absurd hc (by simpa using hhead)
    exact List.dropWhile_eq_nil_iff.mp hnone

end Text

/-- Blanks around the spelling of a kind do not count. -/
theorem StepKind.ofText?_trim (text : String) :
    StepKind.ofText? (Text.trim text) = StepKind.ofText? text := by
  rw [ofText?, spelledAs?, Text.trim_trim]
  rfl

/-! ### What is asked of a forest -/

namespace Step

/-- **A step stands in a forest,** below the steps around it, the outermost first. -/
inductive Within (forest : List Step) : List Step → Step → Prop
  | root {step : Step} : step ∈ forest → Within forest [] step
  | child {around : List Step} {parent step : Step} : Within forest around parent →
    step ∈ parent.children → Within forest (around ++ [parent]) step

/-- Whether a list of siblings has every number at most once. A step may have none. -/
def NumbersApart (siblings : List Step) : Prop :=
  (siblings.filterMap fun step => step.number).Nodup

/-- **What is asked of a step** inside of others. -/
structure WellPlaced (around : List Step) (step : Step) : Prop where
  kind : ∃ declared, step.kind = some declared ∧ Text.trim declared ≠ "" ∧
    (StepKind.ofText? (Text.trim declared)).isSome
  parent : step.children ≠ [] →
    step.kind? = some .condition ∨ step.kind? = some .loop ∨ step.kind? = some .group
  apart : step.code.isSome → ∀ ancestor ∈ around, ancestor.key ≠ step.key
  numbers : NumbersApart step.children

/-- **What is asked of a forest.** -/
structure WellFormed (forest : List Step) : Prop where
  numbers : NumbersApart forest
  steps : ∀ around step, Within forest around step → WellPlaced around step

end Step

/-! ### What the walk finds -/

namespace Structure

theorem kindErrors_eq_nil_iff {step : StepFields} :
    kindErrors step = [] ↔ ∃ declared, step.kind = some declared ∧ Text.trim declared ≠ "" ∧
      (StepKind.ofText? (Text.trim declared)).isSome := by
  unfold kindErrors
  cases step.kind with
  | none => simp
  | some declared =>
    by_cases hempty : Text.trim declared = ""
    · simp [hempty]
    · cases hkind : StepKind.ofText? (Text.trim declared) <;> simp [hempty, hkind]

theorem parentErrors_eq_nil_iff {step : StepFields} {hasChildren : Bool}
    (hkind : step.kind?.isSome) :
    parentErrors step hasChildren = [] ↔ (hasChildren = true →
      step.kind? = some .condition ∨ step.kind? = some .loop ∨ step.kind? = some .group) := by
  obtain ⟨kind, hkind⟩ := Option.isSome_iff_exists.mp hkind
  rw [parentErrors, hkind]
  cases hasChildren with
  | false => simp
  | true => cases kind <;> simp [StepKind.allowsChildren]

theorem numberErrors_eq_nil_iff {parent : Option String} {seen : List Int} {number : Option Int} :
    numberErrors parent seen number = [] ↔ ∀ n, number = some n → n ∉ seen := by
  cases number with
  | none => simp [numberErrors]
  | some n => simp [numberErrors]

/-- **A list of siblings** is good if their numbers are apart from each other and from those before,
and each step is good by itself. -/
theorem siblingErrors_eq_nil_iff {parent : Option String} {path : List String} {seen : List Int}
    {steps : List Step} :
    siblingErrors parent path seen steps = [] ↔ Step.NumbersApart steps ∧
      (∀ step ∈ steps, ∀ n, step.number = some n → n ∉ seen) ∧
      ∀ step ∈ steps, stepErrors path step = [] := by
  induction steps generalizing seen with
  | nil => simp [siblingErrors, Step.NumbersApart]
  | cons step rest ih =>
    obtain ⟨fields, children⟩ := step
    rw [siblingErrors, List.append_eq_nil_iff, List.append_eq_nil_iff, ih, numberErrors_eq_nil_iff,
      List.forall_mem_cons, List.forall_mem_cons]
    -- the number of the first step is among those before the rest
    have hapart : Step.NumbersApart (⟨fields, children⟩ :: rest) ↔ Step.NumbersApart rest ∧
        ∀ step ∈ rest, ∀ n, step.number = some n → n ∉ fields.number.toList := by
      cases hnumber : fields.number with
      | none => simp [Step.NumbersApart, hnumber]
      | some n =>
        simp only [Step.NumbersApart, List.filterMap_cons, hnumber, List.nodup_cons,
          List.mem_filterMap, Option.toList_some, List.mem_singleton]
        constructor
        · rintro ⟨hfresh, hrest⟩
          exact ⟨hrest, fun step hstep m hm hsame => hfresh ⟨step, hstep, hsame ▸ hm⟩⟩
        · rintro ⟨hrest, hfresh⟩
          refine ⟨?_, hrest⟩
          rintro ⟨step, hstep, hm⟩
          exact hfresh step hstep n hm rfl
    rw [hapart]
    simp only [List.mem_append, not_or]
    constructor
    · rintro ⟨⟨hown, hstep⟩, hrest, hfree, hall⟩
      exact ⟨⟨hrest, fun step hs n hn => (hfree step hs n hn).1⟩,
        ⟨hown, fun step hs n hn => (hfree step hs n hn).2⟩, hstep, hall⟩
    · rintro ⟨⟨hrest, hfresh⟩, ⟨hown, hfree⟩, hstep, hall⟩
      exact ⟨⟨hown, hstep⟩, hrest,
        fun step hs n hn => ⟨hfresh step hs n hn, hfree step hs n hn⟩, hall⟩

/-- **A step** is good if it is so by itself and below it. -/
theorem stepErrors_eq_nil_iff {path : List String} {step : Step} :
    stepErrors path step = [] ↔
      (∃ declared, step.kind = some declared ∧ Text.trim declared ≠ "" ∧
        (StepKind.ofText? (Text.trim declared)).isSome) ∧
      (step.children ≠ [] →
        step.kind? = some .condition ∨ step.kind? = some .loop ∨ step.kind? = some .group) ∧
      (step.code.isSome → step.key ∉ path) ∧ Step.NumbersApart step.children ∧
      ∀ child ∈ step.children, stepErrors (path ++ [step.key]) child = [] := by
  obtain ⟨fields, children⟩ := step
  by_cases hkind : kindErrors fields = []
  · have hknown : fields.kind?.isSome := by
      obtain ⟨declared, hdeclared, -, hknown⟩ := kindErrors_eq_nil_iff.mp hkind
      rwa [StepFields.kind?, hdeclared, Option.bind_some, ← StepKind.ofText?_trim]
    have hbelow : siblingErrors (some fields.key) (path ++ [fields.key]) [] children = [] ↔
        Step.NumbersApart children ∧
          ∀ child ∈ children, stepErrors (path ++ [fields.key]) child = [] := by
      simp [siblingErrors_eq_nil_iff]
    have hchildren : (!children.isEmpty) = true ↔ children ≠ [] := by simp
    rw [stepErrors, ← kindErrors_eq_nil_iff, ← hchildren, ← parentErrors_eq_nil_iff hknown]
    dsimp only
    -- a step that stands in itself by its code is not looked below
    by_cases hinside : fields.code.isSome = true ∧ fields.key ∈ path
    · rw [if_pos (by simpa using hinside)]
      simp [hinside.1, hinside.2]
    · have houtside : fields.code.isSome = true → fields.key ∉ path :=
        fun hcode hmem => hinside ⟨hcode, hmem⟩
      rw [if_neg (by simpa using hinside), List.append_eq_nil_iff, List.append_eq_nil_iff, hbelow,
        and_assoc, and_iff_right houtside]
  -- a step of no known kind is not good, whatever it is otherwise
  · have hnone := mt kindErrors_eq_nil_iff.mpr hkind
    rw [stepErrors]
    dsimp only
    split <;> simp [hkind, hnone]

end Structure

/-! ### The gate -/

namespace Step

variable {forest : List Step}

/-- Wherever a step stands in a forest without violations, it is good by itself and below it. -/
theorem Within.stepErrors {around : List Step} {step : Step} (h : Within forest around step)
    (hnone : structuralErrors forest = []) :
    Structure.stepErrors (around.map fun step => step.key) step = [] := by
  induction h with
  | root hmem => exact (Structure.siblingErrors_eq_nil_iff.mp hnone).2.2 _ hmem
  | child _ hchild ih =>
    rw [List.map_append]
    exact (Structure.stepErrors_eq_nil_iff.mp ih).2.2.2.2 _ hchild

/-- In a well-formed forest no step has violations, wherever it stands. -/
theorem WellFormed.stepErrors (h : WellFormed forest) {around : List Step} {step : Step}
    (hstep : Within forest around step) :
    Structure.stepErrors (around.map fun step => step.key) step = [] := by
  obtain ⟨hkind, hparent, hapart, hnumbers⟩ := h.steps around step hstep
  refine Structure.stepErrors_eq_nil_iff.mpr ⟨hkind, hparent, fun hcode hmem => ?_, hnumbers, ?_⟩
  · obtain ⟨ancestor, hancestor, hkey⟩ := List.mem_map.mp hmem
    exact hapart hcode ancestor hancestor hkey
  · intro child hchild
    -- the steps below are smaller
    have := sizeOf_child hchild
    simpa using h.stepErrors (hstep.child hchild)
termination_by sizeOf step

end Step

/-- **The gate is exact.** -/
theorem structuralErrors_eq_nil_iff {forest : List Step} :
    structuralErrors forest = [] ↔ Step.WellFormed forest := by
  constructor
  · intro hnone
    refine ⟨(Structure.siblingErrors_eq_nil_iff.mp hnone).1, fun around step hstep => ?_⟩
    obtain ⟨hkind, hparent, hapart, hnumbers, -⟩ :=
      Structure.stepErrors_eq_nil_iff.mp (hstep.stepErrors hnone)
    exact ⟨hkind, hparent, fun hcode ancestor hancestor hkey =>
      hapart hcode (List.mem_map.mpr ⟨ancestor, hancestor, hkey⟩), hnumbers⟩
  · intro h
    refine Structure.siblingErrors_eq_nil_iff.mpr ⟨h.numbers, by simp, fun step hstep => ?_⟩
    exact h.stepErrors (.root hstep)

/-- **The kind of every step of a good forest is known** when it runs. -/
theorem Step.WellFormed.declaredKind {forest around : List Step} {step : Step}
    (h : WellFormed forest) (hstep : Within forest around step) :
    ∃ kind, step.declaredKind = .ok kind := by
  obtain ⟨declared, hdeclared, hfilled, hknown⟩ := (h.steps around step hstep).kind
  obtain ⟨kind, hkind⟩ := Option.isSome_iff_exists.mp hknown
  rw [StepKind.ofText?_trim] at hkind
  have hblank : ¬ Text.isAllBlank declared = true := mt Text.isAllBlank_iff.mp hfilled
  refine ⟨kind, ?_⟩
  rw [StepFields.declaredKind, hdeclared]
  dsimp only
  rw [if_neg hblank, hkind]

end Scenario
