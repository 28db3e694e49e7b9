import Mathlib.Logic.Relation
import Scenario.Proofs.Completeness
import Scenario.Proofs.Kin.Steps
import Scenario.Proofs.Structure

/-!
# Parts of a forest

A forest falls into early and late roots. Each part is a forest of its own, and the early part is run
before the late one.

* `validate_part`, `Step.ordered_parts` — a part of a good forest is good, and the early roots run
  before the late ones.
* `Step.Touches` — the keys that may be run from a step, in the cases that it may include, too.
* `Splits` — a good forest falls into parts that are run one after the other and touch no key in
  common.
-/

namespace Scenario

/-! ### Parts of a forest -/

namespace Structure

/-- A part of a list of siblings is good if the list is. -/
theorem siblingErrors_part {parent : Option String} {path : List String} {seen : List Int}
    {part steps : List Step} (h : part.Sublist steps)
    (hnone : siblingErrors parent path seen steps = []) :
    siblingErrors parent path seen part = [] := by
  obtain ⟨hnumbers, hfree, hsteps⟩ := siblingErrors_eq_nil_iff.mp hnone
  exact siblingErrors_eq_nil_iff.mpr ⟨hnumbers.sublist (h.filterMap _),
    fun step hstep => hfree step (h.subset hstep), fun step hstep => hsteps step (h.subset hstep)⟩

end Structure

theorem validate_eq_ok_iff {steps : List Step} :
    validate steps = .ok () ↔ structuralErrors steps = [] := by
  unfold validate
  cases structuralErrors steps <;> simp

/-- **A part of a good forest** is good. -/
theorem validate_part {part steps : List Step} (h : part.Sublist steps)
    (hvalid : validate steps = .ok ()) : validate part = .ok () :=
  validate_eq_ok_iff.mpr (Structure.siblingErrors_part h (validate_eq_ok_iff.mp hvalid))

/-! ### Running order -/

/-- **Early roots** are run before the late ones. -/
theorem Step.ordered_parts {steps : List Step} {early : Step → Bool}
    (h : ∀ p ∈ steps, ∀ q ∈ steps, early p = true → early q = false → p.rank < q.rank) :
    Step.ordered steps = Step.ordered (steps.filter early) ++
      Step.ordered (steps.filter fun step => !early step) := by
  have hsteps := Step.ordered_sequence steps
  have hearly := Step.ordered_sequence (steps.filter early)
  have hlate := Step.ordered_sequence (steps.filter fun step => !early step)
  refine ascending_unique (fun step : Step => step.rank) hsteps.ascending ?_ fun n => ?_
  · refine List.pairwise_append.mpr ⟨hearly.ascending, hlate.ascending, fun p hp q hq => ?_⟩
    obtain ⟨hp, hpe⟩ := List.mem_filter.mp (hearly.perm.subset hp)
    obtain ⟨hq, hqe⟩ := List.mem_filter.mp (hlate.perm.subset hq)
    exact Int.le_of_lt (h p hp q hq hpe (by simpa using hqe))
  · rw [hsteps.stable, List.filter_append, hearly.stable, hlate.stable]
    -- the steps of one rank are all early or all late
    have hkind : ∃ b, ∀ q ∈ steps, q.rank = n → early q = b := by
      by_cases hn : ∃ p ∈ steps, p.rank = n
      · obtain ⟨p, hp, hpn⟩ := hn
        refine ⟨early p, fun q hq hqn => ?_⟩
        cases hpe : early p <;> cases hqe : early q
        · rfl
        · exact absurd (h q hq p hp hqe hpe) (by omega)
        · exact absurd (h p hp q hq hpe hqe) (by omega)
        · rfl
      · exact ⟨true, fun q hq hqn => absurd ⟨q, hq, hqn⟩ hn⟩
    obtain ⟨b, hb⟩ := hkind
    have hall : ∀ part : Step → Bool, (∀ q, early q = b → part q = true) →
        (steps.filter fun q => decide (q.rank = n) && part q) =
          steps.filter fun q => decide (q.rank = n) := by
      refine fun part hpart => List.filter_congr fun q hq => ?_
      by_cases hqn : q.rank = n
      · simp [hpart q (hb q hq hqn)]
      · simp [hqn]
    have hnone : ∀ part : Step → Bool, (∀ q, early q = b → part q = false) →
        (steps.filter fun q => decide (q.rank = n) && part q) = [] := by
      refine fun part hpart => List.filter_eq_nil_iff.mpr fun q hq => ?_
      by_cases hqn : q.rank = n
      · simp [hpart q (hb q hq hqn)]
      · simp [hqn]
    rw [List.filter_filter, List.filter_filter]
    cases b with
    | true => rw [hall early fun _ h => h, hnone _ fun _ h => by simp [h], List.append_nil]
    | false => rw [hnone early fun _ h => h, hall _ fun _ h => by simp [h], List.nil_append]

/-! ### What a step may touch -/

/-- **A step touches a key,** in certain cases, if it has that key or if a step has it that is run
below it or in a case that is included there. -/
def Step.Touches (library : Library) (including : List Int) (step : Step) (key : String) : Prop :=
  ∃ callee stack, Relation.ReflTransGen (Below library) (callee, stack) (step, including) ∧
    callee.key = key

/-- What a called step touches is touched by the caller. -/
theorem Below.touches {library : Library} {c step : Step} {stack including : List Int}
    {key : String} (h : Below library (c, stack) (step, including))
    (hc : c.Touches library stack key) : step.Touches library including key := by
  obtain ⟨callee, deep, hway, hkey⟩ := hc
  exact ⟨callee, deep, hway.tail h, hkey⟩

/-- A step touches its own key, and what the steps touch that it calls. -/
theorem Step.touches_iff {library : Library} {step : Step} {including : List Int} {key : String} :
    step.Touches library including key ↔ step.key = key ∨
      ∃ c stack, Below library (c, stack) (step, including) ∧ c.Touches library stack key := by
  constructor
  · rintro ⟨callee, stack, hway, hkey⟩
    rcases Relation.ReflTransGen.cases_tail hway with hself | ⟨⟨c, deep⟩, hway', hlast⟩
    · obtain ⟨rfl, -⟩ := Prod.mk.inj hself
      exact .inl hkey
    · exact .inr ⟨c, deep, hlast, callee, stack, hway', hkey⟩
  · rintro (rfl | ⟨c, stack, hbelow, hc⟩)
    · exact ⟨step, including, .refl, rfl⟩
    · exact hbelow.touches hc

/-- Steps that touch shared keys only fit, in two runs that are in the same cases. -/
theorem Library.fits_touching (library : Library) (shared : String → Prop) :
    Fits library shared fun left right step =>
      left = right ∧ ∀ key, step.Touches library left key → shared key where
  key {_ _ step} h := h.2 _ ⟨step, _, .refl, rfl⟩
  child h c hc := ⟨h.1, fun key hkey => h.2 key (Below.touches (.child hc) hkey)⟩
  inclusion {left right step} h hkind id record hid hrecord hshared := by
    obtain ⟨rfl, hkeys⟩ := h
    by_cases hmem : id ∈ left
    · exact .inl ⟨hmem, rfl⟩
    · exact .inr ⟨hmem, hmem, fun c hc => ⟨rfl, fun key hkey =>
        hkeys key (Below.touches (.included hkind hid hrecord hshared hmem hc) hkey)⟩⟩

/-! ### Splits -/

/-- The steps of a part of a case touch a key. -/
def Library.Touched (library : Library) (case : CaseHeader) (part : List Step) (key : String) :
    Prop :=
  ∃ step ∈ part, step.Touches library case.id.toList key

/-- **A good forest falls into early roots and late ones,** if the early ones are ranked before the
late ones and no key is touched by both. -/
structure Splits (library : Library) (case : CaseHeader) (steps : List Step)
    (early : Step → Bool) : Prop where
  valid : validate steps = .ok ()
  before : ∀ p ∈ steps, ∀ q ∈ steps, early p = true → early q = false → p.rank < q.rank
  apart : ∀ key, ¬ (library.Touched case (steps.filter early) key ∧
    library.Touched case (steps.filter fun step => !early step) key)

namespace Splits

variable {library : Library} {case : CaseHeader} {steps : List Step} {early : Step → Bool}

theorem valid_early (h : Splits library case steps early) : validate (steps.filter early) = .ok () :=
  validate_part List.filter_sublist h.valid

theorem valid_late (h : Splits library case steps early) :
    validate (steps.filter fun step => !early step) = .ok () :=
  validate_part List.filter_sublist h.valid

end Splits

end Scenario
