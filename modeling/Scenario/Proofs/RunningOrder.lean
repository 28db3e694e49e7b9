import Mathlib.Data.List.Forall2
import Mathlib.Data.List.Nodup
import Scenario.Step

/-!
# Running order

Siblings run by number: the list is sorted by rank, and steps of one rank stay as they stand. A step
without a number has the rank zero, the same as one with the number zero, so its place depends on
the numbers beside it.

* `orderedBy_perm`, `orderedBy_ascending`, `orderedBy_stable` — what sorting by a rank does;
  `ascending_unique` — no other list has all of that.
* `orderedBy_map`, `orderedBy_forall₂`, `orderedBy_eq_of_perm` — lists that have one order.
* `Step.UnnumberedFirst`, `Step.UnnumberedAtZero` — two places for the steps without a number:
  before all others, and where the number zero stands.
* `Step.UnnumberedAtZero.first_iff` — the second is the first exactly if the numbers give way,
  `Step.NumbersGiveWay`.
* `Step.ordered_byNumber` — running order is stable and ascending whatever the numbers are, and has
  the steps without one where the number zero stands.
-/

namespace Scenario

variable {α β : Type}

/-! ### Sorting by rank -/

section

variable (rank : α → Int)

/-- The test by which a list is sorted is transitive, and total. -/
theorem rank_le_trans (a b c : α) (hab : decide (rank a ≤ rank b) = true)
    (hbc : decide (rank b ≤ rank c) = true) : decide (rank a ≤ rank c) = true := by
  rw [decide_eq_true_eq] at *
  exact Int.le_trans hab hbc

theorem rank_le_total (a b : α) :
    (decide (rank a ≤ rank b) || decide (rank b ≤ rank a)) = true := by
  rw [Bool.or_eq_true, decide_eq_true_eq, decide_eq_true_eq]
  exact Int.le_total (rank a) (rank b)

/-- **Every item** is there once. -/
theorem orderedBy_perm (items : List α) : (orderedBy rank items).Perm items :=
  List.mergeSort_perm items _

@[simp] theorem mem_orderedBy {rank : α → Int} {item : α} {items : List α} :
    item ∈ orderedBy rank items ↔ item ∈ items :=
  (orderedBy_perm rank items).mem_iff

@[simp] theorem length_orderedBy {rank : α → Int} (items : List α) :
    (orderedBy rank items).length = items.length :=
  (orderedBy_perm rank items).length_eq

/-- The ranks ascend. -/
theorem orderedBy_ascending (items : List α) :
    (orderedBy rank items).Pairwise fun a b => rank a ≤ rank b :=
  (List.pairwise_mergeSort (rank_le_trans rank) (rank_le_total rank) items).imp
    fun h => of_decide_eq_true h

/-- Items whose ranks ascend are in order as they stand. -/
theorem orderedBy_of_ascending {items : List α} (h : items.Pairwise fun a b => rank a ≤ rank b) :
    orderedBy rank items = items :=
  List.mergeSort_of_pairwise (h.imp fun hab => decide_eq_true hab)

/-- **Items of one rank** stay as they stand. -/
theorem orderedBy_stable (items : List α) (n : Int) :
    ((orderedBy rank items).filter fun item => rank item = n) =
      items.filter fun item => rank item = n := by
  -- they are in order as they stand, so sorting has them among the rest as they stand
  have hequal : (items.filter fun item => rank item = n).Pairwise
      fun a b => decide (rank a ≤ rank b) = true := by
    refine List.pairwise_of_forall_mem_list fun a ha b hb => ?_
    have ha : rank a = n := by simpa using (List.mem_filter.mp ha).2
    have hb : rank b = n := by simpa using (List.mem_filter.mp hb).2
    rw [ha, hb]
    exact decide_eq_true (Int.le_refl n)
  have hsub := (List.sublist_mergeSort (rank_le_trans rank) (rank_le_total rank) hequal
    List.filter_sublist).filter fun item => decide (rank item = n)
  rw [List.filter_filter, List.filter_congr (fun _ _ => Bool.and_self _)] at hsub
  exact (hsub.eq_of_length ((orderedBy_perm rank items).filter _).length_eq.symm).symm

/-- A list in running order is known by the items of each rank. -/
theorem ascending_unique {as bs : List α}
    (ha : as.Pairwise fun a b => rank a ≤ rank b) (hb : bs.Pairwise fun a b => rank a ≤ rank b)
    (h : ∀ n, (as.filter fun a => rank a = n) = bs.filter fun b => rank b = n) : as = bs := by
  -- what is first in one list is also in the other one, so it is not ranked lower there
  have hfirst : ∀ {a b : α} {as bs : List α}, (a :: as).Pairwise (fun a b => rank a ≤ rank b) →
      ((a :: as).filter fun x => rank x = rank b) = ((b :: bs).filter fun x => rank x = rank b) →
      rank a ≤ rank b := by
    intro a b as bs ha h
    have hmem : b ∈ (a :: as).filter fun x => rank x = rank b := by
      rw [h]
      simp
    rcases List.mem_cons.mp (List.mem_filter.mp hmem).1 with rfl | hmem
    · exact Int.le_refl _
    · exact (List.pairwise_cons.mp ha).1 b hmem
  induction as generalizing bs with
  | nil =>
    cases bs with
    | nil => rfl
    | cons b bs => simpa using h (rank b)
  | cons a as ih =>
    cases bs with
    | nil => simpa using h (rank a)
    | cons b bs =>
      have hrank : rank a = rank b :=
        Int.le_antisymm (hfirst ha (h _)) (hfirst hb (h _).symm)
      have hsame := h (rank a)
      rw [List.filter_cons_of_pos (by simp), List.filter_cons_of_pos (by simp [hrank])] at hsame
      obtain rfl : a = b := (List.cons.inj hsame).1
      refine congrArg (a :: ·) (ih ha.of_cons hb.of_cons fun n => ?_)
      have hn := h n
      rw [List.filter_cons, List.filter_cons] at hn
      split at hn
      · exact (List.cons.inj hn).2
      · exact hn

end

/-! ### Lists of one order -/

section

variable {rank : α → Int} {rank' : β → Int}

/-- Items that take their ranks along are in the same order. -/
theorem orderedBy_map {f : α → β} {items : List α}
    (h : ∀ item ∈ items, rank' (f item) = rank item) :
    orderedBy rank' (items.map f) = (orderedBy rank items).map f := by
  refine (List.map_mergeSort fun a ha b hb => ?_).symm
  rw [h a ha, h b hb]

/-- Lists whose items are related one by one are still so in order, if related items have one
rank. -/
theorem orderedBy_forall₂ {R : α → β → Prop} (hrank : ∀ a b, R a b → rank a = rank' b)
    {xs : List α} {ys : List β} (h : List.Forall₂ R xs ys) :
    List.Forall₂ R (orderedBy rank xs) (orderedBy rank' ys) := by
  -- both lists are projections of one list of pairs, sorted once
  obtain ⟨pairs, rfl, rfl, hpairs⟩ : ∃ pairs : List (α × β),
      pairs.map Prod.fst = xs ∧ pairs.map Prod.snd = ys ∧ ∀ p ∈ pairs, R p.1 p.2 := by
    induction h with
    | nil => exact ⟨[], rfl, rfl, by simp⟩
    | @cons a b xs ys hab _ ih =>
      obtain ⟨pairs, rfl, rfl, hpairs⟩ := ih
      exact ⟨(a, b) :: pairs, rfl, rfl, List.forall_mem_cons.mpr ⟨hab, hpairs⟩⟩
  let sorted : List (α × β) := orderedBy (fun p => rank p.1) pairs
  have hfst : orderedBy rank (pairs.map Prod.fst) = sorted.map Prod.fst :=
    orderedBy_map fun _ _ => rfl
  have hsnd : orderedBy rank' (pairs.map Prod.snd) = sorted.map Prod.snd :=
    orderedBy_map fun p hp => (hrank _ _ (hpairs p hp)).symm
  rw [hfst, hsnd, List.forall₂_map_left_iff, List.forall₂_map_right_iff, List.forall₂_same]
  exact fun p hp => hpairs p (mem_orderedBy.mp hp)

/-- **Running order does not depend on how a list stands,** if its items have places of their
own. -/
theorem orderedBy_eq_of_perm {items items' : List α} (h : items.Perm items')
    (hapart : (items.map rank).Nodup) : orderedBy rank items = orderedBy rank items' := by
  refine List.Perm.eq_of_pairwise ?_ (orderedBy_ascending rank items)
    (orderedBy_ascending rank items')
    (((orderedBy_perm rank items).trans h).trans (orderedBy_perm rank items').symm)
  -- items of one place are one item
  intro a b ha hb hab hba
  exact List.inj_on_of_nodup_map hapart (mem_orderedBy.mp ha)
    (h.symm.subset (mem_orderedBy.mp hb)) (Int.le_antisymm hab hba)

end

/-! ### Siblings -/

namespace Step

@[simp] theorem ordered_nil : Step.ordered [] = [] := List.mergeSort_nil

theorem mem_ordered {step : Step} {steps : List Step} :
    step ∈ Step.ordered steps ↔ step ∈ steps := mem_orderedBy

theorem ordered_ne_nil {steps : List Step} (h : steps ≠ []) : Step.ordered steps ≠ [] := by
  obtain ⟨step, hstep⟩ := List.exists_mem_of_ne_nil steps h
  exact List.ne_nil_of_mem (mem_ordered.mpr hstep)

end Step

/-! ### Steps without a number -/

namespace Step

/-- **Steps without a number come first:** none of them is behind a step that has one. -/
def UnnumberedFirst (steps : List Step) : Prop :=
  steps.Pairwise fun a b => b.number = none → a.number = none

/-- **Steps without a number stand where the number zero does,** in a sequence that some steps are
brought into: behind the numbers below zero and before those above it, and among the steps with the
number zero as it was before. -/
structure UnnumberedAtZero (steps sequence : List Step) : Prop where
  between : sequence.Pairwise fun a b =>
    (a.number = none → ∀ n ∈ b.number, 0 ≤ n) ∧ (b.number = none → ∀ n ∈ a.number, n ≤ 0)
  among : (sequence.filter fun step => step.number = none ∨ step.number = some 0) =
    steps.filter fun step => step.number = none ∨ step.number = some 0

/-- **The numbers of a list give way** to the steps without one: beside such a step no number is
below zero, and no step with the number zero stands before it. -/
structure NumbersGiveWay (steps : List Step) : Prop where
  nonneg : ∀ a ∈ steps, a.number = none → ∀ b ∈ steps, ∀ n ∈ b.number, 0 ≤ n
  zeroBehind : steps.Pairwise fun a b => a.number = some 0 → b.number ≠ none

instance : DecidablePred UnnumberedFirst := fun steps =>
  inferInstanceAs (Decidable (steps.Pairwise fun a b => b.number = none → a.number = none))

instance : DecidablePred NumbersGiveWay := fun _ =>
  decidable_of_iff (_ ∧ _) ⟨fun h => ⟨h.1, h.2⟩, fun h => ⟨h.nonneg, h.zeroBehind⟩⟩

theorem rank_of_none {step : Step} (h : step.number = none) : step.rank = 0 := by
  rw [StepFields.rank, h]
  rfl

theorem rank_of_some {step : Step} {n : Int} (h : step.number = some n) : step.rank = n := by
  rw [StepFields.rank, h]
  rfl

theorem rank_eq_zero_iff {step : Step} :
    step.rank = 0 ↔ step.number = none ∨ step.number = some 0 := by
  cases h : step.number with
  | none => simp [rank_of_none h]
  | some n => simp [rank_of_some h]

/-- Steps of one number, and steps without one, stay as they stand. -/
theorem ordered_filter_number (steps : List Step) (number : Option Int) :
    ((Step.ordered steps).filter fun step => step.number = number) =
      steps.filter fun step => step.number = number := by
  -- they are among the steps of one rank
  have hamong : ∀ list : List Step, (list.filter fun step => step.number = number) =
      (list.filter fun step => step.rank = number.getD 0).filter fun step =>
        step.number = number := by
    intro list
    rw [List.filter_filter]
    refine List.filter_congr fun step _ => ?_
    by_cases hnumber : step.number = number
    · simp [hnumber, StepFields.rank]
    · simp [hnumber]
  rw [hamong, Step.ordered, orderedBy_stable, ← hamong]

/-- The numbers that there are ascend. -/
theorem ordered_numbers_ascending (steps : List Step) :
    ((Step.ordered steps).filterMap fun step => step.number).Pairwise (· ≤ ·) := by
  rw [List.pairwise_filterMap]
  refine (orderedBy_ascending _ steps).imp fun {a b} hab m hm n hn => ?_
  rwa [rank_of_some hm, rank_of_some hn] at hab

theorem ordered_unnumberedAtZero (steps : List Step) :
    UnnumberedAtZero steps (Step.ordered steps) := by
  constructor
  · refine (orderedBy_ascending _ steps).imp fun {a b} hab => ⟨fun ha n hn => ?_, fun hb n hn => ?_⟩
    · rwa [rank_of_none ha, rank_of_some hn] at hab
    · rwa [rank_of_some hn, rank_of_none hb] at hab
  · simp only [← rank_eq_zero_iff]
    exact orderedBy_stable _ steps 0

namespace UnnumberedAtZero

variable {steps sequence : List Step}

/-- If the steps without a number come first in the sequence, no number is below zero. -/
theorem nonneg (h : UnnumberedAtZero steps sequence) (hfirst : UnnumberedFirst sequence) :
    ∀ a ∈ sequence, a.number = none → ∀ b ∈ sequence, ∀ n ∈ b.number, 0 ≤ n := by
  let Fit (a b : Step) : Prop := a.number = none → ∀ n ∈ b.number, 0 ≤ n
  have hself : ∀ a ∈ sequence, Fit a a := fun a _ ha n hn => by
    rw [ha] at hn
    cases hn
  have hforward : sequence.Pairwise Fit := h.between.imp fun hab => hab.1
  -- and no step with a number is before one without
  have hbackward : sequence.Pairwise (flip Fit) := by
    refine List.Pairwise.imp (fun {a b} hab hb n hn => ?_) hfirst
    rw [hab hb] at hn
    cases hn
  exact fun a ha hnone b hb => hforward.forall_of_forall_of_flip hself hbackward ha hb hnone

/-- Each step of rank zero has the same steps of rank zero behind it, in the list and in the
sequence. -/
theorem pairwise_iff (h : UnnumberedAtZero steps sequence) {R : Step → Step → Prop} :
    (sequence.Pairwise fun a b => a.rank = 0 → b.rank = 0 → R a b) ↔
      steps.Pairwise fun a b => a.rank = 0 → b.rank = 0 → R a b := by
  have hfilter : ∀ list : List Step, (list.Pairwise fun a b => a.rank = 0 → b.rank = 0 → R a b) ↔
      (list.filter fun step => step.number = none ∨ step.number = some 0).Pairwise R := by
    intro list
    simp only [List.pairwise_filter, decide_eq_true_eq, rank_eq_zero_iff]
  rw [hfilter, hfilter, h.among]

/-- **They come first** exactly if the numbers give way to them. -/
theorem first_iff (h : UnnumberedAtZero steps sequence) (hperm : sequence.Perm steps) :
    UnnumberedFirst sequence ↔ NumbersGiveWay steps := by
  constructor
  · intro hfirst
    refine ⟨fun a ha hnone b hb => h.nonneg hfirst a (hperm.mem_iff.mpr ha) hnone b
      (hperm.mem_iff.mpr hb), ?_⟩
    have hstanding := h.pairwise_iff.mp (hfirst.imp fun hab _ _ => hab)
    refine hstanding.imp fun {a b} hab ha hb => ?_
    have hnone := hab (rank_of_some ha) (rank_of_none hb) hb
    rw [ha] at hnone
    cases hnone
  · intro hway
    have hstanding := h.pairwise_iff.mpr (hway.zeroBehind.imp fun hab _ _ => hab)
    -- a step before one without a number has no number above zero, and it has none below
    refine (h.between.and hstanding).imp_of_mem fun {a b} ha hb hab hnone => ?_
    obtain ⟨⟨-, hle⟩, hapart⟩ := hab
    cases hnumber : a.number with
    | none => rfl
    | some n =>
      have hn : 0 ≤ n := hway.nonneg b (hperm.subset hb) hnone a (hperm.subset ha) n hnumber
      obtain rfl : n = 0 := Int.le_antisymm (hle hnone n hnumber) hn
      exact absurd hnone (hapart (rank_of_some hnumber) (rank_of_none hnone) hnumber)

end UnnumberedAtZero

/-- **Running order by number.** Every step of the list is there once; steps of one number, and
those without one, stay as they stand; the numbers ascend; and the steps without a number stand
where the number zero does, so that they come first if and only if the numbers give way. -/
theorem ordered_byNumber (steps : List Step) :
    (Step.ordered steps).Perm steps ∧
      (∀ number : Option Int, ((Step.ordered steps).filter fun step => step.number = number) =
        steps.filter fun step => step.number = number) ∧
      ((Step.ordered steps).filterMap fun step => step.number).Pairwise (· ≤ ·) ∧
      UnnumberedAtZero steps (Step.ordered steps) ∧
      (UnnumberedFirst (Step.ordered steps) ↔ NumbersGiveWay steps) :=
  ⟨orderedBy_perm _ steps, ordered_filter_number steps, ordered_numbers_ascending steps,
    ordered_unnumberedAtZero steps,
    (ordered_unnumberedAtZero steps).first_iff (orderedBy_perm _ steps)⟩

/-- **Numbers that do not give way:** a step with a number below zero comes before one without a
number, and so does one with the number zero that stands before it. -/
theorem ordered_ahead_of_unnumbered :
    let below : List Step :=
      [⟨{ code := "plain" }, []⟩, ⟨{ code := "below", number := some (-1) }, []⟩]
    let zero : List Step :=
      [⟨{ code := "zero", number := some 0 }, []⟩, ⟨{ code := "plain" }, []⟩]
    ((Step.ordered below).map (fun step => step.key) = ["below", "plain"] ∧
        ¬ UnnumberedFirst (Step.ordered below)) ∧
      ((Step.ordered zero).map (fun step => step.key) = ["zero", "plain"] ∧
        ¬ UnnumberedFirst (Step.ordered zero)) := by
  intro below zero
  have hbelow : Step.ordered below = below.reverse :=
    (orderedBy_eq_of_perm (List.reverse_perm below).symm (by decide)).trans
      (orderedBy_of_ascending _ (by decide))
  have hzero : Step.ordered zero = zero := orderedBy_of_ascending _ (by decide)
  rw [hbelow, hzero]
  decide

end Step

end Scenario
