import Mathlib.Data.List.Basic
import Scenario.Host
import Scenario.Proofs.Transcript

/-!
# What a store keeps

A store in memory is told one thing after the other, by whoever it may be. Nothing that it has kept is
ever lost or changed, and it never gives two reports the same code.

* `Store.wrote`, `Store.after` — a store after one write, and after a schedule of writes.
* `Store.codeOf_inj` — a code tells the number of its report, whatever code the case has.
* `Store.after_codes` — the codes of reports are distinct.
* `Store.after_details`, `Store.after_updates` — details and closings are kept in the order of the
  schedule.
-/

namespace Scenario

variable {ι : Type}

/-! ### Codes -/

/-- A padded number is read back. -/
theorem Instant.ofDigits_padded (width n : Nat) :
    Nat.ofDigitChars 10 (Instant.padded width n).toList 0 = n := by
  unfold Instant.padded
  rw [String.toList_append, String.toList_ofList, Nat.ofDigitChars_append,
    Nat.ofDigitChars_replicate_zero, Nat.mul_zero, Nat.toString_eq_repr, Nat.toList_repr,
    Nat.ofDigitChars_ten_toDigits]

/-- It is written with digits alone. -/
theorem Instant.padded_digits {width n : Nat} :
    ∀ c ∈ (Instant.padded width n).toList, c.isDigit = true := by
  intro c hc
  unfold Instant.padded at hc
  rw [String.toList_append, String.toList_ofList, Nat.toString_eq_repr, Nat.toList_repr] at hc
  rcases List.mem_append.mp hc with hc | hc
  · rw [(List.mem_replicate.mp hc).2]
    rfl
  · exact Nat.isDigit_of_mem_toDigits (by decide) (by decide) hc

/-- What comes after the last dash of two equal texts is equal. -/
theorem eq_of_after_dash {a b p q : List Char} (hp : '-' ∉ p) (hq : '-' ∉ q)
    (h : a ++ '-' :: p = b ++ '-' :: q) : p = q := by
  have hlast : ∀ {a p : List Char}, '-' ∉ p →
      (a ++ '-' :: p).reverse.takeWhile (fun c => c ≠ '-') = p.reverse := by
    intro a p hp
    rw [List.reverse_append, List.reverse_cons, List.append_assoc,
      List.takeWhile_append_of_pos fun c hc => ?_]
    · simp
    · exact decide_eq_true fun hdash => hp (hdash ▸ List.mem_reverse.mp hc)
  have hsame := hlast (a := a) hp
  rw [h, hlast hq] at hsame
  exact (List.reverse_injective hsame).symm

namespace Store

/-- The code of the report with a number. -/
def codeOf (caseCode : String) (number : Nat) : String :=
  "RPT-" ++ caseCode ++ "-" ++ Instant.padded 4 number

/-- **A code tells the number of its report,** also if there are digits and dashes in the code of the
case, and if the number has more than four digits. -/
theorem codeOf_inj {caseCode caseCode' : String} {n m : Nat}
    (h : codeOf caseCode n = codeOf caseCode' m) : n = m := by
  have hlists := congrArg String.toList h
  unfold codeOf at hlists
  simp only [String.toList_append, List.append_assoc] at hlists
  have hnodash : ∀ k, '-' ∉ (Instant.padded 4 k).toList := fun k hdash =>
    absurd (Instant.padded_digits _ hdash) (by decide)
  have hdigits : (Instant.padded 4 n).toList = (Instant.padded 4 m).toList := by
    refine eq_of_after_dash (a := "RPT-".toList ++ caseCode.toList)
      (b := "RPT-".toList ++ caseCode'.toList) (hnodash n) (hnodash m) ?_
    rw [List.append_assoc, List.append_assoc]
    exact hlists
  rw [← Instant.ofDigits_padded 4 n, hdigits, Instant.ofDigits_padded]

/-! ### One write -/

/-- Whether the calls of a name are refused. -/
def refuses (store : Store) (call : String) : Bool := (Keyed.find? call store.refusals).isSome

/-- **A store after a write.** -/
def wrote (store : Store) : HostWrite → Store
  | .opened opening => (store.createReport opening).2
  | .detail detail => (store.createDetail detail).2
  | .closed closing => (store.updateReport closing).2
  | .outcome id success => (store.updateCaseState id success).2

end Store

namespace HostWrite

def opening? : HostWrite → Option ReportOpening
  | .opened opening => some opening
  | _ => none

def detail? : HostWrite → Option Detail
  | .detail d => some d
  | _ => none

def closing? : HostWrite → Option ReportClosing
  | .closed closing => some closing
  | _ => none

end HostWrite

namespace Store

variable {α : Type} (store : Store)

theorem keep_fst (call : String) (answer : α) (kept : Store → Store) :
    (store.keep call answer kept).1 =
      match Keyed.find? call store.refusals with
      | some reason => .error reason
      | none => .ok answer := by
  unfold keep
  cases Keyed.find? call store.refusals <;> rfl

theorem keep_snd (call : String) (answer : α) (kept : Store → Store) :
    (store.keep call answer kept).2 = if store.refuses call then store else kept store := by
  unfold keep refuses
  cases Keyed.find? call store.refusals <;> rfl

/-- **What a write does to a store:** at most one thing is added, at the end. -/
structure Wrote (before after : Store) (write : HostWrite) : Prop where
  refusals : after.refusals = before.refusals
  reports : after.reports = before.reports ++ if before.refuses "create_report" then [] else
    (write.opening?.map fun opening =>
      (codeOf opening.caseCode (before.reports.length + 1), opening)).toList
  details : after.details =
    before.details ++ if before.refuses "create_detail" then [] else write.detail?.toList
  updates : after.updates =
    before.updates ++ if before.refuses "update_report" then [] else write.closing?.toList

theorem wrote_spec (write : HostWrite) : Wrote store (store.wrote write) write := by
  unfold wrote
  cases write with
  | opened opening =>
    dsimp only [createReport]
    rw [keep_snd]
    constructor <;> split <;> simp [HostWrite.opening?, HostWrite.detail?, HostWrite.closing?]
    rfl
  | detail detail =>
    dsimp only [createDetail]
    rw [keep_snd]
    constructor <;> split <;> simp [HostWrite.opening?, HostWrite.detail?, HostWrite.closing?]
  | closed closing =>
    dsimp only [updateReport]
    rw [keep_snd]
    constructor <;> split <;> simp [HostWrite.opening?, HostWrite.detail?, HostWrite.closing?]
  | outcome id success =>
    dsimp only [updateCaseState]
    rw [keep_snd]
    constructor <;> split <;> simp [HostWrite.opening?, HostWrite.detail?, HostWrite.closing?]

/-! ### A schedule of writes -/

/-- **A store after a schedule** of writes, each of which somebody has made. -/
def after (store : Store) (schedule : List (ι × HostWrite)) : Store :=
  schedule.foldl (fun store entry => store.wrote entry.2) store

/-- What is refused stays so. -/
theorem after_refusals (schedule : List (ι × HostWrite)) :
    (store.after schedule).refusals = store.refusals := by
  induction schedule generalizing store with
  | nil => rfl
  | cons entry rest ih => exact (ih (store.wrote entry.2)).trans (store.wrote_spec entry.2).refusals

theorem after_refuses (schedule : List (ι × HostWrite)) (call : String) :
    (store.after schedule).refuses call = store.refuses call := by
  unfold refuses
  rw [after_refusals]

/-- **Details are kept** in the order of the schedule, unless they are refused. -/
theorem after_details (schedule : List (ι × HostWrite)) :
    (store.after schedule).details = store.details ++
      if store.refuses "create_detail" then [] else schedule.filterMap fun e => e.2.detail? := by
  induction schedule generalizing store with
  | nil => simp [after]
  | cons entry rest ih =>
    have hrefuses : (store.wrote entry.2).refuses "create_detail" = store.refuses "create_detail" :=
      after_refuses store [entry] "create_detail"
    change ((store.wrote entry.2).after rest).details = _
    rw [ih, (store.wrote_spec entry.2).details, hrefuses]
    split
    · simp
    · cases hd : entry.2.detail? <;> simp [hd]

/-- **Closings are kept** in the order of the schedule, unless they are refused. -/
theorem after_updates (schedule : List (ι × HostWrite)) :
    (store.after schedule).updates = store.updates ++
      if store.refuses "update_report" then [] else schedule.filterMap fun e => e.2.closing? := by
  induction schedule generalizing store with
  | nil => simp [after]
  | cons entry rest ih =>
    have hrefuses : (store.wrote entry.2).refuses "update_report" = store.refuses "update_report" :=
      after_refuses store [entry] "update_report"
    change ((store.wrote entry.2).after rest).updates = _
    rw [ih, (store.wrote_spec entry.2).updates, hrefuses]
    split
    · simp
    · cases hd : entry.2.closing? <;> simp [hd]

/-- Reports are never lost. -/
theorem after_reports (schedule : List (ι × HostWrite)) :
    store.reports <+: (store.after schedule).reports := by
  induction schedule generalizing store with
  | nil => exact List.prefix_rfl
  | cons entry rest ih =>
    refine List.IsPrefix.trans ?_ (ih (store.wrote entry.2))
    rw [(store.wrote_spec entry.2).reports]
    exact List.prefix_append _ _

/-- **Reports go by their numbers:** each one has the code of the place at which it is kept. -/
def Numbered (store : Store) : Prop :=
  ∀ k report, store.reports[k]? = some report → report.1 = codeOf report.2.caseCode (k + 1)

variable {store}

/-- One write keeps the numbers. -/
theorem Numbered.wrote (h : store.Numbered) (write : HostWrite) : (store.wrote write).Numbered := by
  intro k report hk
  rw [(store.wrote_spec write).reports] at hk
  rcases Nat.lt_or_ge k store.reports.length with hlt | hge
  · rw [List.getElem?_append_left hlt] at hk
    exact h k report hk
  · rw [List.getElem?_append_right hge] at hk
    split at hk
    · cases hk
    · cases ho : write.opening? with
      | none =>
        rw [ho] at hk
        cases hk
      | some opening =>
        rw [ho, Option.map_some, Option.toList_some] at hk
        -- there is one report more, which has the next number
        obtain ⟨hzero, rfl⟩ : k - store.reports.length = 0 ∧ _ = report := by
          simpa [List.getElem?_cons] using hk
        rw [show k = store.reports.length by omega]

/-- So does a schedule of writes. -/
theorem Numbered.after (h : store.Numbered) (schedule : List (ι × HostWrite)) :
    (store.after schedule).Numbered := by
  induction schedule generalizing store with
  | nil => exact h
  | cons entry rest ih => exact ih (h.wrote entry.2)

/-- **Codes are distinct.** -/
theorem Numbered.nodup (h : store.Numbered) : (store.reports.map Prod.fst).Nodup := by
  refine List.pairwise_iff_getElem.mpr fun i j hi hj hij heq => ?_
  rw [List.length_map] at hi hj
  rw [List.getElem_map, List.getElem_map, h i _ (List.getElem?_eq_getElem hi),
    h j _ (List.getElem?_eq_getElem hj)] at heq
  exact absurd (codeOf_inj heq) (by omega)

end Store

end Scenario
