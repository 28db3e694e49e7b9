import Mathlib.Data.List.Basic
import Scenario.Host
import Scenario.Run.Rules

/-!
# All rules of a step are checked

No rule of a step keeps another one from being checked, and none changes what another one finds.

* `Check.extractAll_eq`, `Check.assertAll_eq` — all rules are run, one by one: extraction rules on
  the output as it was, assertions on the output with the extracted values among its variables.
* `Keyed.find?_extend_last` — of the values that are stored under a name the last one counts.
* `Check.assertOne_position` — an assertion takes nothing but a name from its position, and not even
  that if it is `AssertRule.Named`.
* `Checked.applied` — the result of a step after its rules; `Exec.check_eq` says that this is what
  becomes of the result of a running step.
* `runChecks_thorough` — **everything is evaluated,** and the fault lists exactly what failed.
-/

namespace Scenario

/-! ### Stored values -/

/-- What an entry writes under a name. -/
def Keyed.writtenAs {α : Type} (name : String) (entry : String × α) : Option α :=
  if entry.1 = name then some entry.2 else none

/-- **Of several writes of a name the last one counts;** without one, the earlier value stays. -/
theorem Keyed.find?_extend_last {α : Type} (name : String) (base extra : Keyed α) :
    find? name (extend base extra) =
      ((extra.filterMap (writtenAs name)).getLast? <|> find? name base) := by
  induction extra generalizing base with
  | nil => rfl
  | cons entry rest ih =>
    obtain ⟨key, v⟩ := entry
    rw [extend_cons, ih, find?_insert]
    by_cases hkey : key = name
    · have hwrites : writtenAs name (key, v) = some v := if_pos hkey
      rw [if_pos hkey, List.filterMap_cons_some hwrites, List.getLast?_cons]
      cases (rest.filterMap (writtenAs name)).getLast? <;> rfl
    · have hwrites : writtenAs name (key, v) = none := if_neg hkey
      rw [if_neg hkey, List.filterMap_cons_none hwrites]

namespace Check

variable {output : Output}

/-! ### Extraction rules -/

/-- What an extraction rule stores. -/
def stored? (output : Output) (rule : ExtractRule) : Option (String × Json.Value) :=
  (extractOne output rule).toOption.map fun v => (rule.name, v)

/-- The line of an extraction rule that failed. -/
def extractionFailure? (output : Output) (rule : ExtractRule) : Option String :=
  match extractOne output rule with
  | .ok _ => none
  | .error fault => some (extractionFailure rule fault)

theorem extractionFailure?_eq_none_iff {rule : ExtractRule} :
    extractionFailure? output rule = none ↔ ∃ v, extractOne output rule = .ok v := by
  rw [extractionFailure?]
  cases extractOne output rule <;> simp

/-- **Every extraction rule is run** on the output, and gives a value to store or a line. -/
theorem extractAll_eq (output : Output) (rules : List ExtractRule) :
    extractAll output rules =
      (rules.filterMap (stored? output), rules.filterMap (extractionFailure? output)) := by
  induction rules with
  | nil => rfl
  | cons rule rest ih =>
    rw [extractAll, ih]
    cases hrule : extractOne output rule with
    | ok v =>
      have hstored : stored? output rule = some (rule.name, v) := by rw [stored?, hrule]; rfl
      have hline : extractionFailure? output rule = none := by rw [extractionFailure?, hrule]
      rw [List.filterMap_cons_some hstored, List.filterMap_cons_none hline]
    | error fault =>
      have hstored : stored? output rule = none := by rw [stored?, hrule]; rfl
      have hline : extractionFailure? output rule = some (extractionFailure rule fault) := by
        rw [extractionFailure?, hrule]
      rw [List.filterMap_cons_none hstored, List.filterMap_cons_some hline]

/-! ### Assertions -/

/-- An assertion holds: its value is found, and compares as it says. -/
def Holds (output : Output) (rule : AssertRule) : Prop :=
  ∃ actual op, evaluate output rule = .ok (actual, op, true)

/-- **Every assertion is run,** each at its position. -/
theorem assertAll_eq (output : Output) (position : Nat) (rules : List AssertRule) :
    assertAll output position rules =
      rules.mapIdx fun i rule => assertOne output (position + i) rule := by
  induction rules generalizing position with
  | nil => rfl
  | cons rule rest ih =>
    rw [assertAll, ih, List.mapIdx_cons]
    simp only [Nat.add_zero, Nat.add_assoc, Nat.add_comm 1]

/-- The entry of an assertion says whether it holds. -/
theorem success_iff {position : Nat} {rule : AssertRule} :
    (assertOne output position rule).success = true ↔ Holds output rule := by
  rw [assertOne, Holds]
  cases hrule : evaluate output rule with
  | error fault => simp
  | ok found =>
    obtain ⟨actual, op, holds⟩ := found
    simp

theorem assertionFailure?_eq_none_iff {position : Nat} {rule : AssertRule} :
    assertionFailure? (assertOne output position rule) = none ↔ Holds output rule := by
  have hsuccess : (assertOne output position rule).success = true ↔ Holds output rule := success_iff
  rw [← hsuccess, assertionFailure?]
  split <;> simp_all

/-- **The position of an assertion** is for its name only. -/
theorem assertOne_position (output : Output) (i j : Nat) (rule : AssertRule) :
    assertOne output i rule =
      { assertOne output j rule with name := assertionName i rule } := by
  rw [assertOne, assertOne]
  cases evaluate output rule with
  | error fault => rfl
  | ok found => rfl

end Check

/-- An assertion that does not take its name from its position. -/
def AssertRule.Named (rule : AssertRule) : Prop :=
  (∃ name, rule.name = some name ∧ name ≠ "") ∨ ∃ expression, rule.expression = some expression

theorem AssertRule.Named.assertionName {rule : AssertRule} (h : rule.Named) (i j : Nat) :
    Check.assertionName i rule = Check.assertionName j rule := by
  rw [Check.assertionName, Check.assertionName]
  obtain ⟨name, hname, hne⟩ | ⟨expression, hexpression⟩ := h
  · rw [hname, Option.filter_some_pos (by simpa using hne)]
  · rw [hexpression]
    rfl

theorem AssertRule.Named.assertOne {rule : AssertRule} (h : rule.Named) (output : Output)
    (i : Nat) : Check.assertOne output i rule = Check.assertOne output 0 rule := by
  rw [Check.assertOne_position output i 0, h.assertionName i 0, ← Check.assertOne_position]

/-- Assertions with names of their own make the same entries wherever they stand. -/
theorem Check.assertAll_named {rules : List AssertRule} (hnamed : ∀ rule ∈ rules, rule.Named)
    (output : Output) (position : Nat) :
    assertAll output position rules = rules.map (assertOne output 0) := by
  rw [assertAll_eq]
  refine List.ext_getElem (by simp) fun i hi hi' => ?_
  rw [List.getElem_mapIdx, List.getElem_map]
  exact (hnamed _ (List.getElem_mem _)).assertOne output _

/-! ### All rules -/

theorem Checked.fault?_eq_none_iff {checked : Checked} :
    checked.fault? = none ↔ checked.failures = [] := by
  rw [Checked.fault?, ← List.isEmpty_iff]
  split <;> simp_all

/-- The fault counts the failures and lists them. -/
theorem Checked.eq_of_fault?_eq_some {checked : Checked} {fault : Fault}
    (h : checked.fault? = some fault) : fault = .checks checked.failures ∧ fault.message =
      toString checked.failures.length ++ " check(s) failed: " ++
        "; ".intercalate checked.failures := by
  rw [Checked.fault?] at h
  split at h
  · cases h
  · cases h
    exact ⟨rfl, rfl⟩

/-- **The result of a step after its rules:** what they extract is stored, and the ledger grows. -/
def Checked.applied (checked : Checked) (start : StepResult) : StepResult :=
  { start with
    extracted := Keyed.extend start.extracted checked.values
    ledger := start.ledger ++ checked.ledger }

namespace Exec

variable {ρ σ : Type} (w : World ρ σ)

/-- Telling of values leaves the result alone. -/
theorem noteExtracted_eq (values : List (String × Json.Value)) (frame : Frame ρ σ) :
    ∃ state, noteExtracted w values frame = .ok () ⟨state, frame.result⟩ := by
  induction values generalizing frame with
  | nil => exact ⟨frame.state, rfl⟩
  | cons entry rest ih => exact ih ⟨frame.state.note w (.extracted entry.1), frame.result⟩

/-- **Checking the rules of a running step** changes its result as they say. -/
theorem check_eq (rules : Rules) (response : Response) (json : Option Json.Value)
    (frame : Frame ρ σ) :
    let output : Output := ⟨json, response.text, response.headers, response.cookies,
      frame.state.context.snapshot⟩
    let checked := runChecks rules.extracts rules.asserts output frame.result.extracted
    ∃ state, check w rules response json frame =
      .ok checked.fault? ⟨state, checked.applied frame.result⟩ := by
  intro output checked
  obtain ⟨state, hnoted⟩ := noteExtracted_eq w checked.values frame
  refine ⟨state, ?_⟩
  have hcheck : check w rules response json frame =
      (do
        noteExtracted w checked.values
        amend fun r => { r with
          extracted := Keyed.extend r.extracted checked.values
          ledger := r.ledger ++ checked.ledger }
        return checked.fault? : Exec ρ σ (Option Fault)) frame := rfl
  rw [hcheck]
  change EStateM.bind _ _ _ = _
  rw [EStateM.bind, hnoted]
  rfl

end Exec

section All

variable {extracts : List ExtractRule} {asserts : List AssertRule} {output : Output}
  {earlier : Json.Members}

theorem runChecks_values : (runChecks extracts asserts output earlier).values =
    extracts.filterMap (Check.stored? output) :=
  congrArg Prod.fst (Check.extractAll_eq output extracts)

theorem runChecks_failures : (runChecks extracts asserts output earlier).failures =
    extracts.filterMap (Check.extractionFailure? output) ++
      (runChecks extracts asserts output earlier).ledger.filterMap Check.assertionFailure? :=
  congrArg (· ++ _) (congrArg Prod.snd (Check.extractAll_eq output extracts))

/-- What the assertions look at: the output, with all extracted values among its variables. -/
def Output.after (output : Output) (extracted : Json.Members) : Output :=
  { output with pool := Keyed.extend output.pool extracted }

theorem runChecks_ledger : (runChecks extracts asserts output earlier).ledger =
    Check.assertAll (output.after (Keyed.extend earlier
      (runChecks extracts asserts output earlier).values)) 0 asserts := rfl

/-- What a list of extraction rules stores under a name: what the last of them finds that has this
name and finds something. -/
theorem find?_stored (name : String) :
    Keyed.find? name (Keyed.extend earlier (extracts.filterMap (Check.stored? output))) =
      ((extracts.filterMap fun rule =>
        if rule.name = name then (Check.extractOne output rule).toOption else none).getLast? <|>
          Keyed.find? name earlier) := by
  have hwritten : ∀ rule : ExtractRule,
      (Check.stored? output rule).bind (Keyed.writtenAs name) =
        if rule.name = name then (Check.extractOne output rule).toOption else none := by
    intro rule
    rw [Check.stored?]
    cases (Check.extractOne output rule).toOption with
    | none => exact (ite_self none).symm
    | some v => rfl
  rw [Keyed.find?_extend_last, List.filterMap_filterMap]
  simp only [hwritten]

/-- No rule failed if every rule succeeded, and only then. -/
theorem runChecks_failures_eq_nil_iff :
    let checked := runChecks extracts asserts output earlier
    checked.failures = [] ↔ (∀ rule ∈ extracts, ∃ v, Check.extractOne output rule = .ok v) ∧
      ∀ rule ∈ asserts,
        Check.Holds (output.after (Keyed.extend earlier checked.values)) rule := by
  intro checked
  -- an assertion fails or not by what stands at its position in the ledger
  have hledger : checked.ledger.filterMap Check.assertionFailure? = [] ↔
      ∀ rule ∈ asserts,
        Check.Holds (output.after (Keyed.extend earlier checked.values)) rule := by
    rw [List.filterMap_eq_nil_iff, runChecks_ledger, Check.assertAll_eq]
    simp only [List.mem_mapIdx, forall_exists_index, List.forall_mem_iff_forall_getElem]
    constructor
    · intro hnone i hi
      exact Check.assertionFailure?_eq_none_iff.mp (hnone _ i hi rfl)
    · rintro hholds _ i hi rfl
      exact Check.assertionFailure?_eq_none_iff.mpr (hholds i hi)
  rw [runChecks_failures, List.append_eq_nil_iff, List.filterMap_eq_nil_iff, hledger]
  simp only [Check.extractionFailure?_eq_none_iff]

theorem runChecks_fault?_eq_none_iff :
    let checked := runChecks extracts asserts output earlier
    checked.fault? = none ↔ (∀ rule ∈ extracts, ∃ v, Check.extractOne output rule = .ok v) ∧
      ∀ rule ∈ asserts,
        Check.Holds (output.after (Keyed.extend earlier checked.values)) rule :=
  Checked.fault?_eq_none_iff.trans runChecks_failures_eq_nil_iff

/-- **Named assertions in another order** make the same entries, which depend on the position of no
assertion, and there is a fault if and only if there was one. -/
theorem runChecks_perm {others : List AssertRule} (hperm : asserts.Perm others)
    (hnamed : ∀ rule ∈ asserts, rule.Named) :
    let checked := runChecks extracts asserts output earlier
    let checked' := runChecks extracts others output earlier
    (∃ entry : AssertRule → Assertion,
      checked.ledger = asserts.map entry ∧ checked'.ledger = others.map entry) ∧
      checked.ledger.Perm checked'.ledger ∧ (checked'.fault? = none ↔ checked.fault? = none) := by
  intro checked checked'
  have hothers : ∀ rule ∈ others, rule.Named := fun rule hrule =>
    hnamed rule (hperm.mem_iff.mpr hrule)
  -- what is stored is the same in both runs, so their assertions look at the same
  let seen := output.after (Keyed.extend earlier checked.values)
  have hentries : checked.ledger = asserts.map (Check.assertOne seen 0) :=
    Check.assertAll_named hnamed seen 0
  have hentries' : checked'.ledger = others.map (Check.assertOne seen 0) :=
    Check.assertAll_named hothers seen 0
  refine ⟨⟨_, hentries, hentries'⟩, ?_, ?_⟩
  · rw [hentries, hentries']
    exact hperm.map _
  · have hholds : (∀ rule ∈ others, Check.Holds seen rule) ↔
        ∀ rule ∈ asserts, Check.Holds seen rule := by simp only [hperm.mem_iff]
    exact runChecks_fault?_eq_none_iff.trans
      ((and_congr_right fun _ => hholds).trans runChecks_fault?_eq_none_iff.symm)

end All

/-- **The rules of a step are all evaluated.** Whatever they find, and whatever the step has left
before:

* the ledger grows by one entry for each assertion, in order, made from the assertion, its position
  and what it looks at; and from the position only its name is made;
* under each name stands what the last extraction of this name found that found something, and what
  stood there before if there is none;
* extractions look at the output as it is, assertions at the output with all that is stored;
* there is no fault if and only if every rule succeeded, and otherwise the fault counts and lists
  the rules that failed, one line each, in order;
* assertions that are named make the same entries in any order, and their order changes neither what
  is stored nor whether there is a fault. -/
theorem runChecks_thorough (extracts : List ExtractRule) (asserts : List AssertRule)
    (output : Output) (start : StepResult) :
    let checked := runChecks extracts asserts output start.extracted
    let result := checked.applied start
    let seen := output.after result.extracted
    (∀ {ρ σ : Type} (w : World ρ σ) (response : Response) (json : Option Json.Value)
      (frame : Frame ρ σ), frame.result = start →
      output = ⟨json, response.text, response.headers, response.cookies,
        frame.state.context.snapshot⟩ →
      ∃ state, Exec.check w ⟨extracts, asserts⟩ response json frame =
        .ok checked.fault? ⟨state, result⟩) ∧
    (result.ledger = start.ledger ++ asserts.mapIdx (Check.assertOne seen) ∧
      ∀ i j rule, Check.assertOne seen i rule =
        { Check.assertOne seen j rule with name := Check.assertionName i rule }) ∧
    (∀ name, Keyed.find? name result.extracted =
      ((extracts.filterMap fun rule =>
        if rule.name = name then (Check.extractOne output rule).toOption else none).getLast? <|>
          Keyed.find? name start.extracted)) ∧
    (checked.fault? = none ↔ (∀ rule ∈ extracts, ∃ v, Check.extractOne output rule = .ok v) ∧
      ∀ rule ∈ asserts, Check.Holds seen rule) ∧
    (∀ fault, checked.fault? = some fault →
      let lines := extracts.filterMap (Check.extractionFailure? output) ++
        (asserts.mapIdx (Check.assertOne seen)).filterMap Check.assertionFailure?
      fault = .checks lines ∧ fault.message =
        toString lines.length ++ " check(s) failed: " ++ "; ".intercalate lines) ∧
    (∀ others, asserts.Perm others → (∀ rule ∈ asserts, rule.Named) →
      let checked' := runChecks extracts others output start.extracted
      (∃ entry : AssertRule → Assertion,
        checked.ledger = asserts.map entry ∧ checked'.ledger = others.map entry) ∧
      checked.ledger.Perm checked'.ledger ∧
      (checked'.applied start).extracted = result.extracted ∧
      (checked'.fault? = none ↔ checked.fault? = none)) := by
  intro checked result seen
  have hledger : checked.ledger = asserts.mapIdx (Check.assertOne seen) := by
    have hall := Check.assertAll_eq seen 0 asserts
    simp only [Nat.zero_add] at hall
    exact hall
  refine ⟨?_, ⟨congrArg (start.ledger ++ ·) hledger, Check.assertOne_position seen⟩, ?_,
    runChecks_fault?_eq_none_iff, ?_, ?_⟩
  · rintro ρ σ w response json frame rfl rfl
    exact Exec.check_eq w ⟨extracts, asserts⟩ response json frame
  · intro name
    exact (congrArg (fun values => Keyed.find? name (Keyed.extend start.extracted values))
      runChecks_values).trans (find?_stored name)
  · intro fault h lines
    have hlines : checked.failures = lines := by
      rw [runChecks_failures, hledger]
    exact hlines ▸ Checked.eq_of_fault?_eq_some h
  · intro others hperm hnamed checked'
    obtain ⟨hentries, hledgers, hfaults⟩ := runChecks_perm hperm hnamed
    exact ⟨hentries, hledgers, rfl, hfaults⟩

/-- An extraction that fails after another one of its name, an assertion that fails and one on the
value that was extracted. -/
theorem runChecks_thorough_failing :
    let body : Json.Value := .object [("code", .ofInt 0), ("token", .string "abc")]
    let extracts : List ExtractRule := [
      { name := "token", expression := some "$.token" },
      { name := "token", expression := some "$.none" }]
    let asserts : List AssertRule := [
      { name := some "code", expression := some "$.code", operation := "eq", expected := .ofInt 1 },
      { name := some "kept", source := some "variables", expression := some "token"
        operation := "eq", expected := .string "abc" }]
    let frame : Frame Site Store := ⟨⟨{}, {}, {}⟩, StepResult.of {}⟩
    let output : Output := ⟨some body, "", [], [], frame.state.context.snapshot⟩
    let checked := runChecks extracts asserts output frame.result.extracted
    let checked' := runChecks extracts asserts.reverse output frame.result.extracted
    (asserts.Perm asserts.reverse ∧ ∀ rule ∈ asserts, rule.Named) ∧
      (∃ state, Exec.check (Site.world []) ⟨extracts, asserts⟩ {} (some body) frame =
        .ok checked.fault? ⟨state, checked.applied frame.result⟩) ∧
      (∃ fault, checked.fault? = some fault ∧ fault.message =
        "2 check(s) failed: extract 'token': path '$.none' not found: key 'none' does not exist " ++
          "(available keys: [code, token]); assert 'code': expected eq 1, got 0") ∧
      checked.ledger.Perm checked'.ledger ∧
      (checked'.applied frame.result).extracted = (checked.applied frame.result).extracted := by
  intro body extracts asserts frame output checked checked'
  have hperm : asserts.Perm asserts.reverse := (List.reverse_perm asserts).symm
  have hnamed : ∀ rule ∈ asserts, rule.Named := by
    intro rule hrule
    obtain rfl | hrule := List.mem_cons.mp hrule
    · exact .inl ⟨"code", rfl, by decide⟩
    · cases List.mem_singleton.mp hrule
      exact .inl ⟨"kept", rfl, by decide⟩
  -- which faults there are is computed; what the fault says of them is the theorem's
  obtain ⟨hcheck, -, -, -, hfault, hother⟩ :=
    runChecks_thorough extracts asserts output frame.result
  obtain ⟨-, hledger, hextracted, -⟩ := hother _ hperm hnamed
  have hsome : checked.fault?.isSome = true := by decide +kernel
  obtain ⟨fault, hsome⟩ := Option.isSome_iff_exists.mp hsome
  refine ⟨⟨hperm, hnamed⟩, hcheck _ _ _ frame rfl rfl, ⟨fault, hsome, ?_⟩, hledger, hextracted⟩
  rw [(hfault fault hsome).2]
  decide +kernel

end Scenario
