import Scenario.CaseFile.Loading
import Scenario.Proofs.Record.Entries
import Scenario.Proofs.Record.Survival

/-!
# Options and case files

A caller gives options, and a case file completes them. Variables and the environment are completed
one by one: what the caller gives stays, and what only the file gives is added. Settings are not: a
file that gives one of them gives all, and those that it does not write have their defaults.

* `CaseFile.dataOfTextAt?` — the data in a text, from which the file is read.
* `CaseFile.settingsData?` — what it says of settings, if it says anything.
* `CaseFile.options_supplied` — **what the options of a run are,** setting by setting: as written in
  the file, or else the caller's, if the file says nothing of settings or the caller's is the
  default.
* `CaseFile.options_forget` — a timeout that is lost to a file which sets another limit.
-/

namespace Scenario

open Record

/-- Whether data is null. -/
def Record.Data.isNull : Data → Bool
  | .scalar .null _ => true
  | _ => false

theorem Record.Data.readOption_eq {α : Type} (read : Data → Except Flaw α) (d : Data) :
    readOption read d = if d.isNull then .ok none else (read d).map some := by
  cases d with
  | scalar value spelling => cases value <;> rfl
  | list items => rfl
  | map entries => rfl

namespace CaseFile

/-- The data in a text from a path. -/
def dataOfTextAt? (path text : String) : Option Data :=
  if Folder.extension? path = some "json" then (Json.read text).toOption.map Data.ofJson
  else Yaml.dataOfText? text

variable {path text : String} {file : CaseFile} {d : Data}

/-- **A case file is read from the data of its text.** -/
theorem ofTextAt_eq_ok_iff : ofTextAt path text = .ok file ↔
    ∃ d, dataOfTextAt? path text = some d ∧ codec.ofData d = .ok file := by
  have read : ∀ (found : Option Data) (trouble : LoadTrouble),
      (found.bind fun d => (codec.ofData d).toOption).elim (Except.error trouble) Except.ok =
          Except.ok file ↔
        ∃ d, found = some d ∧ codec.ofData d = .ok file := by
    intro found trouble
    cases found with
    | none => simp
    | some d =>
      cases hread : codec.ofData d with
      | error flaw => simp [hread, Except.toOption]
      | ok file' => simp [hread, Except.toOption]
  unfold ofTextAt dataOfTextAt?
  split
  · rw [← read _ (.notJson path), Option.bind_map]
    rfl
  · exact read _ (.notDocument path)

/-- What data says of settings, if it says anything; a null says nothing. -/
def settingsData? (d : Data) : Option Data :=
  (codec.written? "settings" d).filter fun x => !x.isNull

/-- The settings of a file are read from what its data says of them. -/
theorem settings_of_ofData (h : codec.ofData d = .ok file) :
    match settingsData? d with
    | none => file.settings = none
    | some x => ∃ settings, Settings.codec.ofData x = .ok settings ∧
        file.settings = some settings := by
  have hslots := (slotted (a := .declared)).supplies h
  simp only [slots, List.forall_mem_cons] at hslots
  obtain ⟨-, -, -, -, -, -, hsettings, -⟩ := hslots
  unfold Codec.Supplies at hsettings
  dsimp only at hsettings
  unfold settingsData?
  cases hwritten : codec.written? "settings" d with
  | none =>
    rw [hwritten] at hsettings
    exact hsettings
  | some x =>
    rw [hwritten] at hsettings
    dsimp only at hsettings
    rw [Data.readOption_eq] at hsettings
    -- settings that are written as null are none, and others are read by their own codec
    cases hnull : x.isNull with
    | true =>
      rw [hnull, if_pos rfl] at hsettings
      rw [Option.filter_some, hnull]
      exact (Except.ok.inj hsettings).symm
    | false =>
      rw [hnull, if_neg Bool.false_ne_true] at hsettings
      obtain ⟨settings, hread, hsome⟩ := exists_of_map_eq_ok hsettings
      rw [Option.filter_some, hnull]
      exact ⟨settings, hread, hsome.symm⟩

/-- **The options of a run,** setting by setting. A setting is the one that is written in the file.
One that is not written is the caller's exactly if the file says nothing of settings, or if the
caller's is the default. The environment and the variables are the caller's, and what the caller
leaves out is the file's. -/
theorem options_supplied (hfile : ofTextAt path text = .ok file) (base : RunOptions) :
    ∃ d, dataOfTextAt? path text = some d ∧
      (∀ slot ∈ slots, Codec.Supplies slot (codec.written? slot.name d) {} file) ∧
      (∀ slot ∈ Settings.slots,
        match (settingsData? d).bind (Settings.codec.written? slot.name) with
        | some x => slot.read x = .ok (slot.get (file.options base).settings)
        | none => slot.get (file.options base).settings = slot.get base.settings ↔
            settingsData? d = none ∨ slot.get base.settings = slot.get {}) ∧
      (file.options base).environment = (base.environment <|> file.environment) ∧
      (Keyed.Ascending base.session → ∀ name, Keyed.find? name (file.options base).session =
        (Keyed.find? name base.session <|> Keyed.find? name file.session)) := by
  obtain ⟨d, hd, hread⟩ := ofTextAt_eq_ok_iff.mp hfile
  have hsettings := settings_of_ofData hread
  refine ⟨d, hd, (slotted (a := .declared)).supplies hread, fun slot hslot => ?_, rfl,
    fun hsession name => ?_⟩
  -- settings are taken from the file as a whole, or from the caller as a whole
  · cases hwritten : settingsData? d with
    | none =>
      rw [hwritten] at hsettings
      have hmerged : (file.options base).settings = base.settings := by rw [options, hsettings]; rfl
      rw [hmerged]
      exact iff_of_true rfl (.inl rfl)
    | some x =>
      rw [hwritten] at hsettings
      obtain ⟨settings, hx, hsome⟩ := hsettings
      have hsupplied := (Settings.slotted (a := .declared)).supplies hx slot hslot
      have hmerged : (file.options base).settings = settings := by rw [options, hsome]; rfl
      rw [hmerged]
      unfold Codec.Supplies at hsupplied
      dsimp only [Option.bind]
      cases hslotWritten : Settings.codec.written? slot.name x with
      | some y =>
        rw [hslotWritten] at hsupplied
        exact hsupplied
      | none =>
        rw [hslotWritten] at hsupplied
        dsimp only at hsupplied ⊢
        rw [hsupplied]
        exact ⟨fun hdefault => .inr hdefault.symm, fun hcaller =>
          (hcaller.resolve_left (Option.some_ne_none x)).symm⟩
  · rw [options, Keyed.find?_extend, Keyed.ofList_of_perm hsession (.refl _)]

/-- A file that sets one limit only. -/
def waitText : String :=
  "case: {case_code: C}\nvariables: {a: 1, b: 1}\nsettings: {max_wait_secs: 5}\n"

/-- What a caller gives: variables, an environment and a timeout. -/
def callerOptions : RunOptions where
  session := Keyed.ofList [("b", .ofInt 2), ("c", .ofInt 2)]
  environment := some "test"
  settings := { requestTimeout := .ofInt 2 }

/-- A variable that the file alone gives is kept, and one that both give is the caller's. -/
theorem options_supplied_wait : ∃ file, ofTextAt "case.yaml" waitText = .ok file ∧
    Keyed.has "a" (file.options callerOptions).session = true ∧
    Keyed.find? "b" (file.options callerOptions).session = some (.ofInt 2) := by
  have hvariable : (ofTextAt "case.yaml" waitText).toOption.map
      (fun file => Keyed.has "a" file.session) = some true := by
    decide +kernel
  cases hfile : ofTextAt "case.yaml" waitText with
  | error trouble =>
    rw [hfile] at hvariable
    cases hvariable
  | ok file =>
    rw [hfile] at hvariable
    obtain ⟨d, -, -, -, -, hfound⟩ := options_supplied hfile callerOptions
    have hfound := hfound (Keyed.ofList_ascending _)
    refine ⟨file, rfl, ?_, hfound "b"⟩
    rw [Keyed.has, hfound]
    exact Option.some.inj hvariable

/-- **A timeout is lost** to a file that does not write it, but sets another limit. -/
theorem options_forget : ∃ file d,
    ofTextAt "case.yaml" waitText = .ok file ∧ dataOfTextAt? "case.yaml" waitText = some d ∧
    (settingsData? d).bind (Settings.codec.written? "request_timeout_secs") = none ∧
    (file.options callerOptions).settings.requestTimeout = .ofInt 30 ∧
    callerOptions.settings.requestTimeout = .ofInt 2 := by
  have htimeout : (ofTextAt "case.yaml" waitText).toOption.map
      (fun file => (file.options callerOptions).settings.requestTimeout) = some (.ofInt 30) := by
    decide +kernel
  have hunwritten : (dataOfTextAt? "case.yaml" waitText).map (fun d =>
      ((settingsData? d).bind (Settings.codec.written? "request_timeout_secs")).isNone) =
        some true := by
    decide +kernel
  cases hfile : ofTextAt "case.yaml" waitText with
  | error trouble =>
    rw [hfile] at htimeout
    cases htimeout
  | ok file =>
    obtain ⟨d, hd, -⟩ := ofTextAt_eq_ok_iff.mp hfile
    rw [hfile] at htimeout
    rw [hd] at hunwritten
    exact ⟨file, d, rfl, hd, Option.isNone_iff_eq_none.mp (Option.some.inj hunwritten),
      Option.some.inj htimeout, rfl⟩

end CaseFile

end Scenario
