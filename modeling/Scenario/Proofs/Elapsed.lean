import Scenario.Proofs.Lockstep
import Scenario.Summary

/-!
# What the clock leaves behind

Two runs that differ in the clock alone differ in the seconds that their steps and responses took,
and nowhere else: in these numbers, and in the lines of the trace that tell them.

* `StepResult.untimed`, `Response.untimed` — a result and a response without the time they took.
* `EqUpTo` — equal but for what is erased. A comparison that is `strict` does not allow even that.
* `Retimed` — lines that differ in a number of seconds at most.
-/

namespace Scenario

variable {α β : Type}

/-! ### Without the time -/

/-- A response without the time it took. -/
def Response.untimed (response : Response) : Response := { response with elapsed := .zero false }

/-- A response that has been written, without the time it took. -/
def untimedJson : Json.Value → Json.Value
  | .object members => .object (members.map fun member =>
      if member.1 = "elapsed" then (member.1, .ofBinary64 (.zero false)) else member)
  | v => v

/-- A response is written without its time if it has none. -/
theorem Response.untimedJson_write (response : Response) :
    untimedJson (Response.codec.write response) = Response.codec.write response.untimed := rfl

mutual

/-- **A result without the time it took,** and without that of the results below it. -/
def StepResult.untimed : StepResult → StepResult
  | ⟨fields, children⟩ =>
    ⟨{ fields with elapsed := .zero false, response := fields.response.map untimedJson },
      untimedAll children⟩

/-- The results of a list without the time they took. -/
def StepResult.untimedAll : List StepResult → List StepResult
  | [] => []
  | result :: rest => untimed result :: untimedAll rest

end

namespace StepResult

theorem untimedAll_eq_map (results : List StepResult) :
    untimedAll results = results.map untimed := by
  induction results with
  | nil => rfl
  | cons result rest ih => rw [untimedAll, ih, List.map_cons]

theorem untimed_eq (r : StepResult) : r.untimed = { r with
    elapsed := .zero false
    response := r.response.map untimedJson
    children := r.children.map untimed } := by
  cases r
  rw [untimed, untimedAll_eq_map]

end StepResult

namespace StepResult

@[simp] theorem key_untimed (r : StepResult) : r.untimed.key = r.key := by
  cases r
  rfl

@[simp] theorem success_untimed (r : StepResult) : r.untimed.success = r.success := by
  cases r
  rfl

@[simp] theorem aborted_untimed (r : StepResult) : r.untimed.aborted = r.aborted := by
  cases r
  rfl

mutual

/-- A result without its time has the same results below it, without their times. -/
theorem flatten_untimed : ∀ r : StepResult, r.untimed.flatten = r.flatten.map untimed
  | ⟨fields, children⟩ => by
    rw [untimed, flatten, flatten, flattenAll_untimed children, List.map_cons, untimed]

theorem flattenAll_untimed :
    ∀ results, flattenAll (untimedAll results) = (flattenAll results).map untimed
  | [] => rfl
  | r :: rest => by
    rw [untimedAll, flattenAll, flattenAll, flatten_untimed r, flattenAll_untimed rest,
      List.map_append]

end

end StepResult

/-- The time does not count in the statistics of a run. -/
theorem Statistics.of_untimed (results : List StepResult) :
    Statistics.of (results.map StepResult.untimed) = Statistics.of results := by
  unfold Statistics.of lastOutcomes
  rw [← StepResult.untimedAll_eq_map, StepResult.flattenAll_untimed, List.map_map]
  have hsame : ((fun r : StepResult => (r.key, r.success)) ∘ StepResult.untimed) =
      fun r => (r.key, r.success) := by
    funext r
    simp
  rw [hsame]

/-! ### Equal but for the time -/

/-- **Equal but for what is erased;** wholly equal in a strict comparison. -/
structure EqUpTo (erase : α → α) (strict : Prop) (a b : α) : Prop where
  erased : erase a = erase b
  same : strict → a = b

namespace EqUpTo

variable {erase : α → α} {erase' : β → β} {strict : Prop} {a b c : α}

protected theorem rfl : EqUpTo erase strict a a := ⟨Eq.refl _, fun _ => Eq.refl _⟩

/-- What is seen of something without the time is the same on both sides. -/
theorem get (h : EqUpTo erase strict a b) (view : α → β) (hv : ∀ x, view (erase x) = view x) :
    view a = view b := by
  rw [← hv a, h.erased, hv]

/-- A change that goes through what is erased. -/
theorem map (h : EqUpTo erase strict a b) {f : α → β} (hf : ∀ x y, erase x = erase y →
    erase' (f x) = erase' (f y)) : EqUpTo erase' strict (f a) (f b) :=
  ⟨hf _ _ h.erased, fun hs => congrArg f (h.same hs)⟩

end EqUpTo

/-- Results that are equal but for the time they took. -/
abbrev StepResult.Matches (strict : Prop) : StepResult → StepResult → Prop :=
  EqUpTo StepResult.untimed strict

/-- Lists of results that are equal but for the time they took. -/
abbrev StepResult.MatchAll (strict : Prop) : List StepResult → List StepResult → Prop :=
  EqUpTo (List.map StepResult.untimed) strict

/-- Responses that are equal but for the time they took. -/
abbrev Response.Matches (strict : Prop) : Response → Response → Prop :=
  EqUpTo Response.untimed strict

namespace StepResult.Matches

variable {strict : Prop} {r r' : StepResult}

theorem success (h : r.Matches strict r') : r.success = r'.success :=
  h.get (fun r => r.success) success_untimed

theorem aborted (h : r.Matches strict r') : r.aborted = r'.aborted :=
  h.get (fun r => r.aborted) aborted_untimed

theorem extracted (h : r.Matches strict r') : r.extracted = r'.extracted :=
  h.get (fun r => r.extracted) fun r => by cases r; rfl

/-- A change that has nothing to do with the time. -/
theorem change (h : r.Matches strict r') {f : StepResult → StepResult}
    (hf : ∀ r, (f r).untimed = f r.untimed) : (f r).Matches strict (f r') :=
  h.map fun x y hxy => by rw [hf, hf, hxy]

theorem failed (h : r.Matches strict r') (fault : Fault) :
    (r.failed fault).Matches strict (r'.failed fault) :=
  h.change (f := fun r => r.failed fault) fun r => by cases r; rfl

/-- The time that a result took does not count. -/
theorem timed (h : r.Matches strict r') {x y : Binary64} (hxy : strict → x = y) :
    StepResult.Matches strict { r with elapsed := x } { r' with elapsed := y } where
  erased := by
    have hu := h.erased
    rw [untimed_eq, untimed_eq] at hu ⊢
    exact hu
  same hs := by rw [h.same hs, hxy hs]

/-- A response that is added. -/
theorem responded (h : r.Matches strict r') {p q : Response} (hpq : p.Matches strict q) :
    StepResult.Matches strict { r with response := some (Response.codec.write p) }
      { r' with response := some (Response.codec.write q) } where
  erased := by
    have hu := h.erased
    have hp : untimedJson (Response.codec.write p) = untimedJson (Response.codec.write q) := by
      rw [Response.untimedJson_write, hpq.erased, Response.untimedJson_write]
    rw [untimed_eq, untimed_eq] at hu ⊢
    rw [Option.map_some, hp]
    exact congrArg (fun r : StepResult => { r with
      response := some (untimedJson (Response.codec.write q)) }) hu
  same hs := by rw [h.same hs, hpq.same hs]

/-- A result below that is added. -/
theorem child (h : r.Matches strict r') {c d : StepResult} (hcd : c.Matches strict d) :
    StepResult.Matches strict { r with children := r.children ++ [c] }
      { r' with children := r'.children ++ [d] } where
  erased := by
    have hu := h.erased
    rw [untimed_eq r, untimed_eq r'] at hu
    rw [untimed_eq, untimed_eq, List.map_append, List.map_append, List.map_singleton,
      List.map_singleton, hcd.erased]
    exact congrArg (fun r : StepResult => { r with children := r.children ++ [d.untimed] }) hu
  same hs := by rw [h.same hs, hcd.same hs]

end StepResult.Matches

namespace StepResult.MatchAll

variable {strict : Prop} {results results' : List StepResult}

/-- Some result aborted on both sides, or on none. -/
theorem any_aborted (h : MatchAll strict results results') :
    (results.any fun r => r.aborted) = results'.any fun r => r.aborted :=
  h.get (fun results => results.any fun r => r.aborted) fun results => by simp [List.any_map, Function.comp_def]

/-- All results succeeded on both sides, or on none. -/
theorem all_success (h : MatchAll strict results results') :
    (results.all fun r => r.success) = results'.all fun r => r.success :=
  h.get (fun results => results.all fun r => r.success) fun results => by simp [List.all_map, Function.comp_def]

theorem statistics (h : MatchAll strict results results') :
    Statistics.of results = Statistics.of results' :=
  h.get Statistics.of Statistics.of_untimed

end StepResult.MatchAll

/-! ### Lines -/

/-- **Lines that tell the same,** but for one number of seconds, unless the comparison is strict. -/
inductive Retimed (strict : Prop) : String → String → Prop
  | same (text : String) : Retimed strict text text
  | seconds {x y : Binary64} (hxy : strict → x = y) (before after : String) :
    Retimed strict (before ++ Binary64.fixedStyle 3 x ++ after)
      (before ++ Binary64.fixedStyle 3 y ++ after)

theorem Retimed.eq {strict : Prop} {text text' : String} (h : Retimed strict text text')
    (hs : strict) : text = text' := by
  cases h with
  | same => rfl
  | seconds hxy => rw [hxy hs]

end Scenario
