import Scenario.Proofs.Kin.Steps
import Scenario.Proofs.Transcript

/-!
# Runs in which no time runs out

Where the clocks of two runs differ, the runs can be compared as long as no condition loop runs out
of time. The transcript of a run tells whether one did.

* `Transcript.TimedOut` — the time of a condition loop was up.
* `Kinship.loose` — runs that may differ in their traces and reports as they like, until one of them
  runs out of time. If their clocks agree, they may go on then, too.
-/

namespace Scenario

/-- A word to the watcher that the time of a condition loop is up. -/
def Notice.TimedOut : Notice → Prop
  | .logged _ text => ∃ done timeout, text = timeoutLine done timeout
  | _ => False

variable {ρ σ τ : Type}

/-- **A run in which the time of a condition loop was up.** -/
def Transcript.TimedOut (transcript : Transcript σ) : Prop :=
  ∃ n ∈ transcript.notices, n.TimedOut

namespace Kinship

/-- **Runs that are compared by what their steps see,** with certain keys in common. -/
def loose (σ τ : Type) (strict : Prop)
    (near : Option Http.Client × ρ → Option Http.Client × ρ → Prop) (shared : String → Prop)
    (counts counts' : String → Nat) (code code' : Option String) (home : Context) :
    Kinship ρ (Transcript σ) (Transcript τ) where
  strict := strict
  near := near
  traces _ _ := True
  records _ _ := True
  lost x := ¬ strict ∧ x.TimedOut
  lost' y := ¬ strict ∧ y.TimedOut
  shared := shared
  counts := counts
  counts' := counts'
  code := code
  code' := code'
  home := home

/-- A transcript in which time ran out goes on as such. -/
theorem timedOut_told (w : World ρ σ) {x : Transcript σ} (h : x.TimedOut) :
    (∀ n, (w.transcribed.note n x).TimedOut) ∧
      ∀ d, (w.transcribed.createDetail d x).2.TimedOut := by
  obtain ⟨n, hn, hout⟩ := h
  exact ⟨fun _ => ⟨n, List.mem_append_left _ hn, hout⟩, fun _ => ⟨n, hn, hout⟩⟩

theorem loose_lawful {w : World ρ σ} {r : Recorder τ} {strict : Prop}
    {near : Option Http.Client × ρ → Option Http.Client × ρ → Prop}
    (h : w.toOutside.Concord strict near) (shared : String → Prop) (counts counts' : String → Nat)
    (code code' : Option String) (home : Context) :
    (loose σ τ strict near shared counts counts' code code' home).Lawful w.transcribed r.transcribed where
  concord := h
  note _ _ := trivial
  note' _ _ := trivial
  line _ _ _ _ _ _ _ _ := trivial
  detail _ _ _ _ _ _ _ _ := ⟨trivial, trivial⟩
  lost hx := ⟨fun n => ⟨hx.1, (timedOut_told w hx.2).1 n⟩,
    fun d => ⟨hx.1, (timedOut_told w hx.2).2 d⟩⟩
  lost' hy := ⟨fun n => ⟨hy.1, (timedOut_told (w.recordedBy r) hy.2).1 n⟩,
    fun d => ⟨hy.1, (timedOut_told (w.recordedBy r) hy.2).2 d⟩⟩
  late hs key done timeout _ := ⟨hs, .logged key (timeoutLine done timeout),
    List.mem_append_right _ (List.mem_singleton_self _), done, timeout, rfl⟩
  late' hs key done timeout _ := ⟨hs, .logged key (timeoutLine done timeout),
    List.mem_append_right _ (List.mem_singleton_self _), done, timeout, rfl⟩

end Kinship

end Scenario
