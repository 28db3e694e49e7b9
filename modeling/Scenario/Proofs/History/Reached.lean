import Scenario.Proofs.History.Course

/-!
# From frame to frame by events

What a watched step does is told by the events on the way: `Goes o keys m f P` says that `m`,
started in the frame `f`, ends in a frame that some events lead to, and that `P` holds of the end
and of these events. `keys` are those that get the numbers of the iterations of the running step.

* `Reached` — the events lead from a frame to another: in the context, in the histories below the
  running step, and in its result.
* `Goes.quiet` — what every tie carries makes no events. This is the only thing to know of requests,
  scripts, waits and predicates.
* `Goes.bind` — one after the other, the events are put behind each other.
-/

namespace Scenario

variable {ρ σ α β : Type}

/-- **The events lead from a frame to another.** -/
structure Reached (o : Outside ρ) (keys : List String) (f : Frame ρ (Watch σ))
    (events : List Event) (g : Frame ρ (Watch σ)) : Prop where
  follows : Follows f.state.context events g.state.context
  histories : g.state.records.children = f.state.records.children ++ Event.histories events
  /-- But for its words, all that changes in the result is what the events tell. -/
  result : g.result.bare = { f.result.bare with
    iteration := Event.iteration f.result.iteration events
    children := f.result.children ++ (Event.histories events).filterMap History.result }
  opening : g.state.records.opening = f.state.records.opening
  numbers : Renumbers keys f.state.context.iteration events g.state.context.iteration
  sound : ∀ h ∈ Event.histories events, h.Everywhere (History.Sound o)

namespace Reached

variable {o : Outside ρ} {keys : List String} {f g k : Frame ρ (Watch σ)}
variable {events events' : List Event}

/-- Without events, a frame is reached by changes that neither the steps below it see nor its
verdict. -/
theorem of_eq (hc : g.state.context.still = f.state.context.still)
    (hi : g.state.context.iteration = f.state.context.iteration)
    (hh : g.state.records.children = f.state.records.children)
    (ho : g.state.records.opening = f.state.records.opening)
    (hr : g.result.bare = f.result.bare) : Reached o keys f [] g where
  follows := hc
  histories := hh.trans (List.append_nil _).symm
  result := by
    rw [hr, Event.histories_nil, List.filterMap_nil, List.append_nil]
    rfl
  opening := ho
  numbers := hi ▸ .done
  sound := by simp

theorem refl (o : Outside ρ) (keys : List String) (f : Frame ρ (Watch σ)) :
    Reached o keys f [] f :=
  of_eq rfl rfl rfl rfl rfl

/-- An event that runs no step leaves the histories and the results below as they are. -/
theorem silent {event : Event} (hf : Follows f.state.context [event] g.state.context)
    (hnone : event.history? = none)
    (hi : g.state.context.iteration = event.renumber keys f.state.context.iteration)
    (hh : g.state.records.children = f.state.records.children)
    (ho : g.state.records.opening = f.state.records.opening)
    (hr : g.result.bare =
      { f.result.bare with iteration := Event.iteration f.result.iteration [event] }) :
    Reached o keys f [event] g := by
  have hempty : Event.histories [event] = [] := List.filterMap_cons_none hnone
  refine ⟨hf, ?_, ?_, ho, .one hnone hi, by simp [hempty]⟩
  · rw [hh, hempty, List.append_nil]
  · rw [hr, hempty, List.filterMap_nil, List.append_nil]
    rfl

theorem trans (h : Reached o keys f events g) (h' : Reached o keys g events' k) :
    Reached o keys f (events ++ events') k where
  follows := h.follows.append h'.follows
  histories := by rw [h'.histories, h.histories, Event.histories_append, List.append_assoc]
  result := by
    have hchildren : g.result.children = _ := (congrArg StepResult.children h.result :)
    have hiteration : g.result.iteration = _ :=
      (congrArg (fun r : StepResult => r.iteration) h.result :)
    rw [h'.result, hchildren, hiteration, h.result, Event.histories_append, List.filterMap_append,
      Event.iteration_append, ← List.append_assoc]
  opening := h'.opening.trans h.opening
  numbers := h.numbers.append h'.numbers
  sound := by
    rw [Event.histories_append]
    exact fun x hx => (List.mem_append.mp hx).elim (h.sound x) (h'.sound x)

end Reached

/-- **Where a computation goes:** its end and the events on the way have the property `P`. -/
def Goes (o : Outside ρ) (keys : List String) (m : Exec ρ (Watch σ) α) (f : Frame ρ (Watch σ))
    (P : Except Stop α → List Event → Prop) : Prop :=
  match m f with
  | .ok a g => ∃ events, P (.ok a) events ∧ Reached o keys f events g
  | .error stop g => ∃ events, P (.error stop) events ∧ Reached o keys f events g

/-- A computation that makes no events and, unless a script does so, does not end the case. -/
def Quietly (o : Outside ρ) (e : Except Stop α) (events : List Event) : Prop :=
  events = [] ∧ (Ending.of e).Mild o

/-- A computation that just makes certain events. -/
def Simply (made : List Event) (e : Except Stop Unit) (events : List Event) : Prop :=
  e = .ok () ∧ events = made

namespace Goes

variable {o : Outside ρ} {keys : List String} {f g : Frame ρ (Watch σ)} {m : Exec ρ (Watch σ) α}
variable {k : α → Exec ρ (Watch σ) β} {P : Except Stop α → List Event → Prop}
variable {Q : Except Stop β → List Event → Prop}

protected theorem pure {a : α} (h : P (.ok a) []) : Goes o keys (pure a) f P :=
  ⟨[], h, .refl o keys f⟩

theorem fail {fault : Fault} (h : P (.error (.fault fault)) []) :
    Goes o keys (Exec.fail fault) f P :=
  ⟨[], h, .refl o keys f⟩

theorem imp {P' : Except Stop α → List Event → Prop} (h : Goes o keys m f P)
    (hP : ∀ e events, P e events → P' e events) : Goes o keys m f P' := by
  unfold Goes at h ⊢
  split <;> simp only [*] at h
  · obtain ⟨events, he, hg⟩ := h
    exact ⟨events, hP _ _ he, hg⟩
  · obtain ⟨events, he, hg⟩ := h
    exact ⟨events, hP _ _ he, hg⟩

/-- **One after the other.** -/
protected theorem bind (hm : Goes o keys m f P)
    (hk : ∀ a events g, P (.ok a) events → Reached o keys f events g →
      Goes o keys (k a) g fun e events' => Q e (events ++ events'))
    (hstop : ∀ stop events, P (.error stop) events → Q (.error stop) events) :
    Goes o keys (m >>= k) f Q := by
  unfold Goes at hm ⊢
  rw [show (m >>= k) f = EStateM.bind m k f from rfl]
  unfold EStateM.bind
  cases hx : m f with
  | error stop g =>
    simp only [hx] at hm
    obtain ⟨events, he, hg⟩ := hm
    exact ⟨events, hstop _ _ he, hg⟩
  | ok a g =>
    simp only [hx] at hm
    obtain ⟨events, he, hg⟩ := hm
    have hend := hk a events g he hg
    unfold Goes at hend
    dsimp only
    -- however the rest ends, its events come behind those of the first part
    cases hy : k a g with
    | ok b g' =>
      simp only [hy] at hend
      obtain ⟨events', he', hg'⟩ := hend
      exact ⟨_, he', hg.trans hg'⟩
    | error stop g' =>
      simp only [hy] at hend
      obtain ⟨events', he', hg'⟩ := hend
      exact ⟨_, he', hg.trans hg'⟩

/-- What else is known of the value that a computation ends with, or of why it stops. -/
theorem gives {V : α → Prop} {E : Stop → Prop} (h : Goes o keys m f P)
    (hV : ∀ a g, m f = .ok a g → V a) (hE : ∀ stop g, m f = .error stop g → E stop) :
    Goes o keys m f fun e events =>
      P e events ∧ (∀ a, e = .ok a → V a) ∧ ∀ stop, e = .error stop → E stop := by
  unfold Goes at h ⊢
  cases hx : m f with
  | ok a g =>
    simp only [hx] at h
    obtain ⟨events, he, hg⟩ := h
    exact ⟨events, ⟨he, fun _ ha => Except.ok.inj ha ▸ hV a g hx, by rintro _ ⟨⟩⟩, hg⟩
  | error stop g =>
    simp only [hx] at h
    obtain ⟨events, he, hg⟩ := h
    exact ⟨events, ⟨he, by rintro _ ⟨⟩, fun _ hs => Except.error.inj hs ▸ hE stop g hx⟩, hg⟩

/-- A change of the frame that `events` tell. -/
theorem modify {change : Frame ρ (Watch σ) → Frame ρ (Watch σ)} {events : List Event}
    (h : Reached o keys f events (change f)) : Goes o keys (modify change) f (Simply events) :=
  ⟨events, ⟨rfl, rfl⟩, h⟩

/-- Something that just makes events comes first. -/
theorem simply {first : Exec ρ (Watch σ) Unit} {k : Unit → Exec ρ (Watch σ) β}
    {events : List Event} (hm : Goes o keys first f (Simply events))
    (hk : ∀ g, Reached o keys f events g →
      Goes o keys (k ()) g fun e events' => Q e (events ++ events')) :
    Goes o keys (first >>= k) f Q := by
  refine Goes.bind hm (fun _ events' g he hg => ?_) fun stop events' he => absurd he.1 (by simp)
  obtain rfl := he.2
  exact hk g hg

/-- Something quiet comes first. -/
theorem quietly (hm : Goes o keys m f (Quietly o))
    (hk : ∀ a g, Reached o keys f [] g → Goes o keys (k a) g Q)
    (hstop : ∀ stop, (Ending.ofStop stop).Mild o → Q (.error stop) []) :
    Goes o keys (m >>= k) f Q := by
  refine Goes.bind hm (fun a events g he hg => ?_) fun stop events he => ?_
  · obtain rfl := he.1
    exact hk a g hg
  · obtain rfl := he.1
    exact hstop stop he.2

/-- A value, or a fault in its place, comes first. -/
theorem ofExcept {x : Except Fault α} (hok : ∀ a, x = .ok a → Goes o keys (k a) f Q)
    (herror : ∀ fault, x = .error fault → Q (.error (.fault fault)) []) :
    Goes o keys (Exec.ofExcept x >>= k) f Q := by
  cases x with
  | ok a => exact hok a rfl
  | error fault => exact ⟨[], herror fault rfl, .refl o keys f⟩

/-- A quiet computation comes first of which it is known what it answers. -/
theorem answers {x : Except Fault α} (hm : Goes o keys m f (Quietly o)) (hx : m.Answers f x)
    (hok : ∀ a g, x = .ok a → Reached o keys f [] g → Goes o keys (k a) g Q)
    (herror : ∀ fault, x = .error fault → Q (.error (.fault fault)) []) :
    Goes o keys (m >>= k) f Q := by
  unfold Exec.Answers at hx
  refine Goes.bind (hm.gives (V := fun a => x = .ok a) (E := fun stop => ∃ fault,
    stop = .fault fault ∧ x = .error fault) (fun a g ha => ?_) fun stop g hstop => ?_)
    (fun a events g he hg => ?_) fun stop events he => ?_
  -- it gives what it answers, or stops at the fault that it answers
  · rw [ha] at hx
    exact hx.1
  · rw [hstop] at hx
    cases stop with
    | fault fault => exact ⟨fault, rfl, hx⟩
    | crash crash => exact hx.elim
  · obtain ⟨⟨rfl, -⟩, hvalue, -⟩ := he
    exact hok a g (hvalue a rfl) hg
  · obtain ⟨⟨rfl, -⟩, -, hstop⟩ := he
    obtain ⟨fault, rfl, hfault⟩ := hstop stop rfl
    exact herror fault hfault

end Goes

/-! ### Quiet computations -/

variable {w : World ρ σ} {keys : List String}

/-- **Being reached without events is a bond** of the watched world with itself. -/
theorem quietBond (f : Frame ρ (Watch σ)) :
    Bond w.watched w.watched.toRecorder
      (fun fault => w.toOutside.Mild → fault.isAbort = false)
      (fun g g' => g = g' ∧ Reached w.toOutside keys f [] g) where
  agrees h := h.1 ▸ .rfl
  outside h := h.1 ▸ rfl
  result h := h.1 ▸ rfl
  mild h _ := h
  script client job outside fault h mild := mild client job outside fault h
  note := by
    rintro g _ ⟨rfl, h⟩ n
    exact ⟨rfl, h.trans (.of_eq rfl rfl rfl rfl rfl)⟩
  line := by
    rintro g _ ⟨rfl, h⟩ key line
    exact ⟨rfl, h.trans (.of_eq rfl rfl rfl rfl rfl)⟩
  asked := by
    rintro g _ ⟨rfl, h⟩ outside
    exact ⟨rfl, h.trans (.of_eq rfl rfl rfl rfl rfl)⟩
  connected := by
    rintro g _ ⟨rfl, h⟩ client
    exact ⟨rfl, h.trans (.of_eq rfl rfl rfl rfl rfl)⟩
  produced := by
    rintro g _ ⟨rfl, h⟩ extract
    exact ⟨rfl, h.trans (.of_eq rfl rfl rfl rfl rfl)⟩
  worded := by
    -- here it counts that words leave the verdict and the results below alone
    rintro g _ ⟨rfl, h⟩ change hchange
    exact ⟨rfl, h.trans (.of_eq rfl rfl rfl rfl (hchange g.result))⟩

/-- The link of the watched world with itself in which frames are one and reached without events. -/
def quietLink (w : World ρ σ) (keys : List String) (f : Frame ρ (Watch σ)) :
    Link ρ (Watch σ) (Watch σ) :=
  .ofLockstep (fun fault => w.toOutside.Mild → fault.isAbort = false)
    (fun g g' => g = g' ∧ Reached w.toOutside keys f [] g)
    (fun g g' => g = g' ∧ Reached w.toOutside keys f [] g)

theorem quietTie (f : Frame ρ (Watch σ)) :
    Tie w.watched w.watched.toRecorder True (quietLink w keys f) :=
  (quietBond f).tie (fun _ _ h => h) fun _ _ h n => (quietBond f).note h n

/-- **What every tie carries is quiet.** -/
theorem Goes.quiet {m : Exec ρ (Watch σ) α} {f : Frame ρ (Watch σ)} {V : α → α → Prop}
    (h : (quietLink w keys f).Holds V m m) : Goes w.toOutside keys m f (Quietly w.toOutside) := by
  -- the run is compared with itself, from a frame that is reached from itself
  have hend := h.ends f f ⟨rfl, .refl _ keys f⟩
  unfold Goes
  cases hx : m f with
  | ok a g =>
    rw [hx] at hend
    cases hend with
    | ok _ hg => exact ⟨[], ⟨rfl, Ending.mild_finished _⟩, hg.2⟩
    | lost h => exact h.elim
    | lost' h => exact h.elim
  | error stop g =>
    rw [hx] at hend
    cases hend with
    -- the faults that the bond allows are mild, if those of scripts are
    | fault hf hg => exact ⟨[], ⟨rfl, hf⟩, hg.2⟩
    | crash hg => exact ⟨[], ⟨rfl, fun _ => rfl⟩, hg.2⟩
    | lost h => exact h.elim
    | lost' h => exact h.elim

section

variable {o : Outside ρ} {keys : List String} {f : Frame ρ (Watch σ)}

theorem Goes.note (notice : Notice) : Goes o keys (Exec.note w.watched notice) f (Simply []) :=
  Goes.modify (.of_eq rfl rfl rfl rfl rfl)

theorem Goes.log (text : String) : Goes o keys (Exec.log w.watched text) f (Simply []) :=
  Goes.modify (.of_eq rfl rfl rfl rfl rfl)

theorem Goes.say (message : String) : Goes o keys (Exec.say message) f (Simply []) :=
  Goes.modify (.of_eq rfl rfl rfl rfl rfl)

theorem Goes.announce (text : String) :
    Goes o keys (Exec.announce w.watched text) f (Simply []) :=
  Goes.simply (Goes.log _) fun _ _ => Goes.say _

end

end Scenario
