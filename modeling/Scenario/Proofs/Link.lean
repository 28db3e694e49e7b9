import Scenario.Proofs.Elapsed

/-!
# Linked computations

Two runs need not be in lockstep to be comparable. Their clients may differ, their clocks may run
apart, and at some point the comparison may be over, since one of them has done what the other will
not do. What is left to say is how their frames are linked.

* `Link` — frames that correspond, what a crash leaves behind, the faults that may happen, and the
  records of runs that are no longer compared: those of a *lost* run.
* `Link.Holds V m m'` — started in corresponding frames, `m` and `m'` end in corresponding frames
  with values that `V` relates, or at one fault or one crash, unless one of them is lost; and a run
  that is lost stays so.
* `Tie` — what a link has to survive for that: the primitive things that a step does by itself. A
  tie is `strict` if not even the time may differ.

A lockstep is a link without lost runs: `Lockstep.holds_iff`.
-/

namespace Scenario

variable {ρ σ τ α β : Type}

/-- The state in which a computation ends. -/
def endState {E S : Type} : EStateM.Result E S α → S
  | .ok _ s => s
  | .error _ s => s

/-- A computation that is started with certain records ends with such records, however it ends. -/
def Exec.Keeps (m : Exec ρ σ α) (lost : σ → Prop) : Prop :=
  ∀ f, lost f.state.records → lost (endState (m f)).state.records

/-- **A link** between the frames of two worlds. -/
structure Link (ρ σ τ : Type) where
  /-- Frames that correspond. -/
  kept : Frame ρ σ → Frame ρ τ → Prop
  /-- What a crash leaves behind. -/
  crashed : Frame ρ σ → Frame ρ τ → Prop
  /-- Faults that may happen. -/
  allowed : Fault → Prop
  /-- Records of a run on the left that is not compared any more. -/
  lost : σ → Prop
  /-- Records of a run on the right that is not compared any more. -/
  lost' : τ → Prop

/-- A step that is started with certain records ends with such records, however it ends. -/
def Ready.Keeps (c : Ready ρ σ) (lost : σ → Prop) : Prop :=
  ∀ s, lost s.records → lost (endState (c.run s)).records

/-- Records that the first part leaves are still such after the rest. -/
theorem Exec.Keeps.rest {q : σ → Prop} {P : α → Prop} {m : Exec ρ σ α} {k : α → Exec ρ σ β}
    (hP : m.Gives P) (hk : ∀ a, P a → (k a).Keeps q) {f : Frame ρ σ}
    (h : q (endState (m f)).state.records) :
    q (endState (EStateM.bind m k f)).state.records := by
  unfold EStateM.bind
  cases hx : m f with
  | ok a f' =>
    rw [hx] at h
    exact hk a (hP f a f' hx) f' h
  | error stop f' =>
    rw [hx] at h
    exact h

theorem Exec.Keeps.bind {lost : σ → Prop} {m : Exec ρ σ α} {k : α → Exec ρ σ β}
    (hm : m.Keeps lost) (hk : ∀ a, (k a).Keeps lost) : (m >>= k).Keeps lost :=
  fun f hf => Exec.Keeps.rest (P := fun _ => True) (fun _ _ _ _ => trivial) (fun a _ => hk a)
    (hm f hf)

theorem Exec.Keeps.runChild {lost : σ → Prop} {c : Ready ρ σ} (hc : c.Keeps lost) :
    (Exec.runChild c).Keeps lost := by
  intro f hf
  have hend := hc f.state hf
  unfold Exec.runChild
  cases hx : c.run f.state <;> rw [hx] at hend <;> exact hend

theorem Exec.Keeps.runChildren {w : World ρ σ} {lost : σ → Prop}
    (hn : ∀ {x}, lost x → ∀ n, lost (w.note n x)) (halt : Bool) {cs : List (Ready ρ σ)}
    (hcs : ∀ c ∈ cs, c.Keeps lost) : (Exec.runChildren w halt cs).Keeps lost := by
  induction cs with
  | nil => exact fun _ h => h
  | cons c rest ih =>
    obtain ⟨hc, hrest⟩ := List.forall_mem_cons.mp hcs
    refine .bind (.runChild hc) fun result => ?_
    split
    · exact fun f hf => hn hf _
    · split
      · exact ih hrest
      · split
        · exact fun _ h => h
        · refine .bind (ih hrest) fun outcome => ?_
          cases outcome <;> exact fun _ h => h

/-- Records that a computation leaves are still such after a stop of it has been handled. -/
theorem Exec.Keeps.handled {lost : σ → Prop} {m : Exec ρ σ α} {handle : Stop → Exec ρ σ α}
    (hk : ∀ stop, (handle stop).Keeps lost) {f : Frame ρ σ}
    (h : lost (endState (m f)).state.records) :
    lost (endState (EStateM.tryCatch m handle f)).state.records := by
  unfold EStateM.tryCatch
  cases hx : m f with
  | ok a f' =>
    rw [hx] at h
    exact h
  | error stop f' =>
    rw [hx] at h
    exact hk stop f' h

namespace Link

variable (L : Link ρ σ τ)

/-- **Ends that correspond.** -/
inductive Ends (V : α → α → Prop) :
    EStateM.Result Stop (Frame ρ σ) α → EStateM.Result Stop (Frame ρ τ) α → Prop
  | ok {a b : α} {f : Frame ρ σ} {g : Frame ρ τ} (hv : V a b) (h : L.kept f g) :
    Ends V (.ok a f) (.ok b g)
  | fault {fault : Fault} {f : Frame ρ σ} {g : Frame ρ τ} (hf : L.allowed fault)
    (h : L.kept f g) : Ends V (.error (.fault fault) f) (.error (.fault fault) g)
  | crash {crash : Crash} {f : Frame ρ σ} {g : Frame ρ τ} (h : L.crashed f g) :
    Ends V (.error (.crash crash) f) (.error (.crash crash) g)
  | lost {x : EStateM.Result Stop (Frame ρ σ) α} {y : EStateM.Result Stop (Frame ρ τ) α}
    (h : L.lost (endState x).state.records) : Ends V x y
  | lost' {x : EStateM.Result Stop (Frame ρ σ) α} {y : EStateM.Result Stop (Frame ρ τ) α}
    (h : L.lost' (endState y).state.records) : Ends V x y

/-- **Linked computations.** -/
structure Holds (V : α → α → Prop) (m : Exec ρ σ α) (m' : Exec ρ τ α) : Prop where
  ends : ∀ f g, L.kept f g → L.Ends V (m f) (m' g)
  /-- A lost run stays lost. -/
  left : m.Keeps L.lost
  right : m'.Keeps L.lost'

namespace Holds

variable {L} {V : α → α → Prop} {W : β → β → Prop} {m : Exec ρ σ α} {m' : Exec ρ τ α}

protected theorem pure {a b : α} (hv : V a b) : L.Holds V (pure a) (pure b) where
  ends _ _ h := .ok hv h
  left _ h := h
  right _ h := h

theorem fail {fault : Fault} (hf : L.allowed fault) :
    L.Holds V (Exec.fail fault : Exec ρ σ α) (Exec.fail fault) where
  ends _ _ h := .fault hf h
  left _ h := h
  right _ h := h

theorem ofExcept {x : Except Fault α} (hx : ∀ fault, x = .error fault → L.allowed fault) :
    L.Holds Eq (Exec.ofExcept x : Exec ρ σ α) (Exec.ofExcept x) := by
  cases x with
  | ok a => exact .pure rfl
  | error fault => exact fail (hx fault rfl)

theorem imp {V' : α → α → Prop} (hm : L.Holds V m m') (hV : ∀ a b, V a b → V' a b) :
    L.Holds V' m m' where
  ends f g h := by
    have hend := hm.ends f g h
    generalize m f = x, m' g = y at hend
    cases hend with
    | ok hv h => exact .ok (hV _ _ hv) h
    | fault hf h => exact .fault hf h
    | crash h => exact .crash h
    | lost h => exact .lost h
    | lost' h => exact .lost' h
  left := hm.left
  right := hm.right

/-- **One after the other,** with what else is known of the values in between. -/
theorem bindOf {k : α → Exec ρ σ β} {l : α → Exec ρ τ β} {P : α → Prop} (hm : L.Holds V m m')
    (hV : ∀ a, V a a) (hP : m.Gives P) (hP' : m'.Gives P)
    (hk : ∀ a b, V a b → P a → P b → L.Holds W (k a) (l b)) :
    L.Holds W (m >>= k) (m' >>= l) := by
  have hleft {f} := Exec.Keeps.rest (f := f) hP fun a ha => (hk a a (hV a) ha ha).left
  have hright {g} := Exec.Keeps.rest (f := g) hP' fun a ha => (hk a a (hV a) ha ha).right
  refine ⟨fun f g h => ?_, fun f h => hleft (hm.left f h), fun g h => hright (hm.right g h)⟩
  have hend := hm.ends f g h
  have hgives := hP f
  have hgives' := hP' g
  have hlost := hleft (f := f)
  have hlost' := hright (g := g)
  change L.Ends W (EStateM.bind m k f) (EStateM.bind m' l g)
  unfold EStateM.bind at hlost hlost' ⊢
  -- what is left depends on the two ends alone
  generalize m f = x, m' g = y at hend hgives hgives' hlost hlost'
  cases hend with
  | ok hv h' => exact (hk _ _ hv (hgives _ _ rfl) (hgives' _ _ rfl)).ends _ _ h'
  | fault hf h' => exact .fault hf h'
  | crash h' => exact .crash h'
  | lost h' => exact .lost (hlost h')
  | lost' h' => exact .lost' (hlost' h')

/-- One after the other, from values that are related. -/
theorem bindRel {k : α → Exec ρ σ β} {l : α → Exec ρ τ β} (hm : L.Holds V m m')
    (hV : ∀ a, V a a) (hk : ∀ a b, V a b → L.Holds W (k a) (l b)) :
    L.Holds W (m >>= k) (m' >>= l) :=
  bindOf (P := fun _ => True) hm hV (fun _ _ _ _ => trivial) (fun _ _ _ _ => trivial)
    fun a b hab _ _ => hk a b hab

/-- **One after the other,** from one value. -/
protected theorem bind {k : α → Exec ρ σ β} {l : α → Exec ρ τ β} (hm : L.Holds Eq m m')
    (hk : ∀ a, L.Holds W (k a) (l a)) : L.Holds W (m >>= k) (m' >>= l) :=
  bindRel hm (fun _ => rfl) fun a _ hab => hab ▸ hk a

/-- Looking at a part of the frame. -/
theorem look {v : Frame ρ σ → α} {u : Frame ρ τ → α} {k : α → Exec ρ σ β}
    {l : α → Exec ρ τ β} (hv : ∀ f g, L.kept f g → V (v f) (u g)) (hV : ∀ a, V a a)
    (hk : ∀ a b, V a b → L.Holds W (k a) (l b)) :
    L.Holds W (get >>= fun f => k (v f)) (get >>= fun g => l (u g)) where
  ends f g h := (hk _ _ (hv f g h)).ends f g h
  left f h := (hk _ _ (hV (v f))).left f h
  right g h := (hk _ _ (hV (u g))).right g h

theorem modify {f : Frame ρ σ → Frame ρ σ} {f' : Frame ρ τ → Frame ρ τ}
    (hf : ∀ x y, L.kept x y → L.kept (f x) (f' y))
    (hl : ∀ x, L.lost x.state.records → L.lost (f x).state.records)
    (hr : ∀ y, L.lost' y.state.records → L.lost' (f' y).state.records) :
    L.Holds Eq (modify f : Exec ρ σ Unit) (modify f') where
  ends x y h := .ok rfl (hf x y h)
  left := hl
  right := hr

theorem act {f : RunState ρ σ → RunState ρ σ} {f' : RunState ρ τ → RunState ρ τ}
    (hf : ∀ x y, L.kept x y → L.kept (x.mapState f) (y.mapState f'))
    (hl : ∀ s, L.lost s.records → L.lost (f s).records)
    (hr : ∀ t, L.lost' t.records → L.lost' (f' t).records) :
    L.Holds Eq (Exec.act f) (Exec.act f') :=
  modify hf (fun x => hl x.state) fun y => hr y.state

theorem amend {f f' : StepResult → StepResult}
    (hf : ∀ x y, L.kept x y → L.kept (x.mapResult f) (y.mapResult f')) :
    L.Holds Eq (Exec.amend f : Exec ρ σ Unit) (Exec.amend f') :=
  modify hf (fun _ h => h) fun _ h => h

theorem lift {f : RunState ρ σ → α × RunState ρ σ} {f' : RunState ρ τ → α × RunState ρ τ}
    (hv : ∀ x y, L.kept x y → V (f x.state).1 (f' y.state).1)
    (hs : ∀ x y, L.kept x y →
      L.kept (x.mapState fun s => (f s).2) (y.mapState fun s => (f' s).2))
    (hl : ∀ s, L.lost s.records → L.lost (f s).2.records)
    (hr : ∀ t, L.lost' t.records → L.lost' (f' t).2.records) :
    L.Holds V (Exec.lift f) (Exec.lift f') where
  ends x y h := .ok (hv x y h) (hs x y h)
  left x := hl x.state
  right y := hr y.state

/-- Something that is handled where it stops at a fault. What a crash leaves behind is handled too.
-/
protected theorem tryCatch {handle : Stop → Exec ρ σ α} {handle' : Stop → Exec ρ τ α}
    (hm : L.Holds V m m')
    (hfault : ∀ fault, L.allowed fault → L.Holds V (handle (.fault fault)) (handle' (.fault fault)))
    (hcrash : ∀ c f g, L.crashed f g →
      L.Ends V (handle (.crash c) f) (handle' (.crash c) g))
    (hl : ∀ stop, (handle stop).Keeps L.lost) (hr : ∀ stop, (handle' stop).Keeps L.lost') :
    L.Holds V (tryCatch m handle) (tryCatch m' handle') := by
  refine ⟨fun f g h => ?_, fun f h => Exec.Keeps.handled hl (hm.left f h),
    fun g h => Exec.Keeps.handled hr (hm.right g h)⟩
  have hend := hm.ends f g h
  have hlost := Exec.Keeps.handled (m := m) (f := f) hl
  have hlost' := Exec.Keeps.handled (m := m') (f := g) hr
  change L.Ends V (EStateM.tryCatch m handle f) (EStateM.tryCatch m' handle' g)
  unfold EStateM.tryCatch at hlost hlost' ⊢
  generalize m f = x, m' g = y at hend hlost hlost'
  -- either side may be lost before the handler or in it
  cases hend with
  | ok hv h' => exact .ok hv h'
  | fault hf h' => exact (hfault _ hf).ends _ _ h'
  | crash h' => exact hcrash _ _ _ h'
  | lost h' => exact .lost (hlost h')
  | lost' h' => exact .lost' (hlost' h')

end Holds

end Link

/-! ### Lockstep -/

/-- A link in which no run is ever lost. -/
def Link.ofLockstep (allowed : Fault → Prop) (kept crashed : Frame ρ σ → Frame ρ τ → Prop) :
    Link ρ σ τ :=
  ⟨kept, crashed, allowed, fun _ => False, fun _ => False⟩

/-- **A lockstep is a link** without lost runs and with one value on both sides. -/
theorem Lockstep.holds_iff {allowed : Fault → Prop} {kept crashed : Frame ρ σ → Frame ρ τ → Prop}
    {m : Exec ρ σ α} {m' : Exec ρ τ α} :
    (Link.ofLockstep allowed kept crashed).Holds Eq m m' ↔ Lockstep allowed kept crashed m m' := by
  constructor
  · intro hm f g h
    have hend := hm.ends f g h
    generalize m f = x, m' g = y at hend
    -- no run is lost on a link that has no lost runs
    cases hend with
    | ok hv h => exact hv ▸ .ok h
    | fault hf h => exact .fault hf h
    | crash h => exact .crash h
    | lost h => exact h.elim
    | lost' h => exact h.elim
  · intro hm
    refine ⟨fun f g h => ?_, fun _ h => h.elim, fun _ h => h.elim⟩
    have hend := hm f g h
    generalize m f = x, m' g = y at hend
    cases hend with
    | ok h => exact .ok rfl h
    | fault hf h => exact .fault hf h
    | crash h => exact .crash h

end Scenario
