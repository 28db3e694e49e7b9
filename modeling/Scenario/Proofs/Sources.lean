import Scenario.Proofs.Digits
import Scenario.Proofs.KeyOrder
import Scenario.Proofs.Session
import Scenario.Proofs.Turns

/-!
# Loops through a list or a mapping

Such a loop looks for its source once, before the first iteration, and goes through what it has
found then. Before each iteration the index, the key and the value are injected into the session,
under names that end in the number of the iteration.

* `Exec.numbered_inj` — such a name tells the name and the iteration, whatever the name ends like:
  the number is the last run of digits, and the character before it is none.
* `Exec.visits` — what a loop goes through. `Context.source_ordered` — a mapping is in key order.
* `Exec.sourceIterations_went` — the iterations, by induction on what is still to be injected.
* `Loop.Wrote` — what the steps below a loop write. `Loop.Turns.find?_session` — a name that is not
  injected keeps its value, or has one of these; by induction on the turns.
* `Loop.Leaves` — what a loop leaves in the session. For a name of an iteration this is the lemma
  about the turns from there on, for any other name the one about all turns.
* `Step.run_source` — all of this for the run of a step.
-/

namespace Scenario

/-! ### Names -/

/-- A name in an iteration, from behind: the digits of the iteration come first. -/
theorem Exec.numbered_behind (name : String) (i : Nat) :
    (Exec.numbered name i).toList.reverse.takeWhile Char.isDigit = (Nat.toDigits 10 i).reverse ∧
    (Exec.numbered name i).toList.reverse.dropWhile Char.isDigit = '_' :: name.toList.reverse := by
  have hdigits : ∀ c ∈ (Nat.toDigits 10 i).reverse, c.isDigit = true := fun c hc =>
    List.all_eq_true.mp (Text.all_isDigit_toDigits i) c (List.mem_reverse.mp hc)
  have hlist : (Exec.numbered name i).toList.reverse =
      (Nat.toDigits 10 i).reverse ++ '_' :: name.toList.reverse := by
    have hnumber : (toString i).toList = Nat.toDigits 10 i := Nat.toList_repr
    rw [Exec.numbered, String.toList_append, String.toList_append, hnumber]
    simp
  -- from behind, the run of digits ends at the underscore, so digits of the name do not matter
  rw [hlist, List.takeWhile_append_of_pos hdigits, List.dropWhile_append_of_pos hdigits,
    List.takeWhile_cons_of_neg (by decide), List.dropWhile_cons_of_neg (by decide)]
  exact ⟨List.append_nil _, rfl⟩

/-- **A name in an iteration** tells the name and the iteration, whatever the name ends like. -/
theorem Exec.numbered_inj {name name' : String} {i j : Nat}
    (h : Exec.numbered name i = Exec.numbered name' j) : name = name' ∧ i = j := by
  obtain ⟨hnumber, hname⟩ := Exec.numbered_behind name i
  obtain ⟨hnumber', hname'⟩ := Exec.numbered_behind name' j
  rw [h] at hnumber hname
  have hi := List.reverse_inj.mp (hnumber.symm.trans hnumber')
  have hn := List.reverse_inj.mp (List.cons.inj (hname.symm.trans hname')).2
  exact ⟨String.toList_inj.mp hn, Text.toDigits_inj hi⟩

/-! ### What is injected -/

/-- The variables of a visit, under the names that the step declares. -/
abbrev Visit := List (String × Json.Value)

/-- **The visits of a loop** to the parts of its source: the items of a list or the entries of a
mapping, as they stand. -/
def Exec.visits (names : LoopNames) : Json.Value → List Visit
  | .array items => items.mapIdx fun i item =>
    [(names.index, .ofNat (i + 1)), (names.value, item)]
  | .object entries => entries.mapIdx fun i entry =>
    [(names.index, .ofNat (i + 1)), (names.key, .string entry.1), (names.value, entry.2)]
  | _ => []

/-- What is injected for a visit in iteration `i`. -/
def Visit.injection (visit : Visit) (i : Nat) : Json.Members :=
  Keyed.ofList (visit.map fun (name, v) => (Exec.numbered name i, v))

/-- What is injected in iteration `i`, of which there may be none. -/
def Exec.injection (visits : List Visit) (i : Nat) : Json.Members :=
  Visit.injection ((visits[i - 1]?).getD []) i

/-- The names of a visit are different. -/
def Visit.Distinct (visit : Visit) : Prop := (visit.map Prod.fst).Nodup

/-- **What is injected for a visit:** its variables, under their names in the iteration. -/
theorem Visit.mem_injection {visit : Visit} {i : Nat} {key : String} {v : Json.Value}
    (h : (key, v) ∈ visit.injection i) :
    ∃ name, (name, v) ∈ visit ∧ key = Exec.numbered name i := by
  have hmem := (Keyed.mem_of_mem_extend h).resolve_left List.not_mem_nil
  obtain ⟨⟨name, u⟩, hvisit, hequal⟩ := List.mem_map.mp hmem
  obtain ⟨rfl, rfl⟩ := Prod.mk.inj hequal
  exact ⟨name, hvisit, rfl⟩

/-- **After an injection** each variable of the visit has its value. -/
theorem Visit.find?_injected {visit : Visit} (hdistinct : visit.Distinct) {name : String}
    {v : Json.Value} (h : (name, v) ∈ visit) (session : Json.Members) (i : Nat) :
    Keyed.find? (Exec.numbered name i) (Keyed.extend session (visit.injection i)) = some v := by
  -- a name stands only once in a visit, so all that is found under it is this value
  have hsame : ∀ u, (Exec.numbered name i, u) ∈ visit.injection i → u = v := by
    intro u hu
    obtain ⟨name', hvisit, hequal⟩ := Visit.mem_injection hu
    obtain ⟨rfl, -⟩ := Exec.numbered_inj hequal
    exact (Prod.mk.inj (List.inj_on_of_nodup_map hdistinct hvisit h rfl)).2
  obtain ⟨u, hu, -⟩ := Keyed.exists_find?_ofList
    (List.mem_map_of_mem (f := fun (name, v) => (Exec.numbered name i, v)) h)
  have hmem : (Exec.numbered name i, u) ∈ visit.injection i := Keyed.mem_of_find?_eq_some hu
  obtain ⟨u', hu', hmem'⟩ := Keyed.exists_find?_ofList hmem
  rw [Keyed.find?_extend, hu', hsame u' hmem']
  rfl

/-- **After some writes** a name has the value that it had, or one that was written. -/
theorem Write.find?_onto (key : String) (session : Json.Members) (writes : List Write) :
    Keyed.find? key (Write.onto session writes) = Keyed.find? key session ∨
      ∃ write ∈ writes, ∃ v, (key, v) ∈ write.data ∧
        Keyed.find? key (Write.onto session writes) = some v := by
  induction writes generalizing session with
  | nil => exact .inl rfl
  | cons write rest ih =>
    change Keyed.find? key (Write.onto (Keyed.extend session write.data) rest) = _ ∨
      ∃ u ∈ write :: rest, ∃ v, (key, v) ∈ u.data ∧
        Keyed.find? key (Write.onto (Keyed.extend session write.data) rest) = some v
    obtain hsame | ⟨u, hu, v, hv, hfound⟩ := ih (Keyed.extend session write.data)
    · rw [hsame]
      by_cases hwritten : ∃ v, (key, v) ∈ write.data
      · -- what is found then is one of the values that this write has for the name
        obtain ⟨v, hv⟩ := hwritten
        obtain ⟨u, hu, hmem⟩ := Keyed.exists_find?_ofList hv
        refine .inr ⟨write, List.mem_cons_self, u, hmem, ?_⟩
        rw [Keyed.find?_extend, hu]
        rfl
      · exact .inl (Keyed.find?_extend_of_notMem (not_exists.mp hwritten))
    · exact .inr ⟨u, List.mem_cons_of_mem _ hu, v, hv, hfound⟩

variable {ρ σ : Type} {w : World ρ σ} {l : Loop ρ σ} {f g : Frame ρ σ} {mode : LoopMode}

/-! ### The source -/

/-- The sources that a mode goes through. -/
inductive LoopMode.Takes : LoopMode → Json.Value → Prop
  | items {items : List Json.Value} : Takes .iterable (.array items)
  | entries {entries : List (String × Json.Value)} : Takes .dict (.object entries)

/-- The names that a loop makes use of in a mode. -/
def Exec.LoopNames.used (names : Exec.LoopNames) : LoopMode → List String
  | .dict => [names.index, names.key, names.value]
  | _ => [names.index, names.value]

/-- **The visits of a loop** have the names that the mode makes use of. -/
theorem LoopMode.Takes.names_eq {names : Exec.LoopNames} {source : Json.Value}
    (h : mode.Takes source) {visit : Visit} (hvisit : visit ∈ Exec.visits names source) :
    visit.map Prod.fst = names.used mode := by
  cases h <;>
    obtain ⟨i, hi, rfl⟩ := List.mem_mapIdx.mp hvisit <;> rfl

/-- Looking for the source leaves lines in the trace and nothing else, whatever comes of it. -/
theorem Exec.source_still (w : World ρ σ) (step : StepFields) :
    (Exec.source w step).Moves (Frame.Still w) := by
  unfold Exec.source
  split
  · exact fun f => .rfl
  · exact fun f => .rfl
  · refine .still (.resolveValue _) fun found => ?_
    split
    · split
      · exact .valueOf _
      · exact fun f => .rfl
    · exact fun f => .rfl

/-- **What a loop goes through** is in order if the variables are, and what the step says. -/
theorem Context.source_ordered {ctx : Context} {step : StepFields} {source : Json.Value}
    (hlookup : ∀ name v, ctx.lookup name = some v → v.Ordered)
    (hdeclared : ∀ v, step.loopIterable = some v → v.Ordered)
    (h : ctx.source step = some source) : source.Ordered := by
  obtain ⟨declared, hsome, h⟩ := Option.bind_eq_some_iff.mp h
  have hresolved := Placeholder.resolveValue_ordered hlookup declared (hdeclared declared hsome)
  generalize (Placeholder.resolveValue ctx.lookup declared).out = found at h hresolved
  cases found with
  | string s =>
    dsimp only at h
    -- a text is the name of a variable, or the text of a value
    cases hbare : Placeholder.bareReference? s.toList with
    | some body =>
      rw [hbare] at h
      exact hlookup _ source h
    | none =>
      rw [hbare] at h
      cases h
      cases htext : Json.Value.ofText? s with
      | none => exact .string
      | some v => exact Json.Value.ofText?_ordered htext
  | _ =>
    cases h
    exact hresolved

/-- **A loop through its source** goes through the visits, one after the other. -/
theorem Exec.iterations_source {source : Json.Value} (hmode : mode.Takes source)
    (hsource : Exec.source w l.step f = .ok source g) :
    ∃ h, g.Still w h ∧ Exec.iterations w mode l f = Exec.sourceIterations w l
      ((Exec.visits (Exec.loopNames l.step) source).mapIdx
        fun i visit => visit.injection (i + 1)) 1 {} h := by
  cases hmode with
  -- the visits and what is injected for them are made from the items in one pass
  | @items items =>
    change ∃ h, g.Still w h ∧ Exec.iterableLoop w l f = _
    unfold Exec.iterableLoop
    rw [Exec.bind_eq_ok hsource]
    have hvisits : (Exec.visits (Exec.loopNames l.step) (.array items)).mapIdx
        (fun i visit => visit.injection (i + 1)) =
          items.mapIdx fun i item => Exec.injectedItem (Exec.loopNames l.step) (i + 1) item :=
      List.mapIdx_mapIdx
    rw [hvisits]
    cases items <;> exact ⟨_, .log _, rfl⟩
  | @entries entries =>
    change ∃ h, g.Still w h ∧ Exec.dictLoop w l f = _
    unfold Exec.dictLoop
    rw [Exec.bind_eq_ok hsource]
    have hvisits : (Exec.visits (Exec.loopNames l.step) (.object entries)).mapIdx
        (fun i visit => visit.injection (i + 1)) =
          entries.mapIdx fun i entry => Exec.injectedEntry (Exec.loopNames l.step) (i + 1) entry :=
      List.mapIdx_mapIdx
    rw [hvisits]
    cases entries <;> exact ⟨_, .log _, rfl⟩

/-! ### The iterations -/

/-- **The iterations of a loop through its source,** by induction on what is still to come. -/
theorem Exec.sourceIterations_went {steps : List Step}
    (hl : l.children = Ready.ordered (runnable w steps)) {injection : Nat → Json.Members}
    {injected : List Json.Members} {i last : Nat} {tally : Tally}
    (htally : tally.brokenAt = none) (hsome : injected ≠ [])
    (hinjected : ∀ k data, injected[k]? = some data → data = injection (i + k))
    (hlast : i + injected.length = last + 1)
    (hwait : RunState.waitFlaw? f.state.context.settings.waitLimit l.interval = none)
    {x : EStateM.Result Stop (Frame ρ σ) Tally}
    (hx : Exec.sourceIterations w l injected i tally f = x) :
    l.Went w (l.Advances w injection last) i
      (f.mapState (RunState.extend w (injection i) .session)) (fun turns =>
        turns.length = injected.length ∧ x = .ok (tally.after i turns)
          (Turn.last (f.mapState (RunState.extend w (injection i) .session)) turns)) x := by
  induction injected generalizing i tally f with
  | nil => exact absurd rfl hsome
  | cons data rest ih =>
    obtain rfl := hinjected 0 data rfl
    rw [List.length_cons] at hlast
    -- what comes first is the injection; the turn is entered in the frame after it
    have hentry : f.Onward w none (injection i)
        (f.mapState (RunState.extend w (injection i) .session)) := Frame.Still.rfl.inject _
    refine .pausing hl htally (by rwa [hentry.settings])
      (fun tally => Exec.sourceIterations w l rest (i + 1) tally) hx
      (fun hend hx => ?_) fun hmore g honward hwait hx => ?_
    · obtain rfl : rest = [] := by simpa using hend
      exact ⟨rfl, hx.symm⟩
    · have hrest : rest ≠ [] := by simpa using hmore
      have hlength := List.length_pos_iff.mpr hrest
      have hnext : ∀ k data, rest[k]? = some data → data = injection (i + 1 + k) := by
        intro k data hk
        rw [hinjected (k + 1) data hk, show i + (k + 1) = i + 1 + k by omega]
      refine ⟨_, _, ⟨by omega, honward.inject (injection (i + 1))⟩,
        ih (by simpa using htally) hrest hnext (by omega) hwait hx, ?_⟩
      rintro turns ⟨hturns, hend⟩
      refine ⟨congrArg (· + 1) hturns, hend.trans ?_⟩
      rw [Turn.last_cons, Turn.last_congr (List.length_pos_iff.mp (hturns ▸ hlength))]
      rfl

/-! ### What the steps below write -/

/-- **The steps that are started** one after the other from a state, each with the state in which it
is started. An aborted step is the last one; with `halt` also a failed one is. -/
inductive Step.Starts (w : World ρ σ) (halt : Bool) :
    List Step → RunState ρ σ → Step → RunState ρ σ → Prop
  | first {step : Step} {rest : List Step} {s : RunState ρ σ} :
    Starts w halt (step :: rest) s step s
  | later {step child : Step} {rest : List Step} {s s' before : RunState ρ σ} {r : StepResult} :
    step.run w s = .ok r s' → r.aborted = false → (r.success = true ∨ halt = false) →
    Starts w halt rest s' child before → Starts w halt (step :: rest) s child before

/-- **A write of the steps** that are started from a state, or of steps below them. -/
def Step.WroteFrom (w : World ρ σ) (halt : Bool) (steps : List Step) (s : RunState ρ σ)
    (write : Write) : Prop :=
  ∃ child before writes, Step.Starts w halt steps s child before ∧
    (child.history w before).Wrote writes ∧ write ∈ writes

/-- A child that has ended was run where the running step was. -/
theorem Exec.runChild_ok {child : Ready ρ σ} {r : StepResult}
    (h : Exec.runChild child f = .ok r g) : child.run f.state = .ok r g.state := by
  unfold Exec.runChild at h
  cases hrun : child.run f.state with
  | error crash s => rw [hrun] at h; cases h
  | ok r' s =>
    rw [hrun] at h
    cases h
    rfl

/-- **Children that have ended:** so has the first one, which was the last one to be run, or the
others were run behind it. -/
theorem Exec.runChildren_cons_ok {halt : Bool} {child : Ready ρ σ} {rest : List (Ready ρ σ)}
    {outcome : ChildrenOutcome} (h : Exec.runChildren w halt (child :: rest) f = .ok outcome g) :
    ∃ r after, Exec.runChild child f = .ok r after ∧
      (g.state.context = after.state.context ∨
        r.aborted = false ∧ (r.success = true ∨ halt = false) ∧
          ∃ outcome', Exec.runChildren w halt rest after = .ok outcome' g) := by
  obtain ⟨r, after, hchild, h⟩ := Exec.bind_ok h
  refine ⟨r, after, hchild, ?_⟩
  split at h
  · cases h
    exact .inl rfl
  · next haborted =>
    have haborted := Bool.eq_false_iff.mpr haborted
    split at h
    · next hpassed => exact .inr ⟨haborted, .inl hpassed, outcome, h⟩
    · split at h
      · cases h
        exact .inl rfl
      -- the failure of the first child weighs on the outcome of the others only
      · next hhalt =>
        obtain ⟨outcome', g', hrest, hlast⟩ := Exec.bind_ok h
        have hsame : g' = g := by cases outcome' <;> (cases hlast; rfl)
        exact .inr ⟨haborted, .inr (Bool.eq_false_iff.mpr hhalt), outcome', hsame ▸ hrest⟩

/-- **The session after the children** is the one before them, overwritten by what they wrote. -/
theorem Exec.runChildren_writes {halt : Bool} {steps : List Step} {outcome : ChildrenOutcome}
    (h : Exec.runChildren w halt (runnable w steps) f = .ok outcome g) :
    ∃ writes, g.state.context.session = Write.onto f.state.context.session writes ∧
      ∀ write ∈ writes, Step.WroteFrom w halt steps f.state write := by
  induction steps generalizing f outcome g with
  | nil =>
    cases h
    exact ⟨[], rfl, by simp⟩
  | cons step rest ih =>
    obtain ⟨r, after, hchild, hnext⟩ := Exec.runChildren_cons_ok h
    have hrun : step.run w f.state = .ok r after.state := Exec.runChild_ok hchild
    obtain ⟨writes, hwrote, -, hsession⟩ := Step.exists_wrote hrun
    have hfirst : ∀ write ∈ writes, Step.WroteFrom w halt (step :: rest) f.state write :=
      fun write hwrite => ⟨step, f.state, writes, .first, hwrote, hwrite⟩
    obtain hlast | ⟨haborted, hpassed, outcome', hrest⟩ := hnext
    · exact ⟨writes, (congrArg Context.session hlast).trans hsession, hfirst⟩
    · -- the writes of the others come after those of the first step
      obtain ⟨others, hend, hothers⟩ := ih hrest
      refine ⟨writes ++ others, by rw [hend, hsession, Write.onto_append], fun write hwrite => ?_⟩
      obtain hwrite | hwrite := List.mem_append.mp hwrite
      · exact hfirst write hwrite
      · obtain ⟨child, before, ws, hstarts, hws⟩ := hothers write hwrite
        exact ⟨child, before, ws, .later hrun haborted hpassed hstarts, hws⟩

/-- Steps in running order, made ready. -/
theorem Ready.ordered_runnable (w : World ρ σ) (steps : List Step) :
    Ready.ordered (runnable w steps) = runnable w (Step.ordered steps) :=
  orderedBy_map fun _ _ => rfl

/-- **A write of the steps below a loop,** in one of its turns. -/
def Loop.Wrote (w : World ρ σ) (l : Loop ρ σ) (steps : List Step) (i : Nat)
    (turns : List (Turn ρ σ)) (write : Write) : Prop :=
  ∃ k t, turns[k]? = some t ∧ Step.WroteFrom w (l.strategy ≠ .continue) (Step.ordered steps)
    (l.numbered (i + k) t.entry).state write

/-- **A turn changes the session** by the writes of the steps that it runs. -/
theorem Loop.turn_writes {steps : List Step}
    (hl : l.children = Ready.ordered (runnable w steps)) {i : Nat}
    (hended : (l.turn w i f).outcome ≠ none) :
    ∃ writes, (l.turn w i f).stop.state.context.session =
        Write.onto f.state.context.session writes ∧
      ∀ write ∈ writes, Step.WroteFrom w (l.strategy ≠ .continue) (Step.ordered steps)
        (l.numbered i f).state write := by
  rw [← l.numbered_session i f]
  cases hx : Exec.runChildren w (l.strategy ≠ .continue) l.children (l.numbered i f) with
  | error stop g =>
    refine absurd ?_ hended
    unfold Loop.turn
    rw [hx]
  | ok outcome g =>
    have hstop := Loop.turn_stop (w := w) (l := l) (i := i) (f := f)
    rw [hx] at hstop
    rw [hl, Ready.ordered_runnable] at hx
    obtain ⟨writes, hsession, hwrites⟩ := Exec.runChildren_writes hx
    exact ⟨writes, (congrArg Context.session hstop.context_eq :).trans hsession, hwrites⟩

/-- A write in the turns from a later one on. -/
theorem Loop.Wrote.of_drop {steps : List Step} {i k : Nat} {turns : List (Turn ρ σ)}
    {write : Write} (h : l.Wrote w steps (i + k) (turns.drop k) write) :
    l.Wrote w steps i turns write := by
  obtain ⟨m, t, hm, hwrote⟩ := h
  rw [List.getElem?_drop] at hm
  rw [Nat.add_assoc] at hwrote
  exact ⟨k + m, t, hm, hwrote⟩

/-- The session after what happens between two turns. -/
theorem Frame.Onward.session {pause : Option Binary64} {injected : Json.Members}
    (h : f.Onward w pause injected g) :
    g.state.context.session = Keyed.extend f.state.context.session injected :=
  (congrArg Context.session h.context :)

/-- **A name through the turns of a loop,** if it is not injected between them: it keeps its value,
or it has one that the steps below the loop wrote. -/
theorem Loop.Turns.find?_session {steps : List Step}
    (hl : l.children = Ready.ordered (runnable w steps)) {injection : Nat → Json.Members}
    {last i : Nat} {turns : List (Turn ρ σ)}
    (h : l.Turns w (l.Advances w injection last) i f turns)
    (hended : ∀ t ∈ turns, t.outcome ≠ none) {key : String}
    (hkey : ∀ j v, i < j → (key, v) ∉ injection j) :
    Keyed.find? key (Turn.last f turns).state.context.session =
        Keyed.find? key f.state.context.session ∨
      ∃ write v, l.Wrote w steps i turns write ∧ (key, v) ∈ write.data ∧
        Keyed.find? key (Turn.last f turns).state.context.session = some v := by
  induction turns generalizing i f with
  | nil => exact .inl rfl
  | cons t rest ih =>
    obtain ⟨ht, hrest⟩ := h.tail
    obtain ⟨hfirst, hothers⟩ := List.forall_mem_cons.mp hended
    have hentry : t.entry = f := h.first t rfl
    -- through the first turn, then through what is injected after it, then through the others
    have hturn : Keyed.find? key t.stop.state.context.session =
          Keyed.find? key f.state.context.session ∨
        ∃ write v, l.Wrote w steps i (t :: rest) write ∧ (key, v) ∈ write.data ∧
          Keyed.find? key t.stop.state.context.session = some v := by
      rw [ht] at hfirst
      obtain ⟨writes, hsession, hwrites⟩ := Loop.turn_writes hl hfirst
      rw [← ht] at hsession
      rw [hsession]
      refine (Write.find?_onto key _ writes).imp_right ?_
      rintro ⟨write, hmem, v, hv, hfound⟩
      exact ⟨write, v, ⟨0, t, rfl, hentry ▸ hwrites write hmem⟩, hv, hfound⟩
    rw [Turn.last_cons]
    cases rest with
    | nil => exact hturn
    | cons u rest =>
      obtain ⟨-, ⟨-, honward⟩, hturns⟩ := hrest u rfl
      have hnext : Keyed.find? key u.entry.state.context.session =
          Keyed.find? key t.stop.state.context.session := by
        rw [honward.session, Keyed.find?_extend_of_notMem fun v => hkey (i + 1) v (by omega)]
      rw [Turn.last_congr (List.cons_ne_nil u rest) t.stop u.entry]
      obtain hsame | ⟨write, v, hwrote, hv, hfound⟩ :=
        ih hturns hothers fun j v hj => hkey j v (by omega)
      · rw [hsame, hnext]
        exact hturn
      · have hwrote : l.Wrote w steps (i + 1) ((t :: u :: rest).drop 1) write := hwrote
        exact .inr ⟨write, v, hwrote.of_drop, hv, hfound⟩

/-! ### What is left in the session -/

theorem Exec.injection_eq {visits : List Visit} {k : Nat} {visit : Visit}
    (h : visits[k]? = some visit) : Exec.injection visits (k + 1) = visit.injection (k + 1) := by
  rw [Exec.injection, Nat.add_sub_cancel, h, Option.getD_some]

/-- What is injected in an iteration belongs to a visit, under a name with the iteration. -/
theorem Exec.mem_injection {visits : List Visit} {i : Nat} {key : String} {v : Json.Value}
    (h : (key, v) ∈ Exec.injection visits i) :
    ∃ visit name, visits[i - 1]? = some visit ∧ (name, v) ∈ visit ∧ key = Exec.numbered name i := by
  obtain ⟨name, hmem, hkey⟩ := Visit.mem_injection h
  cases hvisit : visits[i - 1]? with
  | none =>
    rw [hvisit] at hmem
    cases hmem
  | some visit =>
    rw [hvisit] at hmem
    exact ⟨visit, name, rfl, hmem, hkey⟩

section

variable {visits : List Visit} {last : Nat} {turns : List (Turn ρ σ)}

/-- **When the turn of an iteration comes,** the variables of its visit are in the session. -/
theorem Loop.Turns.find?_entry (h : l.Turns w (l.Advances w (Exec.injection visits) last) 1 f turns)
    (hfirst : g.Onward w none (Exec.injection visits 1) f)
    (hdistinct : ∀ visit ∈ visits, visit.Distinct) {k : Nat} {t : Turn ρ σ} {visit : Visit}
    {name : String} {v : Json.Value} (ht : turns[k]? = some t) (hvisit : visits[k]? = some visit)
    (hv : (name, v) ∈ visit) :
    Keyed.find? (Exec.numbered name (k + 1)) t.entry.state.context.session = some v := by
  -- the injection is the last thing that happens before the turn
  obtain ⟨before, hbefore⟩ : ∃ before : Json.Members, t.entry.state.context.session =
      Keyed.extend before (Exec.injection visits (k + 1)) := by
    cases k with
    | zero => exact ⟨_, h.first t ht ▸ hfirst.session⟩
    | succ k =>
      obtain ⟨hk, -⟩ := List.getElem?_eq_some_iff.mp ht
      have hnext := (h.next k _ t (List.getElem?_eq_getElem (by omega)) ht).2.2
      rw [Nat.add_comm 1 k] at hnext
      exact ⟨_, hnext.session⟩
  rw [hbefore, Exec.injection_eq hvisit]
  exact Visit.find?_injected (hdistinct visit (List.mem_of_getElem? hvisit)) hv before (k + 1)

/-- **What a loop leaves in the session** that was there before it. -/
structure Loop.Leaves (w : World ρ σ) (l : Loop ρ σ) (steps : List Step) (visits : List Visit)
    (turns : List (Turn ρ σ)) (before after : Json.Members) : Prop where
  /-- The variables of a visit are there, if the steps below the loop wrote none of their names. -/
  visited : ∀ k visit name v, k < turns.length → visits[k]? = some visit → (name, v) ∈ visit →
    (∀ write u, l.Wrote w steps 1 turns write → (Exec.numbered name (k + 1), u) ∉ write.data) →
    Keyed.find? (Exec.numbered name (k + 1)) after = some v
  /-- Any other name has the value that it had, or one that the steps below the loop wrote. -/
  others : ∀ key, (∀ k visit name v, visits[k]? = some visit → (name, v) ∈ visit →
      key ≠ Exec.numbered name (k + 1)) →
    Keyed.find? key after = Keyed.find? key before ∨
      ∃ write v, l.Wrote w steps 1 turns write ∧ (key, v) ∈ write.data ∧
        Keyed.find? key after = some v

/-- **Injected variables stay,** since no later iteration has their names. -/
theorem Loop.Turns.leaves_session {steps : List Step}
    (hl : l.children = Ready.ordered (runnable w steps))
    (h : l.Turns w (l.Advances w (Exec.injection visits) last) 1 f turns)
    (hfirst : g.Onward w none (Exec.injection visits 1) f)
    (hdistinct : ∀ visit ∈ visits, visit.Distinct) (hended : ∀ t ∈ turns, t.outcome ≠ none) :
    l.Leaves w steps visits turns g.state.context.session
      (Turn.last f turns).state.context.session where
  visited k visit name v hk hvisit hv hnone := by
    have ht := List.getElem?_eq_getElem hk
    -- from this iteration on, what is injected has other numbers at the end
    have hlater : ∀ j u, 1 + k < j →
        (Exec.numbered name (k + 1), u) ∉ Exec.injection visits j := by
      intro j u hj hmem
      obtain ⟨visit', name', -, -, hequal⟩ := Exec.mem_injection hmem
      have hnumber := (Exec.numbered_inj hequal).2
      omega
    have hdrop := (h.drop ht).find?_session hl
      (fun t ht => hended t (List.mem_of_mem_drop ht)) hlater
    rw [Turn.last_drop hk f, h.find?_entry hfirst hdistinct ht hvisit hv] at hdrop
    obtain hsame | ⟨write, u, hwrote, hu, -⟩ := hdrop
    · exact hsame
    · exact absurd hu (hnone write u hwrote.of_drop)
  others key hkey := by
    -- the name is none of those that are injected, in whatever iteration
    have hnever : ∀ j v, 0 < j → (key, v) ∉ Exec.injection visits j := by
      intro j v hj hmem
      obtain ⟨visit, name, hvisit, hv, hequal⟩ := Exec.mem_injection hmem
      rw [show j = j - 1 + 1 by omega] at hequal
      exact hkey (j - 1) visit name v hvisit hv hequal
    have hentry : Keyed.find? key f.state.context.session =
        Keyed.find? key g.state.context.session := by
      rw [hfirst.session, Keyed.find?_extend_of_notMem fun v => hnever 1 v Nat.one_pos]
    rw [← hentry]
    exact h.find?_session hl hended fun j v hj => hnever j v (by omega)

end

/-! ### The verdict -/

/-- **The verdict on a loop through its source.** It passes if and only if there is a turn for each
visit and all of them pass. -/
theorem Turn.Settled.visited {strategy : LoopStrategy} {n : Nat} {turns : List (Turn ρ σ)}
    {entry : Frame ρ σ} {ending : Ending}
    (h : Turn.Settled strategy turns (fun g ending => g = Turn.last entry turns ∧
      turns.length = n ∧ ending = (Tally.after {} 1 turns).verdict) g ending) :
    g = Turn.last entry turns ∧
    ((∀ t ∈ turns, strategy.GoesOn t.outcome) → turns.length = n) ∧
    (ending = .finished ↔ turns.length = n ∧ ∀ t ∈ turns, t.outcome = some .passed) := by
  cases h with
  | cut hlast hgoes =>
    have hmem := List.mem_of_getLast? hlast
    exact ⟨by simp [Turn.last, hlast], fun hall => absurd (hall _ hmem) hgoes,
      iff_of_false (LoopStrategy.endsAt_ne_finished hgoes) fun h => hgoes (.inl (h.2 _ hmem))⟩
  | through hall hspent =>
    obtain ⟨hend, hlength, rfl⟩ := hspent
    refine ⟨hend, fun _ => hlength, ?_⟩
    rw [Tally.after_verdict_finished hall]
    exact ⟨fun h => ⟨hlength, h⟩, And.right⟩

/-! ### The step -/

/-- **A loop goes through its visits:** there is a turn for each of them, in their order, unless a
turn cuts the loop off. -/
structure Loop.Visits (w : World ρ σ) (l : Loop ρ σ) (visits : List Visit) (entry : Frame ρ σ)
    (turns : List (Turn ρ σ)) : Prop where
  /-- What a turn needs is injected before it, after the pause. -/
  each : l.Turns w (fun i => Frame.Onward w l.rest (Exec.injection visits (i + 1))) 1 entry turns
  length_le : turns.length ≤ visits.length
  length_eq : (∀ t ∈ turns, l.strategy.GoesOn t.outcome) → turns.length = visits.length
  /-- When the children of an iteration start, the session has the variables of its visit. -/
  present : ∀ k t visit name v, turns[k]? = some t → visits[k]? = some visit → (name, v) ∈ visit →
    Keyed.find? (Exec.numbered name (k + 1)) (l.numbered (k + 1) t.entry).state.context.session =
      some v

theorem Loop.Turns.visits {visits : List Visit} {entry : Frame ρ σ} {turns : List (Turn ρ σ)}
    (h : l.Turns w (l.Advances w (Exec.injection visits) visits.length) 1 entry turns)
    (hentry : f.Onward w none (Exec.injection visits 1) entry)
    (hdistinct : ∀ visit ∈ visits, visit.Distinct) (hsome : visits ≠ [])
    (hfull : (∀ t ∈ turns, l.strategy.GoesOn t.outcome) → turns.length = visits.length) :
    l.Visits w visits entry turns where
  each := h.mono fun hlink => hlink.2
  length_le := h.length_le (List.length_pos_iff.mpr hsome)
  length_eq := hfull
  present k t visit name v ht hvisit hv := by
    rw [l.numbered_session]
    exact h.find?_entry hentry hdistinct ht hvisit hv

section

variable {step : Step} {s : RunState ρ σ} {strategy : LoopStrategy} {interval : Binary64}
variable {source : Json.Value} {start : Frame ρ σ} {visits : List Visit}

/-- The session that a step leaves, if it has extracted nothing. -/
theorem Left.session {ending : Ending} {r : StepResult} {s' : RunState ρ σ}
    (h : Left s g ending r s') : s'.context.session = g.state.context.session :=
  (congrArg Context.session h.context :)

/-- The iterations of a loop step whose source has been found. -/
theorem Step.iterations_source (interval : Binary64) (hmode : mode.Takes source)
    (hsource : Exec.source w step.toStepFields (step.loopFrame w s mode strategy) =
      .ok source start)
    (hvisits : Exec.visits (Exec.loopNames step.toStepFields) source = visits) :
    ∃ entry, (step.loopFrame w s mode strategy).Still w entry ∧
      Exec.iterations w mode (step.asLoop w strategy interval) (step.loopFrame w s mode strategy) =
        Exec.sourceIterations w (step.asLoop w strategy interval)
          (visits.mapIdx fun i visit => visit.injection (i + 1)) 1 {} entry := by
  subst hvisits
  have hstill := Exec.source_still w step.toStepFields (step.loopFrame w s mode strategy)
  rw [hsource] at hstill
  obtain ⟨entry, hentry, hx⟩ :=
    Exec.iterations_source (l := step.asLoop w strategy interval) hmode hsource
  exact ⟨entry, Frame.Onward.still hstill hentry, hx⟩

/-- **A loop that has no visits** does nothing, and passes. -/
theorem Step.run_source_nil (h : step.Loops s.context.settings mode strategy interval)
    (hmode : mode.Takes source)
    (hsource : Exec.source w step.toStepFields (step.loopFrame w s mode strategy) =
      .ok source start)
    (hvisits : Exec.visits (Exec.loopNames step.toStepFields) source = []) :
    ∃ r s', step.run w s = .ok r s' ∧ r.success = true ∧ r.children = [] ∧
      s'.outside = s.outside ∧ s'.context.silent = s.context.silent := by
  obtain ⟨entry, hentry, hx⟩ := Step.iterations_source interval hmode hsource hvisits
  obtain ⟨r, s', hrun, hleft, hsame⟩ := Step.ran_none h hx hentry nofun
  exact ⟨r, s', hrun, hleft.success.mpr rfl, hsame⟩

/-- **A loop step ran its turns,** of which there is one for each visit unless one cuts it off. -/
theorem Step.ran_source (h : step.Loops s.context.settings mode strategy interval)
    (hmode : mode.Takes source)
    (hsource : Exec.source w step.toStepFields (step.loopFrame w s mode strategy) =
      .ok source start)
    (hvisits : Exec.visits (Exec.loopNames step.toStepFields) source = visits)
    (hsome : visits ≠ []) :
    ∃ entry turns g ending,
      (s.openingFrame w step.toStepFields).Onward w none (Exec.injection visits 1) entry ∧
      (step.asLoop w strategy interval).Turns w ((step.asLoop w strategy interval).Advances w
        (Exec.injection visits) visits.length) 1 entry turns ∧
      Turn.Settled strategy turns (fun g ending => g = Turn.last entry turns ∧
        turns.length = visits.length ∧ ending = (Tally.after {} 1 turns).verdict) g ending ∧
      Ran s g ending (step.run w s) ∧ Turn.Told turns (step.run w s) := by
  have hopening : (s.openingFrame w step.toStepFields).Still w
      (step.loopFrame w s mode strategy) := .note _
  obtain ⟨g, hg, hx⟩ := Step.iterations_source interval hmode hsource hvisits
  generalize hiterations : Exec.sourceIterations w (step.asLoop w strategy interval)
    (visits.mapIdx fun i visit => visit.injection (i + 1)) 1 {} g = x at hx
  have hinjected : ∀ k data, (visits.mapIdx fun i visit => visit.injection (i + 1))[k]? =
      some data → data = Exec.injection visits (1 + k) := by
    intro k data hk
    rw [List.getElem?_mapIdx, Option.map_eq_some_iff] at hk
    obtain ⟨visit, hvisit, rfl⟩ := hk
    rw [Nat.add_comm 1 k, Exec.injection_eq hvisit]
  have hl := step.asLoop_children w strategy interval
  -- the iterations are numbered from one on, one for each visit
  have hlast : 1 + (visits.mapIdx fun i visit => visit.injection (i + 1)).length =
      visits.length + 1 := by rw [List.length_mapIdx, Nat.add_comm]
  have hwent := Exec.sourceIterations_went hl rfl (by simpa using hsome) hinjected hlast
    (h.wait (hopening.still hg)) hiterations
  have hentry := (hopening.still hg).inject (Exec.injection visits 1)
  have hsame : (g.mapState (RunState.extend w (Exec.injection visits 1) .session)).result =
      (step.loopFrame w s mode strategy).result := hg.result
  generalize g.mapState (RunState.extend w (Exec.injection visits 1) .session) = entry
    at hwent hentry hsame
  rw [List.length_mapIdx] at hwent
  obtain ⟨turns, g, ending, hran⟩ := Step.ran_turns h (fun hlink => hlink.2.result) hsame hx hwent
    (fun turns g ending => g = Turn.last entry turns ∧ turns.length = visits.length ∧
      ending = (Tally.after {} 1 turns).verdict) (by
        rintro turns ⟨hlength, rfl⟩
        exact ⟨rfl, ⟨rfl, hlength, rfl⟩, Tally.after_verdict_ne_crashed turns⟩)
  exact ⟨entry, turns, g, ending, hentry, hran⟩

/-- The names of all visits are different. -/
theorem LoopMode.Takes.distinct {names : Exec.LoopNames} (hmode : mode.Takes source)
    (hnames : (names.used mode).Nodup) {visit : Visit} (h : visit ∈ Exec.visits names source) :
    visit.Distinct := by
  rw [Visit.Distinct, hmode.names_eq h]
  exact hnames

/-- **Loops through a list or a mapping.** What a loop goes through is found once, when it begins,
and in key order if it is a mapping. There is an iteration for each part of it, in order, unless one
of them cuts the loop off, and when its children start, the session has the index, the key and the
value, under names that no other iteration has. They stay unless a step below the loop overwrites
them, and other names are changed by such a step only. -/
theorem Step.run_source (h : step.Loops s.context.settings mode strategy interval)
    (hmode : mode.Takes source)
    (hsource : Exec.source w step.toStepFields (step.loopFrame w s mode strategy) =
      .ok source start)
    (hnames : ((Exec.loopNames step.toStepFields).used mode).Nodup)
    (hvisits : Exec.visits (Exec.loopNames step.toStepFields) source = visits) :
    (∀ name name' i j, Exec.numbered name i = Exec.numbered name' j → name = name' ∧ i = j) ∧
    ((∀ name v, (s.openingFrame w step.toStepFields).state.context.lookup name = some v →
        v.Ordered) → (∀ v, step.loopIterable = some v → v.Ordered) → source.Ordered) ∧
    (visits = [] → ∃ r s', step.run w s = .ok r s' ∧ r.success = true ∧ r.children = [] ∧
      s'.outside = s.outside ∧ s'.context.silent = s.context.silent) ∧
    ∃ entry turns,
      (s.openingFrame w step.toStepFields).Onward w none (Exec.injection visits 1) entry ∧
      (step.asLoop w strategy interval).Visits w visits entry turns ∧
      Turn.Told turns (step.run w s) ∧
      ∀ r s', step.run w s = .ok r s' →
        (r.success = true ↔
          turns.length = visits.length ∧ ∀ t ∈ turns, t.outcome = some .passed) ∧
        (step.asLoop w strategy interval).Leaves w step.children visits turns
          s.context.session s'.context.session := by
  subst hvisits
  generalize hvisits : Exec.visits (Exec.loopNames step.toStepFields) source = visits
  have hopening : (s.openingFrame w step.toStepFields).Still w
      (step.loopFrame w s mode strategy) := .note _
  refine ⟨fun _ _ _ _ => Exec.numbered_inj, fun hlookup hdeclared => ?_, ?_, ?_⟩
  · rw [← hopening.lookup] at hlookup
    exact Context.source_ordered hlookup hdeclared (Exec.source_eq hsource)
  · rintro rfl
    exact Step.run_source_nil h hmode hsource hvisits
  · by_cases hsome : visits = []
    · -- nothing is injected, and there are no turns
      subst hsome
      obtain ⟨r, s', hrun, hpassed, hchildren, -, hcontext⟩ :=
        Step.run_source_nil h hmode hsource hvisits
      refine ⟨_, [], Frame.Still.rfl, ⟨.nil, Nat.le_refl 0, fun _ => rfl, by simp⟩, ?_,
        fun r' s'' hrun' => ?_⟩
      · rw [hrun]
        exact ⟨by simp, by simp, hchildren⟩
      · cases hrun.symm.trans hrun'
        refine ⟨iff_of_true hpassed ⟨rfl, by simp⟩, by simp, fun key _ => .inl ?_⟩
        exact congrArg (Keyed.find? key) (congrArg Context.session hcontext :)
    · obtain ⟨entry, turns, g, ending, hentry, hturns, hsettled, hran, htold⟩ :=
        Step.ran_source h hmode hsource hvisits hsome
      obtain ⟨rfl, hfull, hpassed⟩ := hsettled.visited
      have hdistinct : ∀ visit ∈ visits, visit.Distinct := fun visit hvisit =>
        hmode.distinct hnames (hvisits ▸ hvisit)
      refine ⟨entry, turns, hentry, hturns.visits hentry hdistinct hsome hfull, htold,
        fun r s' hrun => ?_⟩
      rw [hrun] at hran htold
      obtain ⟨-, hleft⟩ := hran
      rw [hleft.success, hleft.session, ← s.openingFrame_session w step.toStepFields]
      exact ⟨hpassed, hturns.leaves_session rfl hentry hdistinct htold.1⟩

end

/-- A loop through a mapping, with names that look like those of other iterations. Its iterations
overwrite the variable from which it has taken the mapping. -/
def Step.shadowed : Step :=
  ⟨{ kind := some "loop", loopMode := some "dict", loopOnError := some "stop"
     loopIndexName := some (.string "n"), loopKeyName := some "n_1"
     loopValueName := some "n_1_1", loopIterable := some (.string "$\x7bitems_1\x7d") },
    [⟨{ kind := some "loop", loopMode := some "iterable", loopOnError := some "stop"
        loopValueName := some "items", loopIterable := some (.array [.string "gone"]) },
      [⟨{ kind := some "group" }, []⟩]⟩]⟩

/-- Two entries. -/
def Json.Value.pair : Json.Value := .object [("a", .ofNat 1), ("b", .ofNat 2)]

/-- It goes through both entries all the same. -/
theorem Step.run_source_shadowed :
    Step.shadowed.Loops ({} : Context).settings .dict .stop (.zero false) ∧
    LoopMode.Takes .dict Json.Value.pair ∧
    ((Exec.loopNames Step.shadowed.toStepFields).used .dict).Nodup ∧
    (∃ start, Exec.source (Site.world []) Step.shadowed.toStepFields
      (Step.shadowed.loopFrame (Site.world []) ⟨{ session := [("items_1", .pair)] }, {}, {}⟩
        .dict .stop) = .ok .pair start) ∧
    ∃ r s', ∃ turns : List (Turn Site Store),
      Step.shadowed.run (Site.world []) ⟨{ session := [("items_1", .pair)] }, {}, {}⟩ = .ok r s' ∧
      r.success = true ∧ turns.length = 2 ∧
      (Keyed.find? "items_1" s'.context.session).bind Json.Value.asString? = some "gone" ∧
      ∀ t, turns[1]? = some t →
        Keyed.find? "n_2" ((Step.shadowed.asLoop (Site.world []) .stop (.zero false)).numbered 2
          t.entry).state.context.session = some (.ofNat 2) ∧
        Keyed.find? "n_1_2" ((Step.shadowed.asLoop (Site.world []) .stop (.zero false)).numbered 2
          t.entry).state.context.session = some (.string "b") ∧
        Keyed.find? "n_1_1_2" ((Step.shadowed.asLoop (Site.world []) .stop (.zero false)).numbered 2
          t.entry).state.context.session = some (.ofNat 2) := by
  have hseen : Step.shadowed.seen (fun r s' => (r.success,
      (Keyed.find? "items_1" s'.context.session).bind Json.Value.asString?)) (Site.world [])
        ⟨{ session := [("items_1", .pair)] }, {}, {}⟩ = some (true, some "gone") := by
    decide +kernel
  have hloops : Step.shadowed.Loops ({} : Context).settings .dict .stop (.zero false) := by
    refine ⟨rfl, rfl, rfl, ?_⟩
    unfold Exec.loopInterval
    exact if_pos (by decide +kernel)
  have hmode : LoopMode.Takes .dict Json.Value.pair := .entries
  have hnames : ((Exec.loopNames Step.shadowed.toStepFields).used .dict).Nodup := by
    decide +kernel
  obtain ⟨start, hsource⟩ : ∃ start, Exec.source (Site.world []) Step.shadowed.toStepFields
      (Step.shadowed.loopFrame (Site.world []) ⟨{ session := [("items_1", .pair)] }, {}, {}⟩
        .dict .stop) = .ok .pair start := ⟨_, rfl⟩
  have hvisits : Exec.visits (Exec.loopNames Step.shadowed.toStepFields) Json.Value.pair =
      [[("n", .ofNat 1), ("n_1", .string "a"), ("n_1_1", .ofNat 1)],
        [("n", .ofNat 2), ("n_1", .string "b"), ("n_1_1", .ofNat 2)]] := rfl
  have hrun_source := Step.run_source (w := Site.world [])
    (s := ⟨{ session := [("items_1", .pair)] }, {}, {}⟩) hloops hmode hsource hnames hvisits
  obtain ⟨r, s', hrun, hlook⟩ := Step.run_of_seen hseen
  obtain ⟨hsuccess, htext⟩ := Prod.mk.inj hlook
  rw [hrun] at hrun_source
  obtain ⟨-, -, -, entry, turns, -, hturns, -, hverdict⟩ := hrun_source
  refine ⟨hloops, hmode, hnames, ⟨start, hsource⟩, r, s', turns, hrun, hsuccess,
    ((hverdict r s' rfl).1.mp hsuccess).1, htext, fun t ht => ⟨?_, ?_, ?_⟩⟩
  · exact hturns.present 1 t _ "n" _ ht rfl (by simp)
  · exact hturns.present 1 t _ "n_1" _ ht rfl (by simp)
  · exact hturns.present 1 t _ "n_1_1" _ ht rfl (by simp)

end Scenario
