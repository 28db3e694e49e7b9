import Scenario.Proofs.Link.Life
import Scenario.Proofs.Inclusion

/-!
# Kindred runs

Two runs of the same steps are *kin* if they see the same variables and are answered alike, whatever
else sets them apart: they may be in other cases, write other traces and other reports, look at
another clock, and know other keys.

* `Outside.Concord` — outsides that answer alike, now and later. In a strict concord even the clocks
  agree.
* `Kinship` — how far two runs may differ; `Kinship.Lawful` — what has to be known of that.
* `Kinship.living` — kindred runs correspond.
* `Kinship.paired` — steps whose keys are shared, and which include no case that only one of the
  two runs is in, are run alike. The induction is on the calls of steps.
-/

namespace Scenario

variable {ρ σ τ α : Type}

/-! ### Outsides that answer alike -/

/-- **Outsides in concord** answer alike, now and later. What they answer may depend on the client,
which is `none` until it is opened; one that is opened does not take the place of one that is there. -/
structure Outside.Concord (o : Outside ρ) (strict : Prop)
    (near : Option Http.Client × ρ → Option Http.Client × ρ → Prop) : Prop where
  now : strict → ∀ {a b x y}, near (a, x) (b, y) → o.now x = o.now y
  slept : ∀ {a b x y}, near (a, x) (b, y) → ∀ seconds,
    near (a, o.sleep seconds x) (b, o.sleep seconds y)
  opened : ∀ {a b x y}, near (a, x) (b, y) → ∀ client : Http.Client,
    near (some (a.getD client), x) (some (b.getD client), y)
  host : ∀ {a b x y}, near (a, x) (b, y) → ∀ project environment,
    (o.environmentHost project environment x).1 = (o.environmentHost project environment y).1 ∧
      near (a, (o.environmentHost project environment x).2)
        (b, (o.environmentHost project environment y).2)
  load : ∀ {a b x y}, near (a, x) (b, y) → ∀ id,
    (o.loadTrouble id x).1 = (o.loadTrouble id y).1 ∧
      near (a, (o.loadTrouble id x).2) (b, (o.loadTrouble id y).2)
  send : ∀ {a b x y}, near (some a, x) (some b, y) → ∀ request,
    (o.send a request x).1 = (o.send b request y).1 ∧
      near (some (o.send a request x).2.1, (o.send a request x).2.2)
        (some (o.send b request y).2.1, (o.send b request y).2.2)
  script : ∀ {a b x y}, near (some a, x) (some b, y) → ∀ job,
    (o.runScript a job x).1 = (o.runScript b job y).1 ∧
      near (some (o.runScript a job x).2.1, (o.runScript a job x).2.2)
        (some (o.runScript b job y).2.1, (o.runScript b job y).2.2)

/-- An outside is in concord with itself. -/
theorem Outside.Concord.rfl (o : Outside ρ) : o.Concord True Eq where
  now _ _ _ _ _ h := congrArg (fun p : Option Http.Client × ρ => o.now p.2) h
  slept h _ := by cases h; exact Eq.refl _
  opened h _ := by cases h; exact Eq.refl _
  host h _ _ := by cases h; exact ⟨Eq.refl _, Eq.refl _⟩
  load h _ := by cases h; exact ⟨Eq.refl _, Eq.refl _⟩
  send h _ := by cases h; exact ⟨Eq.refl _, Eq.refl _⟩
  script h _ := by cases h; exact ⟨Eq.refl _, Eq.refl _⟩

/-! ### The client -/

namespace RunState

variable (w : World ρ σ) {s : RunState ρ σ}

/-- The state with a client, which is not used if there is one. -/
def connected (client : Http.Client) (s : RunState ρ σ) : RunState ρ σ :=
  { s with context := { s.context with client := some (s.context.client.getD client) } }

theorem client_kept {client : Http.Client} (hs : s.context.client = some client)
    (other : Http.Client) : s.client w = (.ok client, s.connected other) := by
  have hsame : s.connected other = s := by
    unfold connected
    rw [hs, Option.getD_some, ← hs]
  unfold RunState.client
  rw [hs, hsame]

theorem client_opened {client : Http.Client} (hs : s.context.client = none)
    (hopen : openClient s.context.settings = .ok client) :
    s.client w = (.ok client, (s.connected client).note w (.clientOpened s.context.case.code)) := by
  unfold RunState.client connected
  rw [hs]
  dsimp only [note]
  rw [hopen]
  rfl

theorem client_crashed {crash : Crash} (hs : s.context.client = none)
    (hopen : openClient s.context.settings = .error crash) :
    s.client w = (.error crash, s.note w (.clientOpened s.context.case.code)) := by
  unfold RunState.client
  rw [hs]
  dsimp only [note]
  rw [hopen]

/-- Asking for the client tells the watcher at most. -/
theorem client_records {q : σ → Prop} (hq : ∀ {x}, q x → ∀ n, q (w.note n x))
    (h : q s.records) : q (s.client w).2.records := by
  cases hs : s.context.client with
  | some client => rwa [client_kept w hs client]
  | none =>
    cases hopen : openClient s.context.settings with
    | ok client =>
      rw [client_opened w hs hopen]
      exact hq h _
    | error crash =>
      rw [client_crashed w hs hopen]
      exact hq h _

end RunState

/-- Asking for the client and going on with it. -/
theorem Exec.client_bind (w : World ρ σ) (k : Http.Client → Exec ρ σ α) (f : Frame ρ σ) :
    (Exec.client w >>= k) f =
      match f.state.client w with
      | (.ok client, s) => k client { f with state := s }
      | (.error crash, s) => .error (.crash crash) { f with state := s } := by
  have hlift : ∀ l : Except Crash Http.Client → Exec ρ σ Http.Client,
      (Exec.lift (RunState.client w) >>= l) f =
        l (f.state.client w).1 { f with state := (f.state.client w).2 } := fun _ => rfl
  change EStateM.bind (Exec.client w) k f = _
  unfold EStateM.bind Exec.client
  rw [hlift]
  rcases f.state.client w with ⟨_ | _, s⟩ <;> rfl

/-! ### Kindred states -/

namespace Context

theorem Sees.symm {c d : Context} (h : c.Sees d) : d.Sees c :=
  ⟨h.environment.symm, h.settings.symm, h.defined.symm, h.session.symm, h.extract.symm⟩

theorem Sees.trans {c d e : Context} (h : c.Sees d) (h' : d.Sees e) : c.Sees e :=
  ⟨h.environment.trans h'.environment, h.settings.trans h'.settings, h.defined.trans h'.defined,
    h.session.trans h'.session, h.extract.trans h'.extract⟩

/-- A context without its variables and its place. -/
def unplaced (ctx : Context) : Context :=
  { ctx with defined := [], session := [], extract := [], key := none, including := [] }

end Context

/-- A client is there, or can be opened. -/
def Context.Connects (ctx : Context) : Prop :=
  ctx.client.isSome = true ∨ ∃ client, openClient ctx.settings = .ok client

/-- **What stays** in a run: its settings, its environment, and whether there can be a client. -/
structure Context.Stays (home ctx : Context) : Prop where
  environment : ctx.environment = home.environment
  settings : ctx.settings = home.settings
  connects : ctx.Connects ↔ home.Connects

namespace Context.Stays

variable {home c d : Context}

theorem congr (h : home.Stays c) (henvironment : d.environment = c.environment)
    (hsettings : d.settings = c.settings) (hclient : d.client = c.client) : home.Stays d where
  environment := henvironment.trans h.environment
  settings := hsettings.trans h.settings
  connects := by
    have hc := h.connects
    unfold Connects at hc ⊢
    rwa [hsettings, hclient]

/-- Where there can be a client, there may be any. -/
theorem connected (h : home.Stays c) (hc : c.Connects) (client : Option Http.Client)
    (hclient : client.isSome = true) : home.Stays { c with client } where
  environment := h.environment
  settings := h.settings
  connects := ⟨fun _ => h.connects.mp hc, fun _ => .inl hclient⟩

end Context.Stays

/-- **How far two runs may differ.** -/
structure Kinship (ρ σ τ : Type) where
  /-- Whether not even the time may differ. -/
  strict : Prop
  /-- Clients and outsides that answer alike. -/
  near : Option Http.Client × ρ → Option Http.Client × ρ → Prop
  traces : Trace → Trace → Prop
  records : σ → τ → Prop
  lost : σ → Prop
  lost' : τ → Prop
  /-- The keys that both runs may reach. -/
  shared : String → Prop
  /-- The iterations of the other keys on the left, none of which is reached … -/
  counts : String → Nat
  /-- … and those on the right. -/
  counts' : String → Nat
  code : Option String
  code' : Option String
  /-- What stays in both runs. -/
  home : Context

namespace Kinship

/-- **Kindred states.** -/
structure States (K : Kinship ρ σ τ) (s : RunState ρ σ) (t : RunState ρ τ) : Prop where
  sees : s.context.Sees t.context
  near : K.near (s.context.client, s.outside) (t.context.client, t.outside)
  stays : K.home.Stays s.context
  stays' : K.home.Stays t.context
  iterations : ∀ key, K.shared key → s.context.iteration key = t.context.iteration key
  counts : ∀ key, ¬ K.shared key → s.context.iteration key = K.counts key ∧
    t.context.iteration key = K.counts' key
  traces : K.traces s.context.logs t.context.logs
  code : s.context.reportCode = K.code
  code' : t.context.reportCode = K.code'
  records : K.records s.records t.records

/-- **What has to be known** of how two runs differ. -/
structure Lawful (K : Kinship ρ σ τ) (w : World ρ σ) (r : Recorder τ) : Prop where
  concord : w.toOutside.Concord K.strict K.near
  /-- What one side tells its watcher the other one need not tell. -/
  note : ∀ {a b}, K.records a b → ∀ n, K.records (w.note n a) b
  note' : ∀ {a b}, K.records a b → ∀ n, K.records a (r.note n b)
  line : ∀ {c d : Context}, K.traces c.logs d.logs → ∀ key {text text'},
    Retimed K.strict text text' → ∀ {i i'}, (K.strict → i = i') →
    K.traces (c.logged key ⟨i, text⟩).logs (d.logged key ⟨i', text'⟩).logs
  detail : ∀ {s : RunState ρ σ} {t : RunState ρ τ}, K.States s t → ∀ (step : StepFields)
    {result result' : StepResult}, result.Matches K.strict result' → ∀ {started started'},
    (K.strict → started = started') →
    K.traces (s.recordDetail w step result started).context.logs
        (t.recordDetail (w.recordedBy r) step result' started').context.logs ∧
      K.records (s.recordDetail w step result started).records
        (t.recordDetail (w.recordedBy r) step result' started').records
  lost : ∀ {a}, K.lost a → (∀ n, K.lost (w.note n a)) ∧ ∀ d, K.lost (w.createDetail d a).2
  lost' : ∀ {b}, K.lost' b → (∀ n, K.lost' (r.note n b)) ∧ ∀ d, K.lost' (r.createDetail d b).2
  /-- Unless the clocks agree, a run in which the time of a loop is up is not compared any more. -/
  late : ¬ K.strict → ∀ key done timeout a,
    K.lost (w.note (.logged key (timeoutLine done timeout)) a)
  late' : ¬ K.strict → ∀ key done timeout b,
    K.lost' (r.note (.logged key (timeoutLine done timeout)) b)

/-- Where kindred runs are: in their cases, and in one step. -/
structure Place where
  left : List Int
  right : List Int
  key : Option String

/-- **Kindred runs** as a correspondence. -/
def correspondence (K : Kinship ρ σ τ) : Correspondence ρ σ τ where
  Place := Place
  strict := K.strict
  inside p s t := K.States s t ∧ (s.context.including = p.left ∧ s.context.key = p.key) ∧
    t.context.including = p.right ∧ t.context.key = p.key
  -- a run breaks down where there is no client and none can be opened
  wrecks _ _ _ := ¬ K.home.Connects
  lost := K.lost
  lost' := K.lost'
  left p := p.left
  right p := p.right
  into p id := { p with left := p.left ++ [id], right := p.right ++ [id] }
  within p key := { p with key := some key }
  numbered _ key := K.shared key

namespace Lawful

variable {K : Kinship ρ σ τ} {w : World ρ σ} {r : Recorder τ} (h : K.Lawful w r)
variable {p : Place} {s : RunState ρ σ} {t : RunState ρ τ}

include h

/-- A notice on each side. -/
theorem noted (hst : K.States s t) (n n' : Notice) :
    K.States (s.note w n) (t.note (w.recordedBy r) n') :=
  { hst with records := h.note' (h.note hst.records n) n' }

/-- A line on each side, under one key. -/
theorem lined (hst : K.States s t) (key : String) {text text' : String}
    (htext : Retimed K.strict text text') :
    K.States (s.logTo w key text) (t.logTo (w.recordedBy r) key text') where
  sees := ⟨hst.sees.environment, hst.sees.settings, hst.sees.defined, hst.sees.session,
    hst.sees.extract⟩
  near := hst.near
  stays := hst.stays.congr rfl rfl rfl
  stays' := hst.stays'.congr rfl rfl rfl
  iterations := hst.iterations
  counts := hst.counts
  traces := h.line hst.traces key htext fun hs => h.concord.now hs hst.near
  code := hst.code
  code' := hst.code'
  records := h.note' (h.note hst.records _) _

/-! ### The client -/

/-- A client on each side: those that are there, or one that is opened. -/
theorem connected (hst : K.States s t) (hs : s.context.Connects) (client : Http.Client) :
    K.States (s.connected client) (t.connected client) where
  sees := ⟨hst.sees.environment, hst.sees.settings, hst.sees.defined, hst.sees.session,
    hst.sees.extract⟩
  near := h.concord.opened hst.near client
  stays := hst.stays.connected hs _ rfl
  stays' := hst.stays'.connected (hst.stays'.connects.mpr (hst.stays.connects.mp hs)) _ rfl
  iterations := hst.iterations
  counts := hst.counts
  traces := hst.traces
  code := hst.code
  code' := hst.code'
  records := hst.records

/-- **The client** is there on both sides in the end, or both runs crash alike. -/
theorem client_states (hst : K.States s t) :
    (∃ a b c, (s.client w).1 = .ok a ∧ (t.client (w.recordedBy r)).1 = .ok b ∧
      K.States (s.client w).2 (t.client (w.recordedBy r)).2 ∧
      a = s.context.client.getD c ∧ b = t.context.client.getD c ∧
      (s.client w).2.context = (s.connected c).context ∧
      (t.client (w.recordedBy r)).2.context = (t.connected c).context) ∨
    ∃ crash, (s.client w).1 = .error crash ∧ (t.client (w.recordedBy r)).1 = .error crash ∧
      ¬ K.home.Connects := by
  have hconnects := hst.stays.connects.trans hst.stays'.connects.symm
  have connected := fun hs => h.connected hst hs
  have hsettings := hst.sees.settings
  unfold Context.Connects at hconnects connected
  cases hs : s.context.client with
  | some a =>
    cases ht : t.context.client with
    | some b =>
      rw [RunState.client_kept w hs a, RunState.client_kept (w.recordedBy r) ht a]
      exact .inl ⟨a, b, a, rfl, rfl, connected (.inl (by rw [hs]; rfl)) a, rfl, rfl, rfl, rfl⟩
    | none =>
      -- one side is connected, so the other one can be
      obtain ⟨b, hopen⟩ : ∃ b, openClient t.context.settings = .ok b := by
        rw [hs, ht] at hconnects
        simpa using hconnects
      rw [RunState.client_kept w hs b, RunState.client_opened (w.recordedBy r) ht hopen]
      have hstates := connected (.inl (by rw [hs]; rfl)) b
      exact .inl ⟨a, b, b, rfl, rfl, { hstates with records := h.note' hstates.records _ }, rfl,
        rfl, rfl, rfl⟩
  | none =>
    cases ht : t.context.client with
    | some b =>
      obtain ⟨a, hopen⟩ : ∃ a, openClient s.context.settings = .ok a := by
        rw [hs, ht] at hconnects
        simpa using hconnects
      rw [RunState.client_opened w hs hopen, RunState.client_kept (w.recordedBy r) ht a]
      have hstates := connected (.inr ⟨a, hopen⟩) a
      exact .inl ⟨a, b, a, rfl, rfl, { hstates with records := h.note hstates.records _ }, rfl,
        rfl, rfl, rfl⟩
    | none =>
      cases hopen : openClient s.context.settings with
      | error crash =>
        rw [RunState.client_crashed w hs hopen,
          RunState.client_crashed (w.recordedBy r) ht (hsettings ▸ hopen)]
        refine .inr ⟨crash, rfl, rfl, fun hhome => ?_⟩
        have hnone := hst.stays.connects.mpr hhome
        unfold Context.Connects at hnone
        rw [hs, hopen] at hnone
        simp at hnone
      | ok a =>
        rw [RunState.client_opened w hs hopen,
          RunState.client_opened (w.recordedBy r) ht (hsettings ▸ hopen)]
        have hstates := connected (.inr ⟨a, hopen⟩) a
        exact .inl ⟨a, a, a, rfl, rfl,
          { hstates with records := h.note' (h.note hstates.records _) _ }, rfl, rfl, rfl, rfl⟩

/-- Going on with the client on both sides. -/
theorem connecting {V : α → α → Prop} {k : Http.Client → Exec ρ σ α}
    {l : Http.Client → Exec ρ τ α}
    (hk : ∀ a b f g, (K.correspondence.link p).kept f g → f.state.context.Connects →
      K.near (some a, f.state.outside) (some b, g.state.outside) →
      (K.correspondence.link p).Ends V (k a f) (l b g))
    (hl : ∀ a, (k a).Keeps K.lost) (hr : ∀ b, (l b).Keeps K.lost') :
    (K.correspondence.link p).Holds V (Exec.client w >>= k)
      (Exec.client (w.recordedBy r) >>= l) where
  ends f g hfg := by
    obtain ⟨⟨hst, hs, ht⟩, hresult⟩ := hfg
    rw [Exec.client_bind, Exec.client_bind]
    -- both open a client, or both fail to
    rcases h.client_states hst with ⟨a, b, c, ha, hb, hst', hac, hbc, hs', ht'⟩ |
      ⟨crash, ha, hb, hwreck⟩
    · generalize f.state.client w = x, g.state.client (w.recordedBy r) = y at ha hb hst' hs' ht'
      obtain ⟨_, s'⟩ := x
      obtain ⟨_, t'⟩ := y
      obtain rfl : _ = Except.ok a := ha
      obtain rfl : _ = Except.ok b := hb
      have hnear := hst'.near
      rw [(congrArg Context.client hs').trans (congrArg some hac.symm),
        (congrArg Context.client ht').trans (congrArg some hbc.symm)] at hnear
      refine hk a b _ _ ⟨⟨hst', ?_, ?_⟩, hresult⟩ (.inl ?_) hnear
      · exact ⟨(congrArg Context.including hs').trans hs.1, (congrArg Context.key hs').trans hs.2⟩
      · exact ⟨(congrArg Context.including ht').trans ht.1, (congrArg Context.key ht').trans ht.2⟩
      · rw [congrArg Context.client hs']
        rfl
    · generalize f.state.client w = x, g.state.client (w.recordedBy r) = y at ha hb
      obtain ⟨_, s'⟩ := x
      obtain ⟨_, t'⟩ := y
      obtain rfl : _ = Except.error crash := ha
      obtain rfl : _ = Except.error crash := hb
      exact .crash hwreck
  -- a run that is lost before is lost after
  left f hf := by
    have hkept := RunState.client_records w (q := K.lost) (fun hx => (h.lost hx).1) hf
    rw [Exec.client_bind]
    generalize f.state.client w = x at hkept
    obtain ⟨_ | a, s'⟩ := x
    · exact hkept
    · exact hl a _ hkept
  right g hg := by
    have hkept := RunState.client_records (w.recordedBy r) (q := K.lost')
      (fun hx => (h.lost' hx).1) hg
    rw [Exec.client_bind]
    generalize g.state.client (w.recordedBy r) = y at hkept
    obtain ⟨_ | b, t'⟩ := y
    · exact hkept
    · exact hr b _ hkept

/-! ### Kindred states are tied -/

omit h in
/-- What a request or a script leaves behind: a client and an outside. -/
theorem replied (hst : K.States s t) (hs : s.context.Connects) {a b : Http.Client} {x y : ρ}
    (hnear : K.near (some a, x) (some b, y)) :
    K.States { s with outside := x, context := { s.context with client := some a } }
      { t with outside := y, context := { t.context with client := some b } } where
  sees := ⟨hst.sees.environment, hst.sees.settings, hst.sees.defined, hst.sees.session,
    hst.sees.extract⟩
  near := hnear
  stays := hst.stays.connected hs _ rfl
  stays' := hst.stays'.connected (hst.stays'.connects.mpr (hst.stays.connects.mp hs)) _ rfl
  iterations := hst.iterations
  counts := hst.counts
  traces := hst.traces
  code := hst.code
  code' := hst.code'
  records := hst.records

omit h in
/-- A question that both outsides answer alike. -/
theorem asked {ask : ρ → α × ρ} (hask : ∀ {a b x y}, K.near (a, x) (b, y) →
    (ask x).1 = (ask y).1 ∧ K.near (a, (ask x).2) (b, (ask y).2)) :
    (K.correspondence.link p).Holds Eq
      (Exec.lift fun s => ((ask s.outside).1, { s with outside := (ask s.outside).2 }))
      (Exec.lift fun s => ((ask s.outside).1, { s with outside := (ask s.outside).2 })) :=
  .lift (fun _ _ hfg => (hask hfg.1.1.near).1)
    (fun _ _ hfg => ⟨⟨{ hfg.1.1 with near := (hask hfg.1.1.near).2 }, hfg.1.2⟩, hfg.2⟩)
    (fun _ hs => hs) fun _ ht => ht

/-- **Kindred states are tied.** -/
theorem tie (p : Place) : Tie w r K.strict (K.correspondence.link p) where
  mild _ := trivial
  script _ _ _ _ _ := trivial
  sees h := h.1.1.sees
  result h := h.2
  now hs _ _ hfg := h.concord.now hs hfg.1.1.near
  note hfg n := ⟨⟨h.noted hfg.1.1 n n, hfg.1.2⟩, hfg.2⟩
  line {f g} hfg text text' htext := by
    have hkey : g.state.context.key = f.state.context.key :=
      hfg.1.2.2.2.trans hfg.1.2.1.2.symm
    have hlined := h.lined hfg.1.1 (f.state.context.key.getD "") htext
    refine ⟨⟨?_, hfg.1.2⟩, hfg.2⟩
    change K.States (f.state.logTo w (f.state.context.key.getD "") text)
      (g.state.logTo (w.recordedBy r) (g.state.context.key.getD "") text')
    rw [hkey]
    exact hlined
  slept hfg seconds :=
    ⟨⟨{ hfg.1.1 with near := h.concord.slept hfg.1.1.near seconds }, hfg.1.2⟩, hfg.2⟩
  produced hfg extract := ⟨⟨{ hfg.1.1 with
    sees := { hfg.1.1.sees with extract := rfl }
    stays := hfg.1.1.stays.congr rfl rfl rfl
    stays' := hfg.1.1.stays'.congr rfl rfl rfl }, hfg.1.2⟩, hfg.2⟩
  worded hfg _ _ _ _ hmatch := ⟨hfg.1, hmatch _ _ hfg.2⟩
  client := by
    have hpure := h.connecting (p := p) (V := fun _ _ => True) (k := pure) (l := pure)
      (fun _ _ _ _ hfg _ _ => .ok trivial hfg) (fun _ _ hf => hf) fun _ _ hg => hg
    rwa [bind_pure, bind_pure] at hpure
  send request := by
    refine h.connecting (fun a b f g hfg hf hnear => ?_) (fun _ _ hf => hf) fun _ _ hg => hg
    obtain ⟨hanswer, hnear'⟩ := h.concord.send hnear request
    exact .ok hanswer ⟨⟨replied hfg.1.1 hf hnear', hfg.1.2⟩, hfg.2⟩
  runScript code := by
    refine h.connecting (fun a b f g hfg hf hnear => ?_) (fun _ _ hf => hf) fun _ _ hg => hg
    let job (ctx : Context) : ScriptJob :=
      ⟨code, ctx.defined, ctx.session, ctx.extract, ctx.settings.scriptOperations⟩
    -- the job is the same on both sides
    have hjob : job f.state.context = job g.state.context := by
      have hsees := hfg.1.1.sees
      simp only [job, hsees.defined, hsees.session, hsees.extract, hsees.settings]
    have hanswer := h.concord.script hnear (job f.state.context)
    have hright : w.runScript b (job f.state.context) g.state.outside =
        w.runScript b (job g.state.context) g.state.outside := by rw [hjob]
    rw [hright] at hanswer
    exact .ok hanswer.1 ⟨⟨replied hfg.1.1 hf hanswer.2, hfg.1.2⟩, hfg.2⟩
  host project environment := asked fun hnear => h.concord.host hnear project environment
  load id := asked fun hnear => h.concord.load hnear id
  wreck h _ := h
  lost hx := (h.lost hx).1
  lost' hy := (h.lost' hy).1
  late := h.late
  late' := h.late'

omit h in
/-- A change of both contexts, in their variables and their places alone, after which they still see
the same. -/
theorem mapContext (hst : K.States s t) {f g : Context → Context}
    (hsees : (f s.context).Sees (g t.context)) (hf : (f s.context).unplaced = s.context.unplaced)
    (hg : (g t.context).unplaced = t.context.unplaced) :
    K.States { s with context := f s.context } { t with context := g t.context } := by
  -- what is compared besides is seen without variables and place
  have same : ∀ {c d : Context}, c.unplaced = d.unplaced → c.client = d.client ∧
      c.iteration = d.iteration ∧ c.logs = d.logs ∧ c.reportCode = d.reportCode ∧
      (c.environment = d.environment ∧ c.settings = d.settings) := fun {c d} hcd =>
    ⟨(congrArg Context.client hcd :), (congrArg Context.iteration hcd :),
      (congrArg Context.logs hcd :), (congrArg Context.reportCode hcd :),
      (congrArg Context.environment hcd :), (congrArg Context.settings hcd :)⟩
  obtain ⟨hc, hi, hl, hr, he, hs⟩ := same hf
  obtain ⟨hc', hi', hl', hr', he', hs'⟩ := same hg
  exact {
    sees := hsees
    near := by
      rw [hc, hc']
      exact hst.near
    stays := hst.stays.congr he hs hc
    stays' := hst.stays'.congr he' hs' hc'
    iterations := by
      rw [hi, hi']
      exact hst.iterations
    counts := by
      rw [hi, hi']
      exact hst.counts
    traces := by
      rw [hl, hl']
      exact hst.traces
    code := hr.trans hst.code
    code' := hr'.trans hst.code'
    records := hst.records }

omit h in
theorem counted (hst : K.States s t) {key : String} (hkey : K.shared key) (i : Nat) :
    K.States { s with context := s.context.setIteration key i }
      { t with context := t.context.setIteration key i } where
  sees := { hst.sees with }
  near := hst.near
  stays := hst.stays.congr rfl rfl rfl
  stays' := hst.stays'.congr rfl rfl rfl
  iterations k hk := by
    -- the number of this key is the new one on both sides
    by_cases hsame : k = key
    · subst hsame
      rw [Context.iteration_setIteration, Context.iteration_setIteration]
    · rw [Context.iteration_setIteration_ne _ hsame, Context.iteration_setIteration_ne _ hsame]
      exact hst.iterations k hk
  counts k hk := by
    have hne : k ≠ key := fun hsame => hk (hsame ▸ hkey)
    rw [Context.iteration_setIteration_ne _ hne, Context.iteration_setIteration_ne _ hne]
    exact hst.counts k hk
  traces := hst.traces
  code := hst.code
  code' := hst.code'
  records := hst.records

theorem lawful : K.correspondence.Lawful w r where
  tie := h.tie
  left_into _ _ := rfl
  right_into _ _ := rfl
  stacked hst := ⟨hst.2.1.1, hst.2.2.1⟩
  entered {p _ _} hst id :=
    ⟨mapContext (f := fun ctx => { ctx with including := p.left ++ [id] })
      (g := fun ctx => { ctx with including := p.right ++ [id] }) hst.1 { hst.1.sees with } rfl rfl,
      ⟨rfl, hst.2.1.2⟩, rfl, hst.2.2.2⟩
  wrecked h := h
  left {p _ _ _} hst :=
    ⟨mapContext (f := fun ctx => { ctx with including := p.left })
      (g := fun ctx => { ctx with including := p.right }) hst.1 { hst.1.sees with } rfl rfl,
      ⟨rfl, hst.2.1.2⟩, rfl, hst.2.2.2⟩
  keyed hst key _ :=
    ⟨mapContext (f := fun ctx => { ctx with key := some key })
      (g := fun ctx => { ctx with key := some key }) hst.1 { hst.1.sees with } rfl rfl,
      ⟨hst.2.1.1, rfl⟩, hst.2.2.1, rfl⟩
  opened hst defined :=
    ⟨mapContext (f := fun ctx => { ctx with defined, extract := [] })
      (g := fun ctx => { ctx with defined, extract := [] }) hst.1
      { hst.1.sees with defined := rfl, extract := rfl } rfl rfl, hst.2⟩
  merged hst data :=
    ⟨mapContext (f := fun ctx => ctx.extend data .session)
      (g := fun ctx => ctx.extend data .session) hst.1
      { hst.1.sees with session := congrArg (Keyed.extend · data) hst.1.sees.session } rfl rfl,
      hst.2⟩
  iteration hst _ hkey := hst.1.iterations _ hkey
  counted hst _ hkey i := ⟨counted hst.1 hkey i, hst.2⟩

omit h in
/-- A change in the traces and in the records alone. -/
theorem silently (hst : K.States s t) {s' : RunState ρ σ} {t' : RunState ρ τ}
    (hs : s'.context.silent = s.context.silent ∧ s'.outside = s.outside)
    (ht : t'.context.silent = t.context.silent ∧ t'.outside = t.outside)
    (htraces : K.traces s'.context.logs t'.context.logs)
    (hrecords : K.records s'.records t'.records) : K.States s' t' := by
  -- what is compared besides is seen in a silent context
  have same : ∀ {c d : Context}, c.silent = d.silent → c.Sees d ∧ c.client = d.client ∧
      c.iteration = d.iteration ∧ c.reportCode = d.reportCode :=
    fun {c d} hcd =>
    ⟨⟨(congrArg Context.environment hcd :), (congrArg Context.settings hcd :),
        (congrArg Context.defined hcd :), (congrArg Context.session hcd :),
        (congrArg Context.extract hcd :)⟩,
      (congrArg Context.client hcd :), (congrArg Context.iteration hcd :),
      (congrArg Context.reportCode hcd :)⟩
  obtain ⟨hsees, hc, hi, hr⟩ := same hs.1
  obtain ⟨hsees', hc', hi', hr'⟩ := same ht.1
  exact {
    sees := hsees.trans (hst.sees.trans hsees'.symm)
    near := by
      rw [hc, hc', hs.2, ht.2]
      exact hst.near
    stays := hst.stays.congr hsees.environment hsees.settings hc
    stays' := hst.stays'.congr hsees'.environment hsees'.settings hc'
    iterations := by
      rw [hi, hi']
      exact hst.iterations
    counts := by
      rw [hi, hi']
      exact hst.counts
    traces := htraces
    code := hr.trans hst.code
    code' := hr'.trans hst.code'
    records := hrecords }

/-- **Kindred runs** correspond wherever steps are entered and left. -/
theorem living : K.correspondence.Living w r where
  toLawful := h.lawful
  detail {p s t step} hst text text' htext result result' hresult started started' hs := by
    have hkey : t.context.key.getD "" = s.context.key.getD "" := by
      rw [hst.2.2.2, hst.2.1.2]
    -- the line comes first, and the detail that is written behind it
    have hlined : K.States (s.log w text) (t.log (w.recordedBy r) text') := by
      unfold RunState.log
      rw [hkey]
      exact h.lined hst.1 _ htext
    obtain ⟨htraces, hrecords⟩ := h.detail hlined step hresult hs
    have hsilent := (s.log w text).recordDetail_silent w step result started
    have hsilent' :=
      (t.log (w.recordedBy r) text').recordDetail_silent (w.recordedBy r) step result' started'
    exact ⟨silently hlined ⟨hsilent, RunState.recordDetail_outside ..⟩
      ⟨hsilent', RunState.recordDetail_outside ..⟩ htraces hrecords,
      ⟨(congrArg Context.including hsilent :).trans hst.2.1.1,
        (congrArg Context.key hsilent :).trans hst.2.1.2⟩,
      (congrArg Context.including hsilent' :).trans hst.2.2.1,
      (congrArg Context.key hsilent' :).trans hst.2.2.2⟩
  restored {p s t} hst key s' t' hst' :=
    ⟨mapContext (f := fun ctx => { ctx with
        key := s.context.key, defined := s.context.defined, extract := s.context.extract })
      (g := fun ctx => { ctx with
        key := t.context.key, defined := t.context.defined, extract := t.context.extract }) hst'.1
      { hst'.1.sees with defined := hst.1.sees.defined, extract := hst.1.sees.extract } rfl rfl,
      ⟨hst'.2.1.1, hst.2.1.2⟩, hst'.2.2.1, hst.2.2.2⟩
  wrecked_within h := h
  lost_detail hx := (h.lost hx).2
  lost'_detail hy := (h.lost' hy).2

end Lawful

end Kinship

end Scenario
