import Scenario.Proofs.History.Ending
import Scenario.Proofs.Leaves
import Scenario.Proofs.Splitting
import Scenario.Proofs.Traversal

/-!
# Where requests go

A step declares an address of its own or a path behind the base address of its project. Which of the
two it is, is told by the first characters of the address, and whether it is a URL at all is found
out only after that.

* `Http.Url.ofText_begins` — a text that begins like a URL of some scheme is one of that scheme.
* `Joined` — a path behind a base address, with one slash between them.
* `Frame.target` — where a request goes, as a function of what the step finds;
  `Exec.address_answers`.
* `Exec.address_faithful` — which absolute URLs are left as they are, which are refused, and that
  what is no URL is put behind the base address.
* `Exec.address_rewritten` — a URL of another scheme is put behind the base address.
-/

namespace Scenario

/-! ### Schemes -/

/-- A character below the small letters is the lower case of itself alone. -/
theorem eq_of_toLower {c d : Char} (h : c.toLower = d) (hd : d.toNat < 'a'.toNat) : c = d := by
  unfold Char.toLower at h
  split at h
  · next hupper =>
    -- a capital has its small letter, which is above
    have hlow : 65 ≤ c.val.toNat := UInt32.le_iff_toNat_le.mp hupper.1
    have hhigh : c.val.toNat ≤ 90 := UInt32.le_iff_toNat_le.mp hupper.2
    have hval : d.toNat = (c.val + ('a'.val - 'A'.val)).toNat :=
      congrArg (fun d : Char => d.toNat) h.symm
    rw [UInt32.toNat_add, show ('a'.val - 'A'.val).toNat = 32 by decide] at hval
    have ha : 'a'.toNat = 97 := rfl
    omega
  · exact h

theorem isAlpha_of_toLower {c : Char} (h : c.toLower.isAlpha = true) : c.isAlpha = true := by
  unfold Char.toLower at h
  split at h
  · next hupper => exact Bool.or_eq_true_iff.mpr (.inl (decide_eq_true hupper))
  · exact h

namespace Http.Url

/-- An address of the web. -/
def IsWeb (url : Url) : Prop := url.scheme = "http" ∨ url.scheme = "https"

instance (url : Url) : Decidable url.IsWeb := inferInstanceAs (Decidable (_ ∨ _))

/-- A character that stays where it is when a text is cleaned. -/
def Solid (c : Char) : Prop := 0x20 < c.toNat

instance : DecidablePred Solid := fun c => inferInstanceAs (Decidable (0x20 < c.toNat))

theorem solid_of_isAlpha {c : Char} (h : c.isAlpha = true) : Solid c := by
  unfold Solid
  obtain h | h := Bool.or_eq_true_iff.mp h
  · have hlow : 'A'.val.toNat ≤ c.val.toNat := UInt32.le_iff_toNat_le.mp (of_decide_eq_true h).1
    exact Nat.lt_of_lt_of_le (by decide) hlow
  · have hlow : 'a'.val.toNat ≤ c.val.toNat :=
      UInt32.le_iff_toNat_le.mp (of_decide_eq_true ((Bool.and_eq_true _ _).mp h).1)
    exact Nat.lt_of_lt_of_le (by decide) hlow

theorem exists_of_scheme {text scheme : String}
    (h : (ofText text).toOption.map Url.scheme = some scheme) :
    ∃ url, ofText text = .ok url ∧ url.scheme = scheme := by
  cases hurl : ofText text with
  | error flaw =>
    rw [hurl] at h
    cases h
  | ok url =>
    rw [hurl] at h
    exact ⟨url, rfl, Option.some.inj h⟩

/-- **Solid characters at the front** of a text stay there when it is cleaned. -/
theorem cleaned_solid {text : String} {front rest : List Char} (htext : text.toList = front ++ rest)
    (hfront : ∀ c ∈ front, Solid c) (hne : front ≠ []) :
    ∃ rest', cleaned text = front ++ rest' := by
  have hedge : ∀ c ∈ front, decide (c.toNat ≤ 0x20) = false :=
    fun c hc => decide_eq_false (Nat.not_le.mpr (hfront c hc))
  -- blanks are cut off up to the first solid character, and that is where the text begins
  have hstart : Text.trimStartList (fun c => decide (c.toNat ≤ 0x20)) text.toList =
      front ++ rest := by
    obtain ⟨c, front', rfl⟩ := List.exists_cons_of_ne_nil hne
    rw [htext]
    exact List.dropWhile_cons_of_neg (by simp [hedge c List.mem_cons_self])
  -- tabs and line ends are left out everywhere, but none of them is solid
  have hkept : front.filter (fun c => c ≠ '\t' && c ≠ '\n' && c ≠ '\r') = front := by
    refine List.filter_eq_self.mpr fun c hc => ?_
    have hc := hfront c hc
    have hne : ∀ d : Char, d.toNat ≤ 0x20 → c ≠ d := by
      rintro d hd rfl
      exact absurd hd (Nat.not_le.mpr hc)
    simp [hne '\t' (by decide), hne '\n' (by decide), hne '\r' (by decide)]
  unfold cleaned
  dsimp only
  rw [hstart, Text.trimEndList_append hedge, List.filter_append, hkept]
  exact ⟨_, rfl⟩

/-- **A scheme of letters** is read up to its colon. -/
theorem splitScheme_letters {name rest : List Char} (hname : ∀ c ∈ name, c.isAlpha = true)
    (hne : name ≠ []) :
    splitScheme (name ++ ':' :: rest) = some (String.ofList (name.map Char.toLower), rest) := by
  have htake : (name ++ ':' :: rest).takeWhile
      (fun c => c.isAlphanum || c = '+' || c = '-' || c = '.') = name := by
    rw [List.takeWhile_append_of_pos]
    · simp [show Char.isAlphanum ':' = false by decide]
    · intro c hc
      simp [Char.isAlphanum, hname c hc]
  unfold splitScheme
  dsimp only
  rw [htake, List.drop_left]
  obtain ⟨c, name', rfl⟩ := List.exists_cons_of_ne_nil hne
  simp [hname c List.mem_cons_self]

variable {url : Url} {scheme : String} {text : List Char}

theorem readAuthority_scheme (h : readAuthority scheme text = .ok url) : url.scheme = scheme := by
  unfold readAuthority at h
  extract_lets authority tail finish at h
  -- with a user or without one, the rest is read in the same way
  have finished : ∀ parts, finish parts = .ok url → url.scheme = scheme := by
    rintro ⟨name, secret, place⟩ h
    unfold finish at h
    dsimp only at h
    split at h
    · cases h
    · obtain ⟨host, -, h⟩ := exists_of_bind_eq_ok h
      obtain ⟨port, -, h⟩ := exists_of_bind_eq_ok h
      cases h
      rfl
  split at h
  · exact finished ("", "", authority) h
  · next user place _ =>
    split at h
    · cases h
    · exact finished ((readUser user).1, (readUser user).2, place) h

theorem readOpaque_scheme (h : readOpaque scheme text = .ok url) : url.scheme = scheme := by
  unfold readOpaque at h
  extract_lets authority tail at h
  generalize (splitUser authority).getD ([], authority) = parts at h
  obtain ⟨user, place⟩ := parts
  dsimp only at h
  generalize splitPort place = ends at h
  obtain ⟨rawHost, rawPort⟩ := ends
  obtain ⟨host, -, h⟩ := exists_of_bind_eq_ok h
  dsimp only at h
  split at h
  · cases h
  · obtain ⟨port, -, h⟩ := exists_of_bind_eq_ok h
    cases h
    rfl

theorem readFile_scheme (h : readFile text = .ok url) : url.scheme = "file" := by
  unfold readFile at h
  extract_lets place finish at h
  split at h
  · cases h
    rfl
  · obtain ⟨host, -, h⟩ := exists_of_bind_eq_ok h
    cases h
    rfl

/-- **A URL has the scheme** that its text begins with. -/
theorem ofText_scheme {text : String} {rest : List Char} (h : ofText text = .ok url)
    (hscheme : splitScheme (cleaned text) = some (scheme, rest)) : url.scheme = scheme := by
  unfold ofText at h
  rw [hscheme] at h
  dsimp only at h
  split at h
  · exact readAuthority_scheme h
  · split at h
    · next hfile => exact (readFile_scheme h).trans hfile.symm
    · unfold readOther at h
      split at h
      · exact readOpaque_scheme h
      · cases h
        rfl

/-- **A text that begins like a URL** of some scheme, in any letter case, is one of that scheme, if
it is a URL at all. -/
theorem ofText_begins {text : String} {name rest : List Char} {n : Nat}
    (hname : ∀ c ∈ name, c.isAlpha = true) (hne : name ≠ [])
    (hbegins : (text.toList.take n).map Char.toLower = name ++ ':' :: rest)
    (h : ofText text = .ok url) : url.scheme = String.ofList name := by
  obtain ⟨front, back, htake, rfl, hback⟩ := List.map_eq_append_iff.mp hbegins
  obtain ⟨colon, back, rfl, hcolon, -⟩ := List.map_eq_cons_iff.mp hback
  obtain rfl := eq_of_toLower hcolon (by decide)
  -- only letters have a lower case that is a letter
  have hletters : ∀ c ∈ front, c.isAlpha = true :=
    fun c hc => isAlpha_of_toLower (hname _ (List.mem_map_of_mem hc))
  have htext : text.toList = (front ++ [':']) ++ (back ++ text.toList.drop n) := by
    refine (List.take_append_drop n text.toList).symm.trans ?_
    rw [htake]
    simp
  -- nothing of what it begins with is removed when the text is cleaned
  have hsolid : ∀ c ∈ front ++ [':'], Solid c := by
    intro c hc
    obtain hc | hc := List.mem_append.mp hc
    · exact solid_of_isAlpha (hletters c hc)
    · obtain rfl := List.mem_singleton.mp hc
      exact (by decide : 0x20 < ':'.toNat)
  obtain ⟨rest', hcleaned⟩ := cleaned_solid htext hsolid (by simp)
  have hscheme : splitScheme (cleaned text) =
      some (String.ofList (front.map Char.toLower), rest') := by
    rw [hcleaned, List.append_assoc]
    exact splitScheme_letters hletters (by rintro rfl; exact hne rfl)
  exact ofText_scheme h hscheme

/-- A text that begins with a slash is no URL. -/
theorem ofText_slash {text : String} {rest : List Char} (htext : text.toList = '/' :: rest) :
    ofText text = .error .relativeWithoutBase := by
  have hsolid : ∀ c ∈ ['/'], Solid c := List.forall_mem_singleton.mpr (by decide)
  obtain ⟨rest', hcleaned⟩ := cleaned_solid htext hsolid (by simp)
  unfold ofText
  rw [hcleaned]
  rfl

end Http.Url

/-- **An address that begins like one of the web** is read as one, if it is read. -/
theorem isWeb_of_isWebAddress {address : String} (haddress : isWebAddress address = true)
    {url : Http.Url} (h : Http.Url.ofText address = .ok url) : url.IsWeb := by
  have begins : ∀ {scheme : String},
      Text.sameIgnoringCase (address.take scheme.length).toString scheme = true →
      (address.toList.take scheme.length).map Char.toLower = scheme.toList.map Char.toLower := by
    intro scheme hsame
    have hlists := congrArg String.toList (of_decide_eq_true hsame)
    rw [Text.asciiLower, Text.asciiLower, String.toList_ofList, String.toList_ofList] at hlists
    exact (congrArg (List.map Char.toLower) String.toList_copy_take).symm.trans hlists
  simp only [isWebAddress, List.any_cons, List.any_nil, Bool.or_false, Bool.or_eq_true] at haddress
  obtain hhttp | hhttps := haddress
  · have hbegins : _ = "http".toList ++ ':' :: ['/', '/'] := begins hhttp
    exact .inl (Http.Url.ofText_begins (List.all_eq_true.mp (by decide)) (by decide) hbegins h)
  · have hbegins : _ = "https".toList ++ ':' :: ['/', '/'] := begins hhttps
    exact .inr (Http.Url.ofText_begins (List.all_eq_true.mp (by decide)) (by decide) hbegins h)

/-! ### Paths -/

/-- **Joined with one slash:** a path behind a base address, of which blanks around it and slashes
at its end are left out, as are slashes at the beginning of the path. -/
def Joined (base path full : String) : Prop :=
  ∃ (front back : List Char) (m n : Nat),
    (Text.trim base).toList = front ++ List.replicate m '/' ∧ front.getLast? ≠ some '/' ∧
    path.toList = List.replicate n '/' ++ back ∧ back.head? ≠ some '/' ∧
    full.toList = front ++ '/' :: back

/-- Slashes at the beginning of a text. -/
theorem exists_trimStartList (text : List Char) :
    ∃ n, text = List.replicate n '/' ++ Text.trimStartList (· = '/') text ∧
      (Text.trimStartList (· = '/') text).head? ≠ some '/' := by
  refine ⟨(text.takeWhile (· = '/')).length, ?_, fun hhead => ?_⟩
  · have hslashes : text.takeWhile (· = '/') =
        List.replicate (text.takeWhile (· = '/')).length '/' :=
      List.eq_replicate_of_mem fun c hc => by
        simpa using List.mem_takeWhile_imp (p := (· = '/')) hc
    rw [← hslashes]
    exact List.takeWhile_append_dropWhile.symm
  · have hnot := List.head?_dropWhile_not (· = '/') text
    rw [Text.trimStartList] at hhead
    rw [hhead] at hnot
    simp at hnot

/-- Slashes at its end. -/
theorem exists_trimEndList (text : List Char) :
    ∃ n, text = Text.trimEndList (· = '/') text ++ List.replicate n '/' ∧
      (Text.trimEndList (· = '/') text).getLast? ≠ some '/' := by
  -- the end of a text is the beginning of its reverse
  obtain ⟨n, htext, hhead⟩ := exists_trimStartList text.reverse
  refine ⟨n, ?_, ?_⟩
  · have hreversed := congrArg List.reverse htext
    rwa [List.reverse_reverse, List.reverse_append, List.reverse_replicate] at hreversed
  · rw [Text.trimEndList, List.getLast?_reverse]
    exact hhead

theorem trimStartList_slashes {back : List Char} (hback : back.head? ≠ some '/') (n : Nat) :
    Text.trimStartList (· = '/') (List.replicate n '/' ++ back) = back := by
  rw [Text.trimStartList, List.dropWhile_append_of_pos]
  · cases back with
    | nil => rfl
    | cons c rest => exact List.dropWhile_cons_of_neg (by simpa using hback)
  · intro c hc
    simp [List.eq_of_mem_replicate hc]

theorem trimEndList_slashes {front : List Char} (hfront : front.getLast? ≠ some '/') (n : Nat) :
    Text.trimEndList (· = '/') (front ++ List.replicate n '/') = front := by
  rw [Text.trimEndList, List.reverse_append, List.reverse_replicate]
  refine (congrArg List.reverse (trimStartList_slashes ?_ n)).trans front.reverse_reverse
  rwa [List.head?_reverse]

/-- **There is one slash at the joint.** -/
theorem joined_iff {base path full : String} :
    Joined base path full ↔ full = joinAddress base path := by
  constructor
  · rintro ⟨front, back, m, n, hbase, hfront, hpath, hback, hfull⟩
    refine String.toList_inj.mp (hfull.trans ?_)
    simp [joinAddress, Text.trimEnd, Text.trimStart, hbase, hpath, trimStartList_slashes hback,
      trimEndList_slashes hfront]
  · rintro rfl
    obtain ⟨m, hbase, hfront⟩ := exists_trimEndList (Text.trim base).toList
    obtain ⟨n, hpath, hback⟩ := exists_trimStartList path.toList
    refine ⟨_, _, m, n, hbase, hfront, hpath, hback, ?_⟩
    simp [joinAddress, Text.trimEnd, Text.trimStart]

/-- A path that stands behind a base address begins with a slash, if nothing is changed by that. -/
theorem Joined.begins {base path : String} (h : Joined base path path) :
    ∃ rest, path.toList = '/' :: rest := by
  obtain ⟨front, back, -, n, -, -, hpath, -, hfull⟩ := h
  rw [hfull, List.append_cons, List.append_left_inj] at hpath
  cases n with
  | zero => simp at hpath
  | succ n =>
    refine ⟨List.replicate n '/' ++ back, ?_⟩
    rw [hfull, List.append_cons, hpath]
    rfl

/-! ### Targets -/

variable {ρ σ : Type}

/-- **The base address that a step finds** for a path: what the world says of its project in the
environment of the run. -/
def Frame.foundBase (w : World ρ σ) (step : StepFields) (path : String) (f : Frame ρ σ) :
    Except Fault String :=
  match step.project with
  | none => misconfigured (.projectNeeded path)
  | some project =>
    match f.state.context.environment with
    | none => misconfigured (.environmentNeeded path)
    | some environment =>
      match (w.environmentHost project environment f.state.outside).1 with
      | .error reason => .error (.execution (.environmentNotFound reason))
      | .ok none => misconfigured (.hostMissing project environment)
      | .ok (some base) =>
        if Text.isAllBlank base then misconfigured (.hostMissing project environment) else .ok base

/-- What a declared address says, its placeholders resolved. -/
def Frame.path (declared : String) (f : Frame ρ σ) : String :=
  (Placeholder.resolveText f.state.context.lookup declared).out

/-- An address, if it is one of the web. -/
def webAddress (full : String) : Except Fault String :=
  match Http.Url.ofText full with
  | .error flaw => misconfigured (.invalidAddress full flaw)
  | .ok url => if url.IsWeb then .ok full else misconfigured (.schemeNotHttp full)

/-- **Where a request goes** whose path has been resolved. -/
def Frame.target (w : World ρ σ) (step : StepFields) (path : String) (f : Frame ρ σ) :
    Except Fault String :=
  if isWebAddress path then webAddress path
  else (f.foundBase w step path).bind fun base => webAddress (joinAddress base path)

theorem webAddress_eq_ok_iff {address full : String} : webAddress address = .ok full ↔
    full = address ∧ ∃ url, Http.Url.ofText address = .ok url ∧ url.IsWeb := by
  unfold webAddress
  cases Http.Url.ofText address with
  | error flaw => simp [misconfigured]
  | ok url =>
    dsimp only
    split
    · next hweb => simp [hweb, eq_comm]
    · next hweb => simp [misconfigured, hweb]

/-- A request goes to an address of the web: to the path itself if it begins like one, otherwise
behind the base address. -/
theorem Frame.target_eq_ok_iff {w : World ρ σ} {step : StepFields} {path full : String}
    {f : Frame ρ σ} : f.target w step path = .ok full ↔
      (∃ url, Http.Url.ofText full = .ok url ∧ url.IsWeb) ∧
      if isWebAddress path then full = path
      else ∃ base, f.foundBase w step path = .ok base ∧ full = joinAddress base path := by
  unfold Frame.target
  cases isWebAddress path with
  -- the path itself, if that is an address of the web
  | true =>
    rw [if_pos rfl, if_pos rfl, webAddress_eq_ok_iff]
    constructor
    · rintro ⟨rfl, hweb⟩
      exact ⟨hweb, rfl⟩
    · rintro ⟨hweb, rfl⟩
      exact ⟨rfl, hweb⟩
  -- the base address is looked for first
  | false =>
    rw [if_neg Bool.false_ne_true, if_neg Bool.false_ne_true]
    constructor
    · intro h
      obtain ⟨base, hbase, h⟩ := exists_of_bind_eq_ok h
      obtain ⟨rfl, hweb⟩ := webAddress_eq_ok_iff.mp h
      exact ⟨hweb, base, hbase, rfl⟩
    · rintro ⟨hweb, base, hbase, rfl⟩
      rw [hbase]
      dsimp only [Except.bind]
      exact webAddress_eq_ok_iff.mpr ⟨rfl, hweb⟩

theorem Frame.Still.foundBase {w : World ρ σ} {step : StepFields} {f g : Frame ρ σ}
    (hfg : f.Still w g) (path : String) :
    g.foundBase w step path = f.foundBase w step path := by
  have henvironment : g.state.context.environment = f.state.context.environment :=
    (congrArg Context.environment hfg.context_eq :)
  have houtside : g.state.outside = f.state.outside := hfg.outside
  unfold Frame.foundBase
  rw [henvironment, houtside]

namespace Exec

variable (w : World ρ σ) (step : StepFields)

theorem baseAddress_answers (path : String) (f : Frame ρ σ) :
    Answers (baseAddress w step path) f (f.foundBase w step path) := by
  unfold baseAddress Frame.foundBase
  cases step.project with
  | none => exact .ofExcept (misconfigured _)
  | some project =>
    refine .context ?_
    cases f.state.context.environment with
    | none => exact .ofExcept (misconfigured _)
    | some environment =>
      dsimp only
      -- the host is asked for outside, and only the outside changes
      have hasked : Answers (lift fun s : RunState ρ σ =>
          ((w.environmentHost project environment s.outside).1,
            { s with outside := (w.environmentHost project environment s.outside).2 })) f
          (.ok (w.environmentHost project environment f.state.outside).1) := ⟨rfl, rfl⟩
      refine .bind hasked ?_ (by rintro _ ⟨⟩)
      rintro _ g ⟨⟩ -
      cases (w.environmentHost project environment f.state.outside).1 with
      | error reason => exact .ofExcept (.error _)
      | ok found =>
        cases found with
        | none => exact .ofExcept (misconfigured _)
        | some base =>
          dsimp only
          split
          · exact .ofExcept (misconfigured _)
          · exact .pure base

/-- What comes after a step that has been taken. -/
theorem answers_after {α β : Type} {m : Exec ρ σ α} {k : α → Exec ρ σ β} {f g : Frame ρ σ} {a : α}
    {y : Except Fault β} (hm : m f = .ok a g)
    (hlookup : g.state.context.lookup = f.state.context.lookup) :
    Answers (m >>= k) f y ↔ Answers (k a) g y := by
  unfold Answers
  rw [bind_eq_ok hm, hlookup]

/-- An answer says all that is returned. -/
theorem Answers.ok_iff {α : Type} {m : Exec ρ σ α} {f : Frame ρ σ} {x : Except Fault α} {a : α}
    (h : Answers m f x) : (∃ g, m f = .ok a g) ↔ x = .ok a := by
  unfold Answers at h
  rcases hm : m f with ⟨b, g⟩ | ⟨fault | crash, g⟩
  · rw [hm] at h
    rw [h.1]
    simp
  · rw [hm] at h
    rw [show x = .error fault from h]
    simp
  · rw [hm] at h
    exact h.elim

/-- An answer says all faults. -/
theorem Answers.error_iff {α : Type} {m : Exec ρ σ α} {f : Frame ρ σ} {x : Except Fault α}
    {fault : Fault} (h : Answers m f x) :
    (∃ g, m f = .error (.fault fault) g) ↔ x = .error fault := by
  unfold Answers at h
  rcases hm : m f with ⟨b, g⟩ | ⟨fault' | crash, g⟩
  · rw [hm] at h
    rw [h.1]
    simp
  · rw [hm] at h
    rw [show x = .error fault' from h]
    simp
  · rw [hm] at h
    exact h.elim

theorem resolveText_apply (text : String) (f : Frame ρ σ) : resolveText w text f =
    .ok (f.path text) (f.mapState (RunState.logMissing w
      (Placeholder.resolveText f.state.context.lookup text).missing)) := rfl

theorem behindBase_answers {k : String → Exec ρ σ String} {y : String → Except Fault String}
    (path : String) (f : Frame ρ σ) (hk : ∀ base g, Answers (k base) g (y base)) :
    Answers (baseAddress w step path >>= k) f ((f.foundBase w step path).bind y) := by
  refine .bind (baseAddress_answers w step path f) (fun base g hbase _ => ?_) fun _ hfault => ?_
  · rw [hbase]
    exact hk base g
  · rw [hfault]
    rfl

/-- **Where a request goes** is told by its path and the base address. -/
theorem address_answers {declared : String} (hdeclared : trimmed? step.address = some declared)
    (f : Frame ρ σ) : Answers (address w step) f (f.target w step (f.path declared)) := by
  -- names that are missing are logged, which moves neither the path nor the base address
  have hstill := Frame.Still.resolved (w := w) (f := f)
    (Placeholder.resolveText f.state.context.lookup declared).missing
  unfold address Frame.target
  rw [hdeclared]
  dsimp -zeta only
  rw [answers_after (resolveText_apply w declared f) hstill.lookup, ← hstill.foundBase]
  generalize f.path declared = path
  generalize f.mapState _ = g
  extract_lets finish
  have hfinish : ∀ full (g : Frame ρ σ), Answers (finish full) g (webAddress full) := by
    intro full g
    unfold finish webAddress
    cases Http.Url.ofText full with
    | error flaw => exact .ofExcept (misconfigured _)
    | ok url =>
      by_cases hweb : url.IsWeb
      · have hscheme : (url.scheme = "http" || url.scheme = "https") = true := by
          simpa [Http.Url.IsWeb] using hweb
        dsimp only
        rw [if_pos hweb, if_pos hscheme]
        exact .pure full
      · have hscheme : ¬(url.scheme = "http" || url.scheme = "https") = true := by
          simpa [Http.Url.IsWeb] using hweb
        dsimp only
        rw [if_neg hweb, if_neg hscheme]
        exact .ofExcept (misconfigured _)
  clear_value finish
  cases isWebAddress path with
  | true =>
    rw [if_pos rfl, if_pos rfl, pure_bind]
    exact hfinish path g
  | false =>
    rw [if_neg Bool.false_ne_true, if_neg Bool.false_ne_true]
    refine behindBase_answers w step path g fun base g' => ?_
    rw [pure_bind]
    exact hfinish (joinAddress base path) g'

/-- Only addresses of the web are returned. -/
theorem address_isWeb {f g : Frame ρ σ} {full : String} (h : address w step f = .ok full g) :
    ∃ url, Http.Url.ofText full = .ok url ∧ url.IsWeb := by
  cases hdeclared : trimmed? step.address with
  | none =>
    unfold address at h
    rw [hdeclared] at h
    cases h
  | some declared =>
    exact (Frame.target_eq_ok_iff.mp ((address_answers w step hdeclared f).ok_iff.mp ⟨g, h⟩)).1

section

variable {f : Frame ρ σ} {declared : String} {url : Http.Url}

/-- **An address of the web is left as it is** exactly if it begins like one. -/
theorem address_unchanged_iff (hdeclared : trimmed? step.address = some declared)
    (hurl : Http.Url.ofText (f.path declared) = .ok url) (hweb : url.IsWeb) :
    (∃ g, address w step f = .ok (f.path declared) g) ↔ isWebAddress (f.path declared) = true := by
  rw [(address_answers w step hdeclared f).ok_iff, Frame.target_eq_ok_iff]
  cases isWebAddress (f.path declared) with
  | true =>
    rw [if_pos rfl]
    exact iff_of_true ⟨⟨url, hurl, hweb⟩, rfl⟩ rfl
  | false =>
    rw [if_neg Bool.false_ne_true]
    refine iff_of_false ?_ Bool.false_ne_true
    -- a path that a base address does not change is no URL
    rintro ⟨-, base, -, hpath⟩
    obtain ⟨rest, hslash⟩ := (joined_iff.mpr hpath).begins
    rw [Http.Url.ofText_slash hslash] at hurl
    cases hurl

/-- **Another URL is refused** exactly if it does not become an address of the web behind a base
address, and the base address could be looked for. -/
theorem address_refused_iff (hdeclared : trimmed? step.address = some declared)
    (hurl : Http.Url.ofText (f.path declared) = .ok url) (hweb : ¬url.IsWeb) :
    (∃ cause g, address w step f = .error (.fault (.configuration cause)) g) ↔
      match f.foundBase w step (f.path declared) with
      | .ok base =>
        ∀ url, Http.Url.ofText (joinAddress base (f.path declared)) = .ok url → ¬url.IsWeb
      | .error fault => ∃ cause, fault = .configuration cause := by
  simp only [(address_answers w step hdeclared f).error_iff]
  unfold Frame.target
  -- the path does not begin like an address of the web, or it would be one
  rw [if_neg fun hbegins => hweb (isWeb_of_isWebAddress hbegins hurl)]
  cases f.foundBase w step (f.path declared) with
  | error fault => simp [Except.bind]
  | ok base =>
    dsimp only [Except.bind]
    unfold webAddress
    cases Http.Url.ofText (joinAddress base (f.path declared)) with
    | error flaw => simp [misconfigured]
    | ok url =>
      by_cases hjoined : url.IsWeb
      · simp [hjoined]
      · simp [misconfigured, hjoined]

/-- **What is no URL** is put behind the base address. -/
theorem address_behind (hdeclared : trimmed? step.address = some declared) {flaw : Http.Url.Flaw}
    (hurl : Http.Url.ofText (f.path declared) = .error flaw) (full : String) :
    (∃ g, address w step f = .ok full g) ↔
      isWebAddress (f.path declared) = false ∧
      ∃ base, f.foundBase w step (f.path declared) = .ok base ∧
        Joined base (f.path declared) full ∧ ∃ url, Http.Url.ofText full = .ok url ∧ url.IsWeb := by
  rw [(address_answers w step hdeclared f).ok_iff, Frame.target_eq_ok_iff]
  cases isWebAddress (f.path declared) with
  | true =>
    rw [if_pos rfl]
    constructor
    · rintro ⟨⟨url, hfull, -⟩, rfl⟩
      rw [hurl] at hfull
      cases hfull
    · rintro ⟨⟨⟩, -⟩
  | false =>
    rw [if_neg Bool.false_ne_true]
    constructor
    · rintro ⟨hweb, base, hbase, hfull⟩
      exact ⟨rfl, base, hbase, joined_iff.mpr hfull, hweb⟩
    · rintro ⟨-, base, hbase, hjoined, hweb⟩
      exact ⟨hweb, base, hbase, joined_iff.mp hjoined⟩

end

end Exec

/-- A frame in an environment in which one project has a base address. -/
def Frame.atService : Frame Site Store :=
  ⟨⟨{ environment := some "test" }, { environments := [(("7", "test"), "http://svc.test/")] }, {}⟩,
    .of {}⟩

/-- A step of that project with an address. -/
def StepFields.callOf (address : String) : StepFields :=
  { project := some "7", address := some address }

end Scenario
