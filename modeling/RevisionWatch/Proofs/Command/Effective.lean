import RevisionWatch.Proofs.Command.Iterations
import RevisionWatch.Proofs.Config.Files
/-!
# The configuration that is watched with

A watch has its configuration from three sides: the options it is called with, the file that is
used, and the defaults. Which file is used is said by `Uses`, what it gives by `Gives`, and that an
option counts more than the file and the file more than the defaults by `Effective`. The file that
is used is the one that counts, save that the user's own is passed over if it is there but the
program cannot see that (`Counts.uses_iff`). A watch runs its sessions with this configuration if it
is sound and there is something to run (`RunsWith`); in all other cases it ends before anything is
asked or told (`NothingStarted`).
-/

namespace RevisionWatch.Command

open Config (Field FileSays Given Reordered Spoilt)

variable {w : World} {i : Invocation}

/-! ## 1. The three sides -/

/-- What the options of a watch give. There is none for the time that one request may take. -/
def optionsOf (i : Invocation) : Given
  | .socketPath => i.socket
  | .package => i.package
  | .triggerUrl => i.triggerUrl
  | .pollIntervalSecs => i.interval
  | .timeoutSecs => i.timeout
  | .maxPolls => i.maxPolls.map some
  | .ioTimeoutSecs => none

/-- The file that is asked for, or else the user's own if something is found where it belongs. -/
inductive Takes (finds : Config.Place → Bool) (w : World) (i : Invocation) :
    Option String → Prop where
  | asked (path : String) (h : i.config = some path) : Takes finds w i (some path)
  | usual (path : String) (h : i.config = none)
      (hpath : Config.userPath? w.home w.configHome = some path)
      (hfound : finds (w.places path) = true) : Takes finds w i (some path)
  | none (h : i.config = none) (hmissing : ∀ path,
      Config.userPath? w.home w.configHome = some path → finds (w.places path) = false) :
      Takes finds w i none

/-- **The file that is used**: of the user's own the program has to see that it is there. -/
abbrev Uses (w : World) (i : Invocation) : Option String → Prop :=
  Takes Config.Place.isSeen w i

/-- **The file that counts**: the user's own does if it is there. -/
abbrev Counts (w : World) (i : Invocation) : Option String → Prop :=
  Takes Config.Place.isThere w i

/-- The user's own file counts and is hidden. -/
def Overlooks (w : World) (i : Invocation) : Prop :=
  i.config = none ∧
    ∃ path, Config.userPath? w.home w.configHome = some path ∧ w.places path = .hidden

/-- **What the file that is used gives**: what it says, if that can be watched with, and nothing if
    no file is used. -/
inductive Gives (places : Config.Places) : Option String → Given → Prop where
  | file (path : String) (g : Given) (h : FileSays places path g) (hsound : (g.over {}).Sound) :
      Gives places (some path) g
  | nothing : Gives places none .nothing

/-- **The effective configuration**: every field has the value of its option, or else the one that
    the file gives, or else its default. -/
def Effective (i : Invocation) (g : Given) (c : Config) : Prop :=
  ∀ f : Field, f.get c = ((optionsOf i f).or (g f)).getD (f.get {})

theorem effective_iff {g : Given} {c : Config} :
    Effective i g c ↔ c = (optionsOf i).over (g.over {}) := by
  have hget (f : Field) : f.get ((optionsOf i).over (g.over {})) =
      ((optionsOf i f).or (g f)).getD (f.get {}) := by
    rw [Given.get_over, Given.get_over]
    cases optionsOf i f <;> rfl
  constructor
  · exact fun h => Config.ext_get fun f => (h f).trans (hget f).symm
  · rintro rfl f
    exact hget f

/-! ## 2. What is done -/

/-- **Nothing is started**: no session, no request to the daemon, no request to the agent; the
    command ends with a complaint. -/
structure NothingStarted (e : Effect) : Prop where
  exit : e.exit = 1
  output : e.output = ""
  complaint : e.complaint ≠ none
  sessions : ∀ n ∈ e.notices, n.sentence ≠ "starting watch session"
  daemonRequests : e.daemonRequests = 0
  agentRequests : e.agentRequests = []

/-- **The sessions are run with a configuration**: there are some, and what is done is what they do
    one after the other. -/
def RunsWith (w : World) (i : Invocation) (c : Config) (e : Effect) : Prop :=
  ∃ ns, sessions w c i.iterations ≠ [] ∧ e =
    conclude w i
      ((sessions w c i.iterations).map fun x => summaryJson w.timing x.iteration x.report)
      (ending (sessions w c i.iterations))
      ((sessions w c i.iterations).foldl (Session.after w i c) (({} : Effect).tell ns))

/-- A command that ends with a complaint before its first session starts nothing. -/
theorem nothingStarted_fail {ns : List Notice}
    (hns : ∀ n ∈ ns, n.sentence ≠ "starting watch session") (message : String)
    (causes : List String) : NothingStarted ((({} : Effect).tell ns).fail message causes) :=
  ⟨rfl, rfl, Option.some_ne_none _, hns, rfl, rfl⟩

/-! ## 3. Reading the file -/

theorem takes_iff {finds : Config.Place → Bool} {used : Option String} :
    Takes finds w i used ↔ used = i.config.or
      ((Config.userPath? w.home w.configHome).filter fun path => finds (w.places path)) := by
  constructor
  · intro h
    cases h with
    | asked path h => rw [h, Option.some_or]
    | usual path h hpath hfound => rw [h, hpath, Option.none_or, Option.filter_some, if_pos hfound]
    | none h hmissing =>
      rw [h, Option.none_or]
      exact (Option.filter_eq_none_iff.2 fun path hpath => ne_true_of_eq_false
        (hmissing path hpath)).symm
  · rintro rfl
    cases h : i.config with
    | some path => exact .asked path h
    | none =>
      rw [Option.none_or]
      cases hused : (Config.userPath? w.home w.configHome).filter fun path =>
          finds (w.places path) with
      | none =>
        exact .none h fun path hpath =>
          eq_false_of_ne_true (Option.filter_eq_none_iff.1 hused path hpath)
      | some path =>
        obtain ⟨hpath, hfound⟩ := Option.filter_eq_some_iff.1 hused
        exact .usual path h hpath hfound

theorem uses_iff {used : Option String} :
    Uses w i used ↔
      used = Config.fileRead w.places i.config (Config.userPath? w.home w.configHome) := by
  refine takes_iff.trans (Eq.congr_right ?_)
  unfold Config.fileRead
  cases i.config <;> rfl

/-- A hidden file is passed over. -/
theorem Overlooks.uses_none (h : Overlooks w i) : Uses w i none := by
  obtain ⟨hconfig, path, hpath, hhidden⟩ := h
  refine .none hconfig fun path' hpath' => ?_
  obtain rfl : path = path' := Option.some.inj (hpath.symm.trans hpath')
  rw [hhidden]
  rfl

/-- Of a place that is not hidden it is seen whether something lies there. -/
theorem isSeen_eq_isThere {place : Config.Place} (h : place ≠ .hidden) :
    place.isSeen = place.isThere := by
  cases place with
  | hidden => exact absurd rfl h
  | _ => rfl

/-- **The file that counts is used**, unless it is the user's own and hidden. -/
theorem Counts.uses_iff {used : Option String} (h : Counts w i used) :
    Uses w i used ↔ ¬Overlooks w i := by
  constructor
  · rintro hused ⟨hconfig, path, hpath, hhidden⟩
    obtain rfl : used = none := by
      rw [Command.uses_iff.1 hused, ← Command.uses_iff.1
        (Overlooks.uses_none ⟨hconfig, path, hpath, hhidden⟩)]
    cases h with
    | none _ hmissing =>
      have hnothing : (w.places path).isThere = false := hmissing path hpath
      rw [hhidden] at hnothing
      cases hnothing
  · intro hseen
    have hsame {path : String} (hconfig : i.config = none)
        (hpath : Config.userPath? w.home w.configHome = some path) :
        (w.places path).isSeen = (w.places path).isThere :=
      isSeen_eq_isThere fun hhidden => hseen ⟨hconfig, path, hpath, hhidden⟩
    cases h with
    | asked path hconfig => exact .asked path hconfig
    | usual path hconfig hpath hfound =>
      exact .usual path hconfig hpath ((hsame hconfig hpath).trans hfound)
    | none hconfig hmissing =>
      exact .none hconfig fun path hpath =>
        (hsame hconfig hpath).trans (hmissing path hpath)

/-- If no file is used, the configuration is the usual one. -/
theorem loadConfig_of_none (h : Uses w i none) : loadConfig w i.config = .ok ({}, []) := by
  unfold loadConfig
  dsimp only
  rw [← uses_iff.1 h]

/-- If a file is used, its configuration is read, and its path is told. -/
theorem loadConfig_of_some {path : String} (h : Uses w i (some path)) :
    loadConfig w i.config = (Config.loadAt w.places path).map fun c =>
      (c, [⟨.debug, "loaded watch config", [("path", .shown path)]⟩]) := by
  unfold loadConfig
  dsimp only
  rw [← uses_iff.1 h]
  dsimp only
  cases Config.loadAt w.places path <;> rfl

/-- A file that is used and spoilt ends every command. -/
theorem perform_of_spoilt {path : String} (hused : Uses w i (some path))
    (hspoilt : Spoilt w.places path) :
    NothingStarted (perform w i) ∧ ∃ err, Config.loadAt w.places path = .error err ∧
      perform w i =
        ({} : Effect).fail "failed to load snapwatch config" (err.message :: err.causes) := by
  obtain ⟨err, herr⟩ := Config.loadAt_eq_error.2 hspoilt
  have hload : loadConfig w i.config = .error err := by
    rw [loadConfig_of_some hused, herr]
    rfl
  have hperform : perform w i =
      ({} : Effect).fail "failed to load snapwatch config" (err.message :: err.causes) := by
    unfold perform
    rw [hload]
  refine ⟨?_, err, herr, hperform⟩
  rw [hperform]
  exact nothingStarted_fail (fun n hn => absurd hn List.not_mem_nil) _ _

/-- A file that is not spoilt gives something. -/
theorem gives_of_not_spoilt {places : Config.Places} {path : String} (h : ¬Spoilt places path) :
    ∃ g, Gives places (some path) g := by
  cases hload : Config.loadAt places path with
  | error err => exact absurd (Config.loadAt_eq_error.1 ⟨err, hload⟩) h
  | ok c =>
    obtain ⟨g, hsaid, hsound, -⟩ := Config.loadAt_eq_ok.1 hload
    exact ⟨g, .file path g hsaid hsound⟩

theorem sound_default : Config.Sound {} :=
  Config.defect?_eq_none.1 (by decide +kernel)

/-- A blank file gives nothing, like no file at all. -/
theorem gives_of_blank {places : Config.Places} {path s : String}
    (hplace : places path = .file (Bytes.ofText s)) (hs : Text.isBlankText s = true) :
    Gives places (some path) .nothing :=
  .file path .nothing ⟨s, hplace, .blank hs⟩ sound_default

/-- What is given is the configuration that is read, and at most the path is told. -/
theorem loadConfig_of_gives {used : Option String} {g : Given} (hused : Uses w i used)
    (hg : Gives w.places used g) :
    ∃ ns, loadConfig w i.config = .ok (g.over {}, ns) ∧
      ∀ n ∈ ns, n.sentence ≠ "starting watch session" := by
  cases hg with
  | nothing => exact ⟨[], loadConfig_of_none hused, fun n hn => absurd hn List.not_mem_nil⟩
  | file path g hsaid hsound =>
    refine ⟨[⟨.debug, "loaded watch config", [("path", .shown path)]⟩], ?_, fun n hn => ?_⟩
    · rw [loadConfig_of_some hused, Config.loadAt_eq_ok.2 ⟨g, hsaid, hsound, rfl⟩]
      rfl
    · rw [List.mem_singleton.1 hn]
      exact (by decide : ("loaded watch config" : String) ≠ "starting watch session")

/-- Keys in another order give the same. -/
theorem gives_of_reordered {places places' : Config.Places} {path s s' : String} {g : Given}
    (hplace : places path = .file (Bytes.ofText s))
    (hplace' : places' path = .file (Bytes.ofText s')) (h : Reordered s s')
    (hg : Gives places (some path) g) : Gives places' (some path) g := by
  cases hg with
  | file path g hsaid hsound =>
    obtain ⟨t, ht, hsaid⟩ := hsaid
    obtain rfl : t = s := Bytes.ofText_injective (Config.Place.file.inj (ht.symm.trans hplace))
    exact .file path g ⟨s', hplace', h.textSays hsaid⟩ hsound

/-! ## 4. Running the sessions -/

theorem override_socket (c : Config) :
    override i { c with socketPath := i.socket.getD c.socketPath } = (optionsOf i).over c := by
  unfold override optionsOf Given.over
  cases i.maxPolls <;> rfl

theorem sessions_ne_nil {c : Config} {n : Nat} (hn : 1 ≤ n) : sessions w c n ≠ [] := by
  obtain ⟨n, rfl⟩ := Nat.exists_eq_add_of_le' hn
  unfold sessions
  rw [sessionsFrom]
  split <;> exact List.cons_ne_nil _ _

/-- The sessions are run with the options laid over the configuration, if there is one to run and
    that is sound. -/
theorem runWatch_runsWith {c : Config} (hn : 1 ≤ i.iterations) (hsound : (override i c).Sound)
    (ns : List Notice) : RunsWith w i (override i c) (runWatch w i c (({} : Effect).tell ns)) := by
  obtain ⟨hrun, -⟩ := runWatch_of_check (w := w) hn (Config.check_eq_ok.2 ⟨rfl, hsound⟩)
    (({} : Effect).tell ns)
  refine ⟨ns, sessions_ne_nil hn, ?_⟩
  rw [hrun, watchFrom_eq]
  rfl

/-- Else nothing is started. -/
theorem runWatch_nothingStarted {c : Config}
    (h : ¬(1 ≤ i.iterations ∧ (override i c).Sound)) {ns : List Notice}
    (hns : ∀ n ∈ ns, n.sentence ≠ "starting watch session") :
    NothingStarted (runWatch w i c (({} : Effect).tell ns)) := by
  unfold runWatch
  by_cases hzero : i.iterations = 0
  · rw [if_pos hzero]
    exact nothingStarted_fail hns _ _
  · have hdefect : ∃ defect, (override i c).check = .error defect := by
      cases hcheck : (override i c).check with
      | error defect => exact ⟨defect, rfl⟩
      | ok c' => exact absurd ⟨Nat.pos_of_ne_zero hzero, (Config.check_eq_ok.1 hcheck).2⟩ h
    obtain ⟨defect, hdefect⟩ := hdefect
    dsimp only
    rw [if_neg hzero, hdefect]
    exact nothingStarted_fail hns _ _

/-- What is given decides what a watch does. -/
theorem perform_of_gives (hi : i.name = .watch) {used : Option String} {g : Given} {c : Config}
    (hused : Uses w i used) (hg : Gives w.places used g) (hc : Effective i g c) :
    (1 ≤ i.iterations ∧ c.Sound → RunsWith w i c (perform w i)) ∧
      (¬(1 ≤ i.iterations ∧ c.Sound) → NothingStarted (perform w i)) := by
  obtain ⟨ns, hload, hns⟩ := loadConfig_of_gives hused hg
  have hperform : perform w i = runWatch w i
      { g.over {} with socketPath := i.socket.getD (g.over {}).socketPath }
      (({} : Effect).tell ns) := by
    unfold perform
    rw [hload]
    dsimp only
    rw [hi]
  rw [hperform, effective_iff.1 hc, ← override_socket]
  exact ⟨fun ⟨hn, hsound⟩ => runWatch_runsWith hn hsound ns,
    fun h => runWatch_nothingStarted h hns⟩

/-- **A watch that starts something** runs its sessions with the effective configuration, which is
    sound. -/
theorem perform_starts (hi : i.name = .watch) :
    NothingStarted (perform w i) ∨ 1 ≤ i.iterations ∧ ∃ used g c, Uses w i used ∧
      Gives w.places used g ∧ Effective i g c ∧ c.Sound ∧ RunsWith w i c (perform w i) := by
  have hstarts {used : Option String} (hused : Uses w i used) {g : Given}
      (hg : Gives w.places used g) :
      NothingStarted (perform w i) ∨ 1 ≤ i.iterations ∧ ∃ used g c, Uses w i used ∧
        Gives w.places used g ∧ Effective i g c ∧ c.Sound ∧ RunsWith w i c (perform w i) := by
    have hc : Effective i g ((optionsOf i).over (g.over {})) := effective_iff.2 rfl
    obtain ⟨hruns, hnothing⟩ := perform_of_gives hi hused hg hc
    by_cases h : 1 ≤ i.iterations ∧ ((optionsOf i).over (g.over {})).Sound
    · exact .inr ⟨h.1, used, g, _, hused, hg, hc, h.2, hruns h⟩
    · exact .inl (hnothing h)
  -- the three cases of the file: none is used, a spoilt one, or one that gives something
  have hused : Uses w i _ := uses_iff.2 rfl
  cases hfile : Config.fileRead w.places i.config (Config.userPath? w.home w.configHome) with
  | none => exact hstarts (hfile ▸ hused) .nothing
  | some path =>
    rw [hfile] at hused
    by_cases hspoilt : Spoilt w.places path
    · exact .inl (perform_of_spoilt hused hspoilt).1
    · obtain ⟨g, hg⟩ := gives_of_not_spoilt hspoilt
      exact hstarts hused hg

/-! ## 5. What decides a watch -/

/-- **What decides a watch**: the file that is used, which gives something unless it is spoilt, and
    the options. -/
structure DecidedBy (w : World) (i : Invocation) (e : Effect) : Prop where
  /-- One file is used, or none: -/
  used : ∃ used, Uses w i used ∧ ∀ used', Uses w i used' → used' = used
  /-- the one that counts, unless it is the user's own and hidden, -/
  counts : ∀ used, Counts w i used → (Uses w i used ↔ ¬Overlooks w i)
  /-- which is passed over. -/
  overlooked : Overlooks w i → Uses w i none
  /-- If it is spoilt, that is an error. -/
  spoilt : ∀ path, Uses w i (some path) → Spoilt w.places path →
    NothingStarted e ∧ ∃ err, Config.loadAt w.places path = .error err ∧
      e = ({} : Effect).fail "failed to load snapwatch config" (err.message :: err.causes)
  /-- Else it gives something; -/
  unspoilt : ∀ path, ¬Spoilt w.places path → ∃ g, Gives w.places (some path) g
  /-- if it is blank, nothing; -/
  blank : ∀ path s, w.places path = .file (Bytes.ofText s) → Text.isBlankText s = true →
    Gives w.places (some path) .nothing
  /-- and if its keys stand in another order, the same. -/
  reordered : ∀ path s s' places', w.places path = .file (Bytes.ofText s) →
    places' path = .file (Bytes.ofText s') → Reordered s s' →
      ∀ g, Gives w.places (some path) g ↔ Gives places' (some path) g
  /-- What is given makes the effective configuration. The sessions are run with it if it is sound
      and there is one to run; else nothing is started. -/
  given : ∀ used g, Uses w i used → Gives w.places used g → ∃ c, Effective i g c ∧
    (1 ≤ i.iterations ∧ c.Sound → RunsWith w i c e) ∧
      (¬(1 ≤ i.iterations ∧ c.Sound) → NothingStarted e)
  /-- So nothing is ever started with another configuration. -/
  started : NothingStarted e ∨ 1 ≤ i.iterations ∧ ∃ used g c, Uses w i used ∧
    Gives w.places used g ∧ Effective i g c ∧ c.Sound ∧ RunsWith w i c e

/-- **The effective configuration of a watch.** Which file is used, what of it counts, and whether
    anything is started is decided by the files that are there and by the options alone. -/
theorem watch_decided (w : World) (i : Invocation) (hi : i.name = .watch) :
    DecidedBy w i (perform w i) where
  used := ⟨_, uses_iff.2 rfl, fun _ h => uses_iff.1 h⟩
  counts _ hcounts := hcounts.uses_iff
  overlooked h := h.uses_none
  spoilt _ hused hspoilt := perform_of_spoilt hused hspoilt
  unspoilt _ hspoilt := gives_of_not_spoilt hspoilt
  blank _ _ hplace hblank := gives_of_blank hplace hblank
  reordered _ _ _ _ hplace hplace' hsame _ :=
    ⟨gives_of_reordered hplace hplace' hsame, gives_of_reordered hplace' hplace hsame.symm⟩
  given _ _ hused hg :=
    ⟨_, effective_iff.2 rfl, perform_of_gives hi hused hg (effective_iff.2 rfl)⟩
  started := perform_starts hi

/-- A machine on which one file says what is watched, and nothing lies elsewhere. -/
private def oneFile : World where
  places path :=
    if path = "/etc/watch.yaml" then
      .file (Bytes.ofText "max_polls: 4\npackage: other-agent\ntimeout_secs: 30\n")
    else .missing
  home := none
  configHome := none
  daemon := []
  agent := ⟨⟨"localhost", 30000⟩, none⟩
  logLevel := none
  colors := false
  interrupts := .never
  timing := ⟨"", "", "", fun _ => "", fun _ => "", fun _ => .null, "", ""⟩

/-- The file is asked for, but another package and a shorter interval are given. -/
private def overFile : Invocation where
  name := .watch
  config := some "/etc/watch.yaml"
  socket := none
  logJson := false
  json := false
  package := some "agent"
  triggerUrl := none
  interval := some 1
  timeout := none
  maxPolls := none
  iterations := 1

/-- The configuration that this makes. -/
private def fileOverlaid : Config where
  package := "agent"
  pollIntervalSecs := 1
  timeoutSecs := 30
  maxPolls := some 4

/-- The package and the interval are those that are asked for, the bounds are those of the file, and
    the rest are the defaults. -/
theorem watch_decided_over_file :
    overFile.name = .watch ∧ Uses oneFile overFile (some "/etc/watch.yaml") ∧
      ∃ g, Gives oneFile.places (some "/etc/watch.yaml") g ∧ Effective overFile g fileOverlaid ∧
        RunsWith oneFile overFile fileOverlaid (perform oneFile overFile) := by
  have hdecided : DecidedBy oneFile overFile (perform oneFile overFile) :=
    watch_decided oneFile overFile rfl
  have hused : Uses oneFile overFile (some "/etc/watch.yaml") := .asked _ rfl
  have hload : Config.loadAt oneFile.places "/etc/watch.yaml" =
      .ok { package := "other-agent", timeoutSecs := 30, maxPolls := some 4 } :=
    ok_of_toOption (by decide +kernel)
  obtain ⟨g, hsaid, hsound, hfile⟩ := Config.loadAt_eq_ok.1 hload
  have hgives : Gives oneFile.places (some "/etc/watch.yaml") g := .file _ g hsaid hsound
  obtain ⟨c, hc, hruns, -⟩ := hdecided.given _ g hused hgives
  obtain rfl : c = fileOverlaid := by
    rw [effective_iff.1 hc, ← hfile]
    rfl
  have hsound : fileOverlaid.Sound := Config.defect?_eq_none.1 (by decide +kernel)
  exact ⟨rfl, hused, g, hgives, hc, hruns ⟨Nat.le_refl 1, hsound⟩⟩

/-- A machine on which the user's own file is hidden, and nothing lies elsewhere. -/
private def hiddenFile : World :=
  { oneFile with
    places := fun path =>
      if path = "/home/user/.config/snapwatch/config.yaml" then .hidden else .missing
    home := some "/home/user" }

/-- A watch without options. -/
private def bare : Invocation :=
  { overFile with config := none, package := none, interval := none }

/-- The user's own file counts, but the sessions are run with the defaults. -/
theorem hidden_file_passed_over :
    Counts hiddenFile bare (some "/home/user/.config/snapwatch/config.yaml") ∧
      Uses hiddenFile bare none ∧ RunsWith hiddenFile bare {} (perform hiddenFile bare) := by
  have hpath : Config.userPath? hiddenFile.home hiddenFile.configHome =
      some "/home/user/.config/snapwatch/config.yaml" := by decide +kernel
  have hhidden : hiddenFile.places "/home/user/.config/snapwatch/config.yaml" = .hidden := rfl
  have hcounts : Counts hiddenFile bare (some "/home/user/.config/snapwatch/config.yaml") :=
    .usual _ rfl hpath (by rw [hhidden]; rfl)
  have hused : Uses hiddenFile bare none := Overlooks.uses_none ⟨rfl, _, hpath, hhidden⟩
  have hdefaults : Effective bare .nothing {} := effective_iff.2 rfl
  obtain ⟨hruns, -⟩ := perform_of_gives rfl hused .nothing hdefaults
  exact ⟨hcounts, hused, hruns ⟨Nat.le_refl 1, sound_default⟩⟩

end RevisionWatch.Command
