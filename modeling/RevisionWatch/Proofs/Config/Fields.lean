import Mathlib.Data.List.Pairwise
import Mathlib.Logic.Function.Basic
import RevisionWatch.Config.Fields
/-!
# The fields of a configuration

A configuration is its seven fields (`Field`), each with its name, the type of its values, and the
way a value of it is read. What a document gives is a value for some of them (`Given`), and laid
over a configuration it replaces these and leaves the others (`Given.over`).

The members of a document say a `Given` if each names another field and has a value that is read as
one of that field (`Says`); the order of the members does not occur in this (`Says.perm`). Setting
the members one after the other comes to the same (`setAll_eq_ok`).
-/

namespace RevisionWatch.Config

variable {ν : Type} {s : Source ν}

/-! ## 1. Fields -/

/-- A field of a configuration. -/
inductive Field where
  | socketPath
  | package
  | triggerUrl
  | pollIntervalSecs
  | timeoutSecs
  | maxPolls
  | ioTimeoutSecs
deriving DecidableEq, Repr

namespace Field

/-- The name of a field in a document. -/
def name : Field → String
  | socketPath => "socket_path"
  | package => "package"
  | triggerUrl => "trigger_url"
  | pollIntervalSecs => "poll_interval_secs"
  | timeoutSecs => "timeout_secs"
  | maxPolls => "max_polls"
  | ioTimeoutSecs => "io_timeout_secs"

/-- The type of a field's values. -/
abbrev Value : Field → Type
  | socketPath | package | triggerUrl => String
  | pollIntervalSecs | timeoutSecs | ioTimeoutSecs => Nat
  | maxPolls => Option Nat

/-- The value of a field. -/
def get : (f : Field) → Config → f.Value
  | socketPath, c => c.socketPath
  | package, c => c.package
  | triggerUrl, c => c.triggerUrl
  | pollIntervalSecs, c => c.pollIntervalSecs
  | timeoutSecs, c => c.timeoutSecs
  | maxPolls, c => c.maxPolls
  | ioTimeoutSecs, c => c.ioTimeoutSecs

/-- The configuration with another value of a field. -/
def put : (f : Field) → f.Value → Config → Config
  | socketPath, x, c => { c with socketPath := x }
  | package, x, c => { c with package := x }
  | triggerUrl, x, c => { c with triggerUrl := x }
  | pollIntervalSecs, x, c => { c with pollIntervalSecs := x }
  | timeoutSecs, x, c => { c with timeoutSecs := x }
  | maxPolls, x, c => { c with maxPolls := x }
  | ioTimeoutSecs, x, c => { c with ioTimeoutSecs := x }

/-- Reads a value of a field: a text, a number of a 64-bit word, or for the number of polls one of a
    32-bit word or nothing. -/
def read (s : Source ν) : (f : Field) → ν → Except Mismatch f.Value
  | socketPath => s.text "path string"
  | package => s.text "a string"
  | triggerUrl => s.text "a string"
  | pollIntervalSecs => s.word
  | timeoutSecs => s.word
  | maxPolls => s.bound
  | ioTimeoutSecs => s.word

theorem name_injective {f f' : Field} (h : f.name = f'.name) : f = f' := by
  revert h
  cases f <;> cases f' <;> decide

theorem get_put (f : Field) (x : f.Value) (c : Config) : f.get (f.put x c) = x := by
  cases f <;> rfl

theorem get_put_of_ne {f f' : Field} (h : f ≠ f') (x : f'.Value) (c : Config) :
    f.get (f'.put x c) = f.get c := by
  cases f <;> cases f' <;> first | rfl | exact absurd rfl h

end Field

/-- A configuration is its fields. -/
theorem ext_get {c c' : Config} (h : ∀ f : Field, f.get c = f.get c') : c = c' := by
  obtain ⟨socket, package, url, interval, timeout, polls, io⟩ := c
  obtain ⟨socket', package', url', interval', timeout', polls', io'⟩ := c'
  have hsocket : socket = socket' := h .socketPath
  have hpackage : package = package' := h .package
  have hurl : url = url' := h .triggerUrl
  have hinterval : interval = interval' := h .pollIntervalSecs
  have htimeout : timeout = timeout' := h .timeoutSecs
  have hpolls : polls = polls' := h .maxPolls
  have hio : io = io' := h .ioTimeoutSecs
  subst hsocket hpackage hurl hinterval htimeout hpolls hio
  rfl

theorem contains_fieldNames (name : String) :
    fieldNames.contains name = true ↔ ∃ f : Field, f.name = name := by
  rw [List.contains_iff_mem]
  constructor
  · intro h
    simp only [fieldNames, List.mem_cons, List.not_mem_nil, or_false] at h
    rcases h with rfl | rfl | rfl | rfl | rfl | rfl | rfl
    · exact ⟨.socketPath, rfl⟩
    · exact ⟨.package, rfl⟩
    · exact ⟨.triggerUrl, rfl⟩
    · exact ⟨.pollIntervalSecs, rfl⟩
    · exact ⟨.timeoutSecs, rfl⟩
    · exact ⟨.maxPolls, rfl⟩
    · exact ⟨.ioTimeoutSecs, rfl⟩
  · rintro ⟨f, rfl⟩
    cases f <;> decide

/-- Setting by name is setting the field of that name. -/
theorem set_name (s : Source ν) (c : Config) (f : Field) (v : ν) :
    set s c f.name v = (fun x => f.put x c) <$> f.read s v := by
  cases f <;> rfl

/-! ## 2. What is given -/

/-- Values for some of the fields. -/
abbrev Given : Type :=
  (f : Field) → Option f.Value

/-- Nothing is given. -/
def Given.nothing : Given :=
  fun _ => none

/-- The configuration with what is given laid over it. -/
def Given.over (g : Given) (c : Config) : Config where
  socketPath := (g .socketPath).getD c.socketPath
  package := (g .package).getD c.package
  triggerUrl := (g .triggerUrl).getD c.triggerUrl
  pollIntervalSecs := (g .pollIntervalSecs).getD c.pollIntervalSecs
  timeoutSecs := (g .timeoutSecs).getD c.timeoutSecs
  maxPolls := (g .maxPolls).getD c.maxPolls
  ioTimeoutSecs := (g .ioTimeoutSecs).getD c.ioTimeoutSecs

/-- **Each field has the value that is given, or the one it had.** -/
theorem Given.get_over (g : Given) (c : Config) (f : Field) :
    f.get (g.over c) = (g f).getD (f.get c) := by
  cases f <;> rfl

/-- One value more. -/
theorem Given.update_over {g : Given} {f : Field} (hg : g f = none) (x : f.Value) (c : Config) :
    Given.over (Function.update g f (some x)) c = g.over (f.put x c) := by
  refine ext_get fun f' => ?_
  rw [Given.get_over, Given.get_over]
  by_cases hf : f' = f
  · subst hf
    rw [Function.update_self, hg, Field.get_put]
    rfl
  · rw [Function.update_of_ne hf, Field.get_put_of_ne hf]

/-! ## 3. Members -/

/-- A member of a document: its key, what its faults are named after, and its value. -/
abbrev Member (ν : Type) : Type :=
  Except Mismatch String × Option String × ν

/-- **The members give these values**: each names another field and gives it a value, and no other
    field is given one. -/
structure Says (s : Source ν) (ms : List (Member ν)) (g : Given) : Prop where
  known : ∀ m ∈ ms, ∃ f : Field, ∃ x : f.Value,
    m.1 = .ok f.name ∧ f.read s m.2.2 = .ok x ∧ g f = some x
  apart : ms.Pairwise fun m m' => m.1 ≠ m'.1
  present : ∀ f : Field, g f ≠ none → ∃ m ∈ ms, m.1 = .ok f.name

/-- **The order of the members does not matter.** -/
theorem Says.perm {ms ms' : List (Member ν)} {g : Given} (h : Says s ms g) (hp : ms.Perm ms') :
    Says s ms' g where
  known m hm := h.known m (hp.mem_iff.2 hm)
  apart := (hp.pairwise_iff Ne.symm).1 h.apart
  present f hf := by
    obtain ⟨m, hm, hname⟩ := h.present f hf
    exact ⟨m, hp.mem_iff.1 hm, hname⟩

/-- Members of another source say the same if they have the same names and their values are read
    alike. -/
theorem says_map {ν' : Type} {s' : Source ν'} {φ : Member ν → Member ν'} {ms : List (Member ν)}
    {g : Given} (hname : ∀ m, (φ m).1 = m.1)
    (hread : ∀ (f : Field) (m : Member ν), f.read s' (φ m).2.2 = f.read s m.2.2) :
    Says s' (ms.map φ) g ↔ Says s ms g := by
  constructor
  · intro h
    refine ⟨fun m hm => ?_, ?_, fun f hf => ?_⟩
    · obtain ⟨f, x, hf, hx, hg⟩ := h.known (φ m) (List.mem_map_of_mem hm)
      exact ⟨f, x, (hname m).symm.trans hf, (hread f m).symm.trans hx, hg⟩
    · have hapart := List.pairwise_map.1 h.apart
      simp only [hname] at hapart
      exact hapart
    · obtain ⟨m', hm', hf'⟩ := h.present f hf
      obtain ⟨m, hm, rfl⟩ := List.mem_map.1 hm'
      exact ⟨m, hm, (hname m).symm.trans hf'⟩
  · intro h
    refine ⟨fun m' hm' => ?_, ?_, fun f hf => ?_⟩
    · obtain ⟨m, hm, rfl⟩ := List.mem_map.1 hm'
      obtain ⟨f, x, hf, hx, hg⟩ := h.known m hm
      exact ⟨f, x, (hname m).trans hf, (hread f m).trans hx, hg⟩
    · refine List.pairwise_map.2 ?_
      simp only [hname]
      exact h.apart
    · obtain ⟨m, hm, hf'⟩ := h.present f hf
      exact ⟨φ m, List.mem_map_of_mem hm, (hname m).trans hf'⟩

theorem says_nil {g : Given} : Says s [] g ↔ g = .nothing := by
  constructor
  · intro h
    funext f
    by_contra hf
    obtain ⟨m, hm, -⟩ := h.present f hf
    cases hm
  · rintro rfl
    exact ⟨(fun m hm => nomatch hm), .nil, fun f hf => absurd rfl hf⟩

/-- The first member gives one value, and the others give the rest. -/
theorem says_cons {m : Member ν} {ms : List (Member ν)} {g : Given} :
    Says s (m :: ms) g ↔ ∃ (f : Field) (x : f.Value) (g' : Given), m.1 = .ok f.name ∧
      f.read s m.2.2 = .ok x ∧ Says s ms g' ∧ g' f = none ∧
        g = Function.update g' f (some x) := by
  constructor
  · intro h
    obtain ⟨f, x, hname, hread, hg⟩ := h.known m List.mem_cons_self
    obtain ⟨hhead, htail⟩ := List.pairwise_cons.1 h.apart
    refine ⟨f, x, Function.update g f none, hname, hread, ⟨?_, htail, ?_⟩,
      Function.update_self f none g, ?_⟩
    · intro m' hm'
      obtain ⟨f', x', hname', hread', hg'⟩ := h.known m' (List.mem_cons_of_mem m hm')
      have hne : f' ≠ f := fun hf => by
        subst hf
        exact hhead m' hm' (hname.trans hname'.symm)
      exact ⟨f', x', hname', hread', by rw [Function.update_of_ne hne]; exact hg'⟩
    · intro f' hf'
      have hne : f' ≠ f := fun hf => by
        subst hf
        exact hf' (Function.update_self f' none g)
      rw [Function.update_of_ne hne] at hf'
      obtain ⟨m', hm', hname'⟩ := h.present f' hf'
      rcases List.mem_cons.1 hm' with rfl | hm'
      · rw [hname] at hname'
        exact absurd (Field.name_injective (Except.ok.inj hname')).symm hne
      · exact ⟨m', hm', hname'⟩
    · rw [Function.update_idem, ← hg, Function.update_eq_self]
  · rintro ⟨f, x, g', hname, hread, h, hnone, rfl⟩
    -- the others name other fields, since this one is given no value by them
    have hother {m' : Member ν} (hm' : m' ∈ ms) : ∃ f' : Field, ∃ x' : f'.Value, f' ≠ f ∧
        m'.1 = .ok f'.name ∧ f'.read s m'.2.2 = .ok x' ∧ g' f' = some x' := by
      obtain ⟨f', x', hname', hread', hg'⟩ := h.known m' hm'
      refine ⟨f', x', fun hf => ?_, hname', hread', hg'⟩
      subst hf
      rw [hnone] at hg'
      cases hg'
    refine ⟨?_, List.pairwise_cons.2 ⟨?_, h.apart⟩, ?_⟩
    · intro m' hm'
      rcases List.mem_cons.1 hm' with rfl | hm'
      · exact ⟨f, x, hname, hread, Function.update_self f _ g'⟩
      · obtain ⟨f', x', hne, hname', hread', hg'⟩ := hother hm'
        exact ⟨f', x', hname', hread', by rw [Function.update_of_ne hne]; exact hg'⟩
    · intro m' hm' heq
      obtain ⟨f', x', hne, hname', -, -⟩ := hother hm'
      rw [hname, hname'] at heq
      exact hne (Field.name_injective (Except.ok.inj heq)).symm
    · intro f' hf'
      by_cases hf : f' = f
      · subst hf
        exact ⟨m, List.mem_cons_self, hname⟩
      · rw [Function.update_of_ne hf] at hf'
        obtain ⟨m', hm', hname'⟩ := h.present f' hf'
        exact ⟨m', List.mem_cons_of_mem m hm', hname'⟩

/-! ## 4. Setting the members -/

/-- The first member is set if it names a field that was not set before, and its value is read. -/
theorem setAll_cons {seen : List String} {c c' : Config} {m : Member ν} {ms : List (Member ν)} :
    setAll s seen c (m :: ms) = .ok c' ↔ ∃ (f : Field) (x : f.Value), m.1 = .ok f.name ∧
      f.name ∉ seen ∧ f.read s m.2.2 = .ok x ∧
        setAll s (f.name :: seen) (f.put x c) ms = .ok c' := by
  obtain ⟨key, place, v⟩ := m
  cases key with
  | error e =>
    rw [setAll]
    exact ⟨(fun h => nomatch h), fun ⟨_, _, h, _⟩ => nomatch h⟩
  | ok name =>
    rw [setAll]
    by_cases hname : fieldNames.contains name = true
    · obtain ⟨f, rfl⟩ := (contains_fieldNames name).1 hname
      rw [hname, set_name]
      by_cases hseen : f.name ∈ seen
      · have hcontains : seen.contains f.name = true := List.contains_iff_mem.2 hseen
        rw [hcontains]
        refine ⟨(fun h => nomatch h), ?_⟩
        rintro ⟨f', x, hf, hnot, -⟩
        rw [← Field.name_injective (Except.ok.inj hf)] at hnot
        exact absurd hseen hnot
      · have hcontains : seen.contains f.name = false :=
          Bool.eq_false_iff.2 fun h => hseen (List.contains_iff_mem.1 h)
        rw [hcontains]
        cases hread : f.read s v with
        | error e =>
          refine ⟨(fun h => nomatch h), ?_⟩
          rintro ⟨f', x, hf, -, hread', -⟩
          obtain rfl := Field.name_injective (Except.ok.inj hf)
          rw [hread] at hread'
          cases hread'
        | ok x =>
          refine ⟨fun h => ⟨f, x, rfl, hseen, hread, h⟩, ?_⟩
          rintro ⟨f', x', hf, -, hread', h⟩
          obtain rfl := Field.name_injective (Except.ok.inj hf)
          rw [hread] at hread'
          cases hread'
          exact h
    · have hcontains : fieldNames.contains name = false := Bool.eq_false_iff.2 hname
      rw [hcontains]
      refine ⟨(fun h => nomatch h), ?_⟩
      rintro ⟨f, x, hf, -⟩
      exact absurd ((contains_fieldNames name).2 ⟨f, (Except.ok.inj hf).symm⟩) hname

/-- **Setting the members one after the other** succeeds if they say something about fields that
    were not set before, and lays it over the configuration. -/
theorem setAll_eq_ok : ∀ {ms : List (Member ν)} {seen : List String} {c c' : Config},
    setAll s seen c ms = .ok c' ↔
      ∃ g, Says s ms g ∧ (∀ f : Field, g f ≠ none → f.name ∉ seen) ∧ c' = g.over c
  | [], seen, c, c' => by
    constructor
    · intro h
      cases h
      exact ⟨.nothing, says_nil.2 rfl, fun f hf => absurd rfl hf, rfl⟩
    · rintro ⟨g, hsaid, -, rfl⟩
      rw [says_nil.1 hsaid]
      rfl
  | m :: ms, seen, c, c' => by
    -- the names seen grow by the first member's, so the others may not give that field again
    rw [setAll_cons]
    constructor
    · rintro ⟨f, x, hname, hseen, hread, hset⟩
      obtain ⟨g', hsaid, hfresh, rfl⟩ := setAll_eq_ok.1 hset
      have hnone : g' f = none := by
        by_contra hf
        exact hfresh f hf List.mem_cons_self
      have hcons : Says s (m :: ms) (Function.update g' f (some x)) :=
        says_cons.2 ⟨f, x, g', hname, hread, hsaid, hnone, rfl⟩
      refine ⟨_, hcons, fun f' hf' => ?_, (Given.update_over hnone x c).symm⟩
      by_cases hf : f' = f
      · rw [hf]
        exact hseen
      · rw [Function.update_of_ne hf] at hf'
        exact fun hmem => hfresh f' hf' (List.mem_cons_of_mem f.name hmem)
    · rintro ⟨g, hsaid, hfresh, rfl⟩
      obtain ⟨f, x, g', hname, hread, hsaid', hnone, rfl⟩ := says_cons.1 hsaid
      have hgiven : Function.update g' f (some x) f ≠ none := by
        rw [Function.update_self]
        exact Option.some_ne_none x
      have hseen : f.name ∉ seen := hfresh f hgiven
      refine ⟨f, x, hname, hseen, hread,
        setAll_eq_ok.2 ⟨g', hsaid', fun f' hf' => ?_, Given.update_over hnone x c⟩⟩
      have hne : f' ≠ f := fun hf => hf' (hf ▸ hnone)
      intro hmem
      rcases List.mem_cons.1 hmem with heq | hmem
      · exact hne (Field.name_injective heq)
      · exact hfresh f' (by rw [Function.update_of_ne hne]; exact hf') hmem

end RevisionWatch.Config
