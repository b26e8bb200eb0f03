import RevisionWatch.Proofs.Daemon.Asking
import RevisionWatch.Proofs.Text.Order
/-!
# The answers agree

The list of packages and the answer about one package are got from the same entries in two ways:
the list leaves out the entries without a record, and the answer about a name goes by the first
entry of that name, with a record or without. They agree on every reply (`answers_agree`): a
package that is the answer is in the list, and if no name is given twice the other way round too.

Sorting does not change the order of the packages of one name: they are a part of the reply's
packages that is sorted already, and such a part is found in the list as it was (`filter_sorted`).
-/

namespace RevisionWatch.Daemon

/-! ## 1. The entries -/

/-- A package has the name of its entry. -/
theorem Entry.name_of_package {e : Entry} {p : Package} (h : e.package = .ok p) :
    p.name = e.name := by
  obtain ⟨_, -, h⟩ := bind_eq_ok h
  obtain ⟨_, -, h⟩ := bind_eq_ok h
  cases h
  rfl

theorem mem_records {es : List Entry} {p : Package} :
    p ∈ records es ↔ ∃ e ∈ es, e.package = .ok p := by
  have toOption (e : Entry) : e.package.toOption = some p ↔ e.package = .ok p := by
    cases e.package <;> simp [Except.toOption]
  simp only [records, List.mem_filterMap, toOption]

/-! ## 2. The list -/

/-- The list shows the packages of the entries that have one, neither more nor fewer, by the bytes
    of their names, and those of one name in the order of the reply. -/
structure ShowsAll (es : List Entry) (ps : List Package) : Prop where
  perm : ps.Perm (records es)
  sorted : ps.Pairwise fun p q => Bytes.ofText p.name ≤ Bytes.ofText q.name
  stable : ∀ name, ps.filter (·.name = name) = (records es).filter (·.name = name)

theorem ShowsAll.mem_iff {es : List Entry} {ps : List Package} {p : Package} (h : ShowsAll es ps) :
    p ∈ ps ↔ ∃ e ∈ es, e.package = .ok p :=
  h.perm.mem_iff.trans mem_records

theorem name_le_trans (a b c : Package) (hab : decide (a.name ≤ b.name) = true)
    (hbc : decide (b.name ≤ c.name) = true) : decide (a.name ≤ c.name) = true :=
  decide_eq_true (le_trans (of_decide_eq_true hab) (of_decide_eq_true hbc))

theorem name_le_total (a b : Package) :
    (decide (a.name ≤ b.name) || decide (b.name ≤ a.name)) = true := by
  simpa using le_total a.name b.name

/-- Sorting keeps the packages of one name as they are. -/
theorem filter_sorted (ps : List Package) (name : String) :
    (ps.mergeSort fun a b => a.name ≤ b.name).filter (·.name = name) =
      ps.filter (·.name = name) := by
  have hsorted : (ps.filter (·.name = name)).Pairwise fun a b => decide (a.name ≤ b.name) := by
    refine List.pairwise_of_forall_mem_list fun a ha b hb => ?_
    have ha : a.name = name := by simpa using (List.mem_filter.1 ha).2
    have hb : b.name = name := by simpa using (List.mem_filter.1 hb).2
    exact decide_eq_true (le_of_eq (ha.trans hb.symm))
  have hsub : (ps.filter (·.name = name)).Sublist (ps.mergeSort fun a b => a.name ≤ b.name) :=
    List.sublist_mergeSort name_le_trans name_le_total hsorted List.filter_sublist
  have hsub := hsub.filter (·.name = name)
  simp only [List.filter_filter, Bool.and_self] at hsub
  exact (hsub.eq_of_length ((List.mergeSort_perm ps _).filter _).length_eq.symm).symm

theorem lists_packages (es : List Entry) : ShowsAll es (packages es) where
  perm := List.mergeSort_perm _ _
  sorted := by
    refine (List.pairwise_mergeSort name_le_trans name_le_total (records es)).imp ?_
    exact fun h => Bytes.ofText_le_iff.2 (of_decide_eq_true h)
  stable := filter_sorted (records es)

/-! ## 3. The answer about a name -/

/-- The answer about a name is none if no entry has it, and else that of the first entry that has
    it; an error is one of that entry alone. -/
structure Answers (es : List Entry) (name : String) (found : Except Error (Option Package)) :
    Prop where
  absent : found = .ok none ↔ ∀ e ∈ es, e.name ≠ name
  first : ∀ before e after, es = before ++ e :: after → (∀ e' ∈ before, e'.name ≠ name) →
    e.name = name → found = some <$> e.package
  refused : ∀ err, found = .error err →
    (∃ raw, err = .malformedRevision raw) ∨ ∃ count, err = .manyServices name count ∧ 2 ≤ count

/-- No entry of a name, or a first one. -/
theorem exists_first (name : String) (es : List Entry) :
    (∀ e ∈ es, e.name ≠ name) ∨ ∃ before e after, es = before ++ e :: after ∧
      (∀ e' ∈ before, e'.name ≠ name) ∧ e.name = name := by
  cases hfind : es.find? (·.name == name) with
  | none =>
    left
    intro e he
    simpa using List.find?_eq_none.1 hfind e he
  | some e =>
    right
    obtain ⟨hname, before, after, hes, hbefore⟩ := List.find?_eq_some_iff_append.1 hfind
    exact ⟨before, e, after, hes, fun e' he' => by simpa using hbefore e' he', by simpa using hname⟩

theorem find?_absent {name : String} {es : List Entry} (h : ∀ e ∈ es, e.name ≠ name) :
    find? name es = .ok none := by
  have hfind : es.find? (·.name == name) = none :=
    List.find?_eq_none.2 fun e he => by simpa using h e he
  rw [find?, hfind]

theorem find?_first {name : String} {before after : List Entry} {e : Entry}
    (hbefore : ∀ e' ∈ before, e'.name ≠ name) (hname : e.name = name) :
    find? name (before ++ e :: after) = some <$> e.package := by
  have hfind : (before ++ e :: after).find? (·.name == name) = some e :=
    List.find?_eq_some_iff_append.2
      ⟨by simpa using hname, before, after, rfl, fun e' he' => by simpa using hbefore e' he'⟩
  rw [find?, hfind]

theorem answers_find? (es : List Entry) (name : String) : Answers es name (find? name es) := by
  obtain habsent | ⟨before, e, after, rfl, hbefore, hname⟩ := exists_first name es
  · have hnone := find?_absent habsent
    refine ⟨⟨fun _ => habsent, fun _ => hnone⟩, ?_, fun err herr => ?_⟩
    · rintro before e after rfl hbefore hname
      exact find?_first hbefore hname
    · rw [hnone] at herr
      cases herr
  · have hfirst : find? name (before ++ e :: after) = some <$> e.package :=
      find?_first hbefore hname
    refine ⟨⟨fun hnone => ?_, find?_absent⟩, ?_, fun err herr => ?_⟩
    · rw [hfirst] at hnone
      cases hp : e.package <;> rw [hp] at hnone <;> cases hnone
    · intro before' e' after' hes hbefore' hname'
      rw [hes]
      exact find?_first hbefore' hname'
    · rw [hfirst] at herr
      cases hp : e.package with
      | ok p =>
        rw [hp] at herr
        cases herr
      | error err' =>
        rw [hp] at herr
        cases herr
        exact (e.package_eq_error hp).imp_right fun ⟨herr, hmany⟩ => ⟨_, hname ▸ herr, hmany⟩

/-- A package that is the answer is one of an entry with the name. -/
theorem Answers.mem {es : List Entry} {name : String} {found : Except Error (Option Package)}
    {p : Package} (h : Answers es name found) (hp : found = .ok (some p)) :
    p.name = name ∧ ∃ e ∈ es, e.package = .ok p := by
  obtain habsent | ⟨before, e, after, hes, hbefore, hname⟩ := exists_first name es
  · rw [h.absent.2 habsent] at hp
    cases hp
  · rw [h.first before e after hes hbefore hname] at hp
    obtain ⟨p', hp', heq⟩ := map_eq_ok hp
    cases heq
    refine ⟨(e.name_of_package hp').trans hname, e, ?_, hp'⟩
    rw [hes]
    exact List.mem_append_right _ List.mem_cons_self

/-- If no name is given twice, the package of an entry is the answer about its name. -/
theorem Answers.of_mem {es : List Entry} {found : Except Error (Option Package)} {e : Entry}
    {p : Package} (h : Answers es p.name found) (hnodup : (es.map (·.name)).Nodup) (he : e ∈ es)
    (hp : e.package = .ok p) : found = .ok (some p) := by
  obtain ⟨before, after, rfl⟩ := List.append_of_mem he
  have hname : e.name = p.name := (e.name_of_package hp).symm
  have hbefore : ∀ e' ∈ before, e'.name ≠ p.name := by
    intro e' he' heq
    rw [List.map_append, List.nodup_append] at hnodup
    exact hnodup.2.2 _ (List.mem_map_of_mem he') _ (List.mem_map_of_mem List.mem_cons_self)
      (heq.trans hname.symm)
  rw [h.first before e after rfl hbefore hname, hp]
  rfl

/-! ## 4. All three answers -/

variable {r : Except Error Http.Response}

theorem installed_eq_ok {name : String} {found : Bool} :
    installed name r = .ok found ↔ ∃ p?, query name r = .ok p? ∧ p?.isSome = found := by
  unfold installed
  constructor
  · intro h
    exact map_eq_ok h
  · rintro ⟨p?, hp, rfl⟩
    rw [hp]
    rfl

theorem installed_eq_error {name : String} {err : Error} :
    installed name r = .error err ↔ query name r = .error err := by
  unfold installed
  cases query name r with
  | ok p? => exact ⟨fun h => (nomatch h), fun h => (nomatch h)⟩
  | error err' =>
    constructor
    · intro h
      exact congrArg _ (Except.error.inj h)
    · intro h
      exact congrArg _ (Except.error.inj h)

/-- If the entries cannot be read, every answer is the error of reading them. -/
theorem answers_of_unread {err : Error} (h : (r >>= entries) = .error err) :
    list r = .error err ∧
      ∀ name, query name r = .error err ∧ installed name r = .error err := by
  have hquery (name : String) : query name r = .error err := by
    rw [query_eq, h]
    rfl
  refine ⟨?_, fun name => ⟨hquery name, installed_eq_error.2 (hquery name)⟩⟩
  rw [list_eq, h]
  rfl

/-- **The answers agree on every reply.** If its entries cannot be read, all three give the error of
    reading them. If they can, the list does not fail and shows exactly the packages that the
    entries have; the answer about a name is that of the first entry of this name, and if that is a
    package it is in the list. If no name is given twice, a package is in the list if and only if it
    is the answer about its name. Whether a package is installed is asked of this answer. -/
theorem answers_agree (r : Except Error Http.Response) :
    (∀ err, (r >>= entries) = .error err →
      list r = .error err ∧
        ∀ name, query name r = .error err ∧ installed name r = .error err) ∧
    (∀ es, (r >>= entries) = .ok es →
      ∃ ps, list r = .ok ps ∧ ShowsAll es ps ∧ ∀ name,
        Answers es name (query name r) ∧
        (∀ p, query name r = .ok (some p) → p.name = name ∧ p ∈ ps) ∧
        ((es.map (·.name)).Nodup →
          ∀ p, (p ∈ ps ∧ p.name = name) ↔ query name r = .ok (some p))) ∧
    ∀ name,
      (installed name r = .ok true ↔ ∃ p, query name r = .ok (some p)) ∧
      (installed name r = .ok false ↔ query name r = .ok none) ∧
      ∀ err, installed name r = .error err ↔ query name r = .error err := by
  refine ⟨fun err => answers_of_unread, fun es hes => ?_, fun name => ⟨?_, ?_, fun err => ?_⟩⟩
  · have hlist : list r = .ok (packages es) := by
      rw [list_eq, hes]
      rfl
    have hlists : ShowsAll es (packages es) := lists_packages es
    refine ⟨packages es, hlist, hlists, fun name => ?_⟩
    have hanswers : Answers es name (query name r) := by
      rw [query_eq, hes]
      exact answers_find? es name
    have hmem {p : Package} (hp : query name r = .ok (some p)) : p.name = name ∧ p ∈ packages es :=
      (hanswers.mem hp).imp_right hlists.mem_iff.2
    refine ⟨hanswers, fun p => hmem, fun hnodup p => ⟨?_, fun hp => (hmem hp).symm⟩⟩
    rintro ⟨hp, rfl⟩
    obtain ⟨e, he, hpe⟩ := hlists.mem_iff.1 hp
    exact hanswers.of_mem hnodup he hpe
  · rw [installed_eq_ok]
    constructor
    · rintro ⟨p?, hp, hsome⟩
      obtain ⟨p, rfl⟩ := Option.isSome_iff_exists.1 hsome
      exact ⟨p, hp⟩
    · rintro ⟨p, hp⟩
      exact ⟨some p, hp, rfl⟩
  · rw [installed_eq_ok]
    constructor
    · rintro ⟨p?, hp, hnone⟩
      cases p? with
      | none => exact hp
      | some p => cases hnone
    · intro hp
      exact ⟨none, hp, rfl⟩
  · exact installed_eq_error

/-- A good reply with the entries given. -/
private def replyOf (entries : String) : Http.Response :=
  ⟨200, [], Bytes.ofText ("\x7b\"type\":\"sync\",\"result\":[" ++ entries ++ "]\x7d")⟩

/-- Two entries of one name, of which the second alone has a record. -/
private def oddReply : Http.Response :=
  replyOf ("\x7b\"name\":\"zeta\",\"revision\":\"x7\"\x7d," ++
    "\x7b\"name\":\"agent\",\"revision\":\"twelve\"\x7d," ++
    "\x7b\"name\":\"agent\",\"revision\":\"x12\"\x7d")

/-- Each name once, and one entry with two services. -/
private def plainReply : Http.Response :=
  replyOf ("\x7b\"name\":\"zeta\",\"revision\":\"x7\"\x7d,\x7b\"name\":\"pair\"," ++
    "\"revision\":\"x3\",\"apps\":[\x7b\"daemon\":\"simple\"\x7d,\x7b\"daemon\":\"\"\x7d]\x7d")

private def zeta : Package :=
  ⟨"zeta", ⟨7, by decide⟩, none, .notService⟩

private def agent : Package :=
  ⟨"agent", ⟨12, by decide⟩, none, .notService⟩

/-- The list has the second entry of the name, by which the answer does not go; with each name
    once it tells the answers; and without a reply there is one error. -/
theorem answers_agree_on_odd_entries :
    (∃ ps, list (.ok oddReply) = .ok ps ∧ ps.Perm [zeta, agent] ∧ zeta ∈ ps ∧
      installed "agent" (.ok oddReply) = .error (.malformedRevision "twelve")) ∧
    (∃ ps, list (.ok plainReply) = .ok ps ∧
      ∀ p, (p ∈ ps ∧ p.name = "zeta") ↔ query "zeta" (.ok plainReply) = .ok (some p)) ∧
    list (.error (.unavailable "/run/daemon.socket" "refused")) =
      .error (.unavailable "/run/daemon.socket" "refused") := by
  refine ⟨?_, ?_, ((answers_agree _).1 _ rfl).1⟩
  · have hread : (entries oddReply).toOption.map records = some [zeta, agent] := by decide +kernel
    obtain ⟨es, hes, hrecords⟩ := Option.map_eq_some_iff.1 hread
    obtain ⟨-, hodd, hinstalled⟩ := answers_agree (.ok oddReply)
    obtain ⟨ps, hlist, hlists, hps⟩ := hodd es (ok_of_toOption hes)
    have hzeta : query "zeta" (.ok oddReply) = .ok (some zeta) := by decide +kernel
    have hagent : query "agent" (.ok oddReply) = .error (.malformedRevision "twelve") := by
      decide +kernel
    exact ⟨ps, hlist, hrecords ▸ hlists.perm, ((hps "zeta").2.1 zeta hzeta).2,
      ((hinstalled "agent").2.2 _).2 hagent⟩
  · have hread : (entries plainReply).toOption.map (·.map Entry.name) = some ["zeta", "pair"] := by
      decide +kernel
    obtain ⟨es, hes, hnames⟩ := Option.map_eq_some_iff.1 hread
    obtain ⟨ps, hlist, -, hps⟩ := (answers_agree (.ok plainReply)).2.1 es (ok_of_toOption hes)
    exact ⟨ps, hlist, (hps "zeta").2.2 (hnames ▸ by decide)⟩

end RevisionWatch.Daemon
