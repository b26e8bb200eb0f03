import RevisionWatch.Proofs.Daemon.Listed
import RevisionWatch.Proofs.Json.Taking
/-!
# How an entry is classified

An entry is judged by its revision and by the number of its services. A bad revision is refused
first, whatever the services are; a good one with two services or more is refused by their number;
and every other entry has a package (`package_classified`). The services are looked at one after the
other until there are two, and counted only then, but all that matters is how many there are and, of
a single one, whether it is active: so neither the order of the applications nor those that are no
services make a difference (`Rearranged`).
-/

namespace RevisionWatch.Daemon

variable {e : Entry} {a : App} {n : Nat} {p : Package}

/-! ## 1. Revisions -/

/-- The value is the text of a revision that fits its word. -/
def Revised (v : Json.Value) (n : Nat) : Prop :=
  n < Decimal.word64 ∧ ∃ raw, v = .text raw ∧ Revision.Spelled raw n

theorem Entry.readRevision_eq_ok {r : Revision} :
    e.readRevision = .ok r ↔ Revised e.revision r.number := by
  unfold Entry.readRevision Revised
  split
  · rename_i raw hraw
    rw [hraw]
    constructor
    · intro h
      split at h
      · rename_i r' hparse
        cases h
        exact ⟨r.fits, raw, rfl, Revision.parse?_eq_some_iff.1 hparse⟩
      · cases h
    · rintro ⟨-, raw', heq, hspelled⟩
      cases heq
      rw [Revision.parse?_eq_some_iff.2 hspelled]
  · rename_i hother
    exact ⟨fun h => (nomatch h), fun ⟨_, raw, hraw, _⟩ => absurd hraw (hother raw)⟩

theorem Entry.exists_readRevision :
    (∃ r, e.readRevision = .ok r) ↔ ∃ n, Revised e.revision n := by
  constructor
  · rintro ⟨r, hr⟩
    exact ⟨r.number, Entry.readRevision_eq_ok.1 hr⟩
  · rintro ⟨n, hn⟩
    exact ⟨⟨n, hn.1⟩, Entry.readRevision_eq_ok.2 hn⟩

/-- A revision that is none is refused by its text, or by how its value is written. -/
theorem Entry.readRevision_of_bad (h : ∀ n, ¬ Revised e.revision n) :
    (∀ raw, e.revision = .text raw → e.readRevision = .error (.malformedRevision raw)) ∧
    ((∀ raw, e.revision ≠ .text raw) →
      e.readRevision = .error (.malformedRevision e.revision.write)) := by
  constructor
  · intro raw hraw
    cases hr : e.readRevision with
    | ok r => exact absurd (Entry.readRevision_eq_ok.1 hr) (h r.number)
    | error err =>
      unfold Entry.readRevision at hr
      rw [hraw] at hr
      dsimp only at hr
      split at hr
      · cases hr
      · exact hr.symm
  · intro hother
    unfold Entry.readRevision
    split
    · rename_i raw hraw
      exact absurd hraw (hother raw)
    · rfl

/-! ## 2. Services -/

/-- How many applications of the entry are services: for how many a type of service is given. -/
def Entry.daemons (e : Entry) : Nat :=
  e.apps.countP fun a => a.daemon.isSome

theorem Entry.length_services (e : Entry) : e.services.length = e.daemons :=
  List.countP_eq_length_filter.symm

theorem Entry.mem_services : a ∈ e.services ↔ a ∈ e.apps ∧ a.daemon.isSome = true :=
  List.mem_filter

/-- The state of an entry with no service, with one, and with more. -/
theorem Entry.service_cases (e : Entry) :
    (e.daemons = 0 ∧ e.service = .ok .notService) ∨
    (e.daemons = 1 ∧ ∃ a, (∀ b, b ∈ e.apps ∧ b.daemon.isSome = true ↔ b = a) ∧
      e.service = .ok (.service (a.active.getD false))) ∨
    (2 ≤ e.daemons ∧ e.service = .error (.manyServices e.name e.daemons)) := by
  rw [← e.length_services]
  unfold Entry.service
  cases hs : e.services with
  | nil => exact .inl ⟨rfl, rfl⟩
  | cons a as =>
    cases as with
    | nil =>
      refine .inr (.inl ⟨rfl, a, fun b => ?_, rfl⟩)
      rw [← Entry.mem_services, hs, List.mem_singleton]
    | cons b as => exact .inr (.inr ⟨by simp, rfl⟩)

/-- **What may be done to the applications**: they may change places, and those that are no services
    may come and go. -/
inductive Rearranged : List App → List App → Prop where
  | permuted {apps apps' : List App} (perm : apps.Perm apps') : Rearranged apps apps'
  | added (front back : List App) (a : App) (plain : a.daemon = none) :
      Rearranged (front ++ back) (front ++ a :: back)
  | removed (front back : List App) (a : App) (plain : a.daemon = none) :
      Rearranged (front ++ a :: back) (front ++ back)
  | trans {apps apps' apps'' : List App} (h : Rearranged apps apps') (h' : Rearranged apps' apps'') :
      Rearranged apps apps''

/-- The services are the same then, in some order. -/
theorem Rearranged.services {apps apps' : List App} (h : Rearranged apps apps') :
    (apps.filter App.isDaemon).Perm (apps'.filter App.isDaemon) := by
  have hplain {a : App} (plain : a.daemon = none) (front back : List App) :
      (front ++ a :: back).filter App.isDaemon = (front ++ back).filter App.isDaemon := by
    have hnot : ¬ a.isDaemon = true := by simp [App.isDaemon, plain]
    rw [List.filter_append, List.filter_cons_of_neg hnot, ← List.filter_append]
  induction h with
  | permuted perm => exact perm.filter _
  | added front back a plain => rw [hplain plain]
  | removed front back a plain => rw [hplain plain]
  | trans _ _ ih ih' => exact ih.trans ih'

/-- **The state of an entry does not depend on what stands between its services, nor on their
    order.** A single service is the only one in any order, and of more only the number counts. -/
theorem Entry.service_rearranged {apps : List App} (h : Rearranged e.apps apps) :
    Entry.service { e with apps } = e.service := by
  have hperm : e.services.Perm (Entry.services { e with apps }) := h.services
  unfold Entry.service
  cases hs : e.services with
  | nil =>
    rw [hs] at hperm
    rw [hperm.nil_eq]
  | cons a as =>
    rw [hs] at hperm
    cases as with
    | nil => rw [List.singleton_perm.1 hperm]
    | cons b as =>
      have hlen := hperm.length_eq
      generalize Entry.services { e with apps } = services at hlen
      match services, hlen with
      | _ :: _ :: _, hlen =>
        dsimp only
        rw [hlen]

/-! ## 3. Packages -/

/-- What the package of an entry says. Its single service is the one that is active, if it is. -/
structure Classified (e : Entry) (p : Package) : Prop where
  name : p.name = e.name
  version : p.version = e.version
  revision : Revised e.revision p.revision.number
  daemon : p.isDaemon = true ↔ e.daemons = 1
  running : p.isRunning = true ↔
    e.daemons = 1 ∧ ∃ a ∈ e.apps, a.daemon.isSome = true ∧ a.active = some true

theorem Entry.package_eq_ok : e.package = .ok p ↔
    e.readRevision = .ok p.revision ∧ e.service = .ok p.service ∧ p.name = e.name ∧
      p.version = e.version := by
  unfold Entry.package
  constructor
  · intro h
    obtain ⟨revision, hrevision, h⟩ := bind_eq_ok h
    obtain ⟨service, hservice, h⟩ := bind_eq_ok h
    cases h
    exact ⟨hrevision, hservice, rfl, rfl⟩
  · rintro ⟨hrevision, hservice, hname, hversion⟩
    rw [hrevision, hservice, ← hname, ← hversion]
    rfl

theorem Entry.classified (h : e.package = .ok p) : Classified e p := by
  obtain ⟨hrevision, hservice, hname, hversion⟩ := Entry.package_eq_ok.1 h
  have hstate : (p.isDaemon = true ↔ e.daemons = 1) ∧ (p.isRunning = true ↔
      e.daemons = 1 ∧ ∃ a ∈ e.apps, a.daemon.isSome = true ∧ a.active = some true) := by
    unfold Package.isDaemon Package.isRunning
    rcases e.service_cases with ⟨hnone, hs⟩ | ⟨hone, a, hall, hs⟩ | ⟨-, hs⟩
    · rw [hservice] at hs
      simp [Except.ok.inj hs, hnone]
    · rw [hservice] at hs
      have hactive : (∃ b ∈ e.apps, b.daemon.isSome = true ∧ b.active = some true) ↔
          a.active = some true := by
        constructor
        · rintro ⟨b, hb, hdaemon, hactive⟩
          rwa [(hall b).1 ⟨hb, hdaemon⟩] at hactive
        · intro hactive
          obtain ⟨ha, hdaemon⟩ := (hall a).2 rfl
          exact ⟨a, ha, hdaemon, hactive⟩
      rw [hactive, Except.ok.inj hs]
      rcases a.active with _ | _ | _ <;> simp [hone]
    · rw [hservice] at hs
      cases hs
  exact ⟨hname, hversion, Entry.readRevision_eq_ok.1 hrevision, hstate.1, hstate.2⟩

/-- What an entry that was read says of its applications is what is written of them. -/
theorem apps_of_ofJson {bs : Bytes} {t : Json.Tree} (ht : Json.IsText bs t)
    (h : Entry.ofJson bs = .ok e) :
    ∃ ts, AppTrees t ts ∧ List.Forall₂ App.Means ts e.apps := by
  obtain ⟨t', rest, hspells, hblank, hmeans⟩ := Json.document_sound (Entry.sound _) h
  obtain rfl := ht.unique ⟨rest, hspells, hblank⟩
  exact hmeans.apps

/-- **An entry is classified by its revision and the number of its services.** It has a package if
    the revision is one and there is no second service; the package says what the entry says, and of
    its service whether this is active. A revision that is none is refused by its own text before
    the services are looked at, and services by their number. The order of the applications does not
    matter, nor do those that are no services. In JSON the services are the applications that have a
    type other than null, and those are active of which this is written. -/
theorem package_classified (e : Entry) :
    ((∃ p, e.package = .ok p) ↔ (∃ n, Revised e.revision n) ∧ e.daemons ≤ 1) ∧
    (∀ p, e.package = .ok p → Classified e p) ∧
    ((∀ n, ¬ Revised e.revision n) →
      (∀ raw, e.revision = .text raw → e.package = .error (.malformedRevision raw)) ∧
      ((∀ raw, e.revision ≠ .text raw) →
        e.package = .error (.malformedRevision e.revision.write))) ∧
    (∀ n, Revised e.revision n → 2 ≤ e.daemons →
      e.package = .error (.manyServices e.name e.daemons)) ∧
    (∀ apps, Rearranged e.apps apps → Entry.package { e with apps } = e.package) ∧
    ∀ bs t, Json.IsText bs t → Entry.ofJson bs = .ok e →
      ∃ ts, AppTrees t ts ∧ List.Forall₂ App.Means ts e.apps := by
  have hrefused {err : Error} (h : e.readRevision = .error err) : e.package = .error err := by
    unfold Entry.package
    rw [h]
    rfl
  refine ⟨⟨?_, ?_⟩, fun p => Entry.classified, fun hbad => ?_, fun n hn hmany => ?_,
    fun apps happs => ?_, fun bs t => apps_of_ofJson⟩
  · rintro ⟨p, hp⟩
    obtain ⟨hrevision, hservice, -⟩ := Entry.package_eq_ok.1 hp
    refine ⟨⟨_, Entry.readRevision_eq_ok.1 hrevision⟩, ?_⟩
    rcases e.service_cases with ⟨hnone, -⟩ | ⟨hone, -⟩ | ⟨-, hs⟩
    · omega
    · omega
    · rw [hs] at hservice
      cases hservice
  · rintro ⟨hgood, hfew⟩
    obtain ⟨r, hr⟩ := Entry.exists_readRevision.2 hgood
    rcases e.service_cases with ⟨-, hs⟩ | ⟨-, a, -, hs⟩ | ⟨hmany, -⟩
    · exact ⟨⟨e.name, r, e.version, _⟩, Entry.package_eq_ok.2 ⟨hr, hs, rfl, rfl⟩⟩
    · exact ⟨⟨e.name, r, e.version, _⟩, Entry.package_eq_ok.2 ⟨hr, hs, rfl, rfl⟩⟩
    · omega
  · obtain ⟨htext, hother⟩ := Entry.readRevision_of_bad hbad
    exact ⟨fun raw hraw => hrefused (htext raw hraw), fun hne => hrefused (hother hne)⟩
  · obtain ⟨r, hr⟩ := Entry.exists_readRevision.2 ⟨n, hn⟩
    rcases e.service_cases with ⟨hnone, -⟩ | ⟨hone, -⟩ | ⟨-, hs⟩
    · omega
    · omega
    · unfold Entry.package
      rw [hr, hs]
      rfl
  · unfold Entry.package
    rw [Entry.service_rearranged happs]
    rfl

/-- Two services among other applications, with a revision and with none; and one of them alone,
    which is not active, whatever another application is. -/
theorem package_of_mixed_apps :
    let apps : List App := [⟨none, some true⟩, ⟨some "simple", none⟩, ⟨some "", some true⟩]
    Entry.package ⟨"agent", .text "x42", none, apps⟩ = .error (.manyServices "agent" 2) ∧
    Entry.package ⟨"agent", .natural 42, none, apps⟩ = .error (.malformedRevision "42") ∧
    ∃ p, Entry.package ⟨"agent", .text "x42", none, apps.take 2⟩ = .ok p ∧
      p.isDaemon = true ∧ p.isRunning = false := by
  intro apps
  have hgood : Revised (.text "x42") 42 :=
    ⟨by decide, "x42", rfl, 'x', ['4', '2'], rfl, by decide, List.all_eq_true.1 rfl, rfl⟩
  have hbad : ∀ n, ¬ Revised (.natural 42) n := fun n ⟨_, raw, heq, _⟩ => nomatch heq
  obtain ⟨-, -, -, hmany, -⟩ := package_classified ⟨"agent", .text "x42", none, apps⟩
  obtain ⟨-, -, hrefused, -⟩ := package_classified ⟨"agent", .natural 42, none, apps⟩
  obtain ⟨hsome, hmeans, -⟩ := package_classified ⟨"agent", .text "x42", none, apps.take 2⟩
  obtain ⟨p, hp⟩ := hsome.2 ⟨⟨42, hgood⟩, by decide⟩
  have hwrite : Json.Value.write (.natural 42) = "42" := by decide
  have hnatural := (hrefused hbad).2 fun raw heq => nomatch heq
  rw [hwrite] at hnatural
  refine ⟨hmany 42 hgood (by decide), hnatural, p, hp, (hmeans p hp).daemon.2 (by decide), ?_⟩
  rw [Bool.eq_false_iff, Ne, (hmeans p hp).running]
  decide

end RevisionWatch.Daemon
