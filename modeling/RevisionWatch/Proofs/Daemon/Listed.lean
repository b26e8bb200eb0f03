import RevisionWatch.Proofs.Daemon.Asking
import RevisionWatch.Proofs.Json.Named
import RevisionWatch.Proofs.Revision
/-!
# What the bytes of a reply say

An answer of the client is backed by the bytes of the reply. `Lists` says of bytes that they are a
good answer in which a package is listed, without the client's readers: a status and a framed body,
in the body an object that is no refusal, and in its result a first entry of the name. What the
entry says of the revision and of the service is said of its tree (`RevisionTree`, `RunningTree`).

* `App.sound`, `Entry.sound`, `listing_sound`, `Envelope.sound` -- what the records mean;
* `query_found` -- a package that is found is backed by the reply.
-/

namespace RevisionWatch.Daemon

open Json (Tree Spells Sound MayMean ListMeans)

/-! ## 1. The trees of an answer -/

/-- The application has a type of service. -/
def ServiceTree (t : Tree) : Prop :=
  ∃ kind, t.field? App.layout.keys "daemon" = some kind ∧ kind ≠ .null

/-- The application says that it is active. -/
def ActiveTree (t : Tree) : Prop :=
  t.field? App.layout.keys "active" = some (.boolean true)

/-- The entry is of the name. -/
def NamedTree (name : String) (t : Tree) : Prop :=
  ∃ n, t.field? Entry.layout.keys "name" = some n ∧ n.text? = some name

/-- The revision of the entry is a text of one character and the digits of the number. -/
def RevisionTree (number : Nat) (t : Tree) : Prop :=
  ∃ r marker digits, t.field? Entry.layout.keys "revision" = some r ∧
    r.text? = some (String.ofList (marker :: digits)) ∧ digits ≠ [] ∧
    (∀ c ∈ digits, c.isDigit = true) ∧ number = Nat.ofDigitChars 10 digits 0

/-- Exactly one of the applications of the entry is a service, and that one is active. -/
def RunningTree (t : Tree) : Prop :=
  ∃ front app back,
    t.field? Entry.layout.keys "apps" = some (.list (front ++ app :: back)) ∧
      ServiceTree app ∧ ActiveTree app ∧ ∀ other ∈ front ++ back, ¬ ServiceTree other

/-- **The bytes list an entry as the first of its name.** -/
inductive Lists (name : String) (bs : Bytes) (entry : Tree) : Prop where
  | intro (status : Nat) (hs : Http.Headers) (rest body blanks : Bytes)
      (members : List (Bytes × Tree)) (front back : List Tree)
      (headed : Http.Headed bs status hs rest) (success : 200 ≤ status ∧ status < 300)
      (framed : Http.Framed hs rest body)
      (spelled : Spells body (.value (.object members)) blanks)
      (whole : Json.dropBlanks blanks = [])
      (good : ∀ kind, (Tree.object members).field? Envelope.layout.keys "type" = some kind →
        kind.text? ≠ some "error")
      (result : (Tree.object members).field? listing.keys "result" =
        some (.list (front ++ entry :: back)))
      (named : NamedTree name entry) (first : ∀ e ∈ front, ¬ NamedTree name e)

/-! ## 2. Applications -/

theorem mayBeText_sound : Sound (Json.optional Json.text) (MayMean fun t s => t.text? = some s) :=
  Json.optional_sound (Json.text_sound _)

theorem App.layout_spelled : App.layout.Spelled := by
  intro f hf
  simp only [App.layout, List.mem_cons, List.not_mem_nil, or_false] at hf
  rcases hf with rfl | rfl
  · exact Json.Field.of_spelled fun _ => mayBeText_sound
  · exact Json.Field.of_spelled fun _ => Json.optional_sound Json.boolean_sound

theorem App.daemon_slot :
    App.layout.Slot "daemon" AppDraft.daemon (MayMean fun t s => t.text? = some s) := by
  refine .of (.head _) (by decide) rfl (fun _ => mayBeText_sound) (fun _ _ => rfl) ?_
  intro f hf hne
  simp only [App.layout, List.mem_cons, List.not_mem_nil, or_false] at hf
  rcases hf with rfl | rfl
  · exact absurd rfl hne
  · exact Json.Field.of_spares fun _ _ => rfl

theorem App.active_slot :
    App.layout.Slot "active" AppDraft.active (MayMean fun t b => t = .boolean b) := by
  refine .of (.tail _ (.head _)) (by decide) rfl
    (fun _ => Json.optional_sound Json.boolean_sound) (fun _ _ => rfl) ?_
  intro f hf hne
  simp only [App.layout, List.mem_cons, List.not_mem_nil, or_false] at hf
  rcases hf with rfl | rfl
  · exact Json.Field.of_spares fun _ _ => rfl
  · exact absurd rfl hne

/-- What an application says of its tree. -/
structure App.Means (t : Tree) (a : App) : Prop where
  service : a.isDaemon = true ↔ ServiceTree t
  active : a.active = some true ↔ ActiveTree t

theorem App.sound (room : Nat) : Sound (App.layout.read room) App.Means := by
  refine (Json.Layout.read_sound App.layout_spelled room).mono ?_
  rintro t a ⟨d, hd, hfinish⟩
  cases hfinish
  have hdaemon := App.daemon_slot.drafted hd
  have hactive := App.active_slot.drafted hd
  constructor
  · unfold App.isDaemon ServiceTree
    generalize t.field? App.layout.keys "daemon" = field at hdaemon
    generalize d.daemon = place at hdaemon
    cases hdaemon with
    | none => simp
    | some hm =>
      rename_i tree kind
      cases kind with
      | none =>
        have hnull : tree = .null := hm
        simp [hnull]
      | some s =>
        have hne : tree ≠ .null := by
          rintro rfl
          cases hm
        simp [hne]
  · unfold ActiveTree
    generalize t.field? App.layout.keys "active" = field at hactive
    generalize d.active = place at hactive
    cases hactive with
    | none => simp
    | some hm =>
      rename_i tree flag
      cases flag with
      | none =>
        have hnull : tree = .null := hm
        simp [hnull]
      | some b =>
        have hbool : tree = .boolean b := hm
        simp [hbool]

/-! ## 3. Entries -/

theorem Entry.layout_spelled : Entry.layout.Spelled := by
  intro f hf
  simp only [Entry.layout, List.mem_cons, List.not_mem_nil, or_false] at hf
  rcases hf with rfl | rfl | rfl | rfl
  · exact Json.Field.of_spelled fun _ => Json.text_sound _
  · exact Json.Field.of_spelled Json.value_sound
  · exact Json.Field.of_spelled fun _ => mayBeText_sound
  · exact Json.Field.of_spelled (Json.listOf_sound App.sound)

theorem Entry.name_slot : Entry.layout.Slot "name" EntryDraft.name fun t s => t.text? = some s := by
  refine .of (.head _) (by decide) rfl (fun _ => Json.text_sound _)
    (fun _ _ => rfl) ?_
  intro f hf hne
  simp only [Entry.layout, List.mem_cons, List.not_mem_nil, or_false] at hf
  rcases hf with rfl | rfl | rfl | rfl
  · exact absurd rfl hne
  · exact Json.Field.of_spares fun _ _ => rfl
  · exact Json.Field.of_spares fun _ _ => rfl
  · exact Json.Field.of_spares fun _ _ => rfl

theorem Entry.revision_slot : Entry.layout.Slot "revision" EntryDraft.revision Tree.MaySay := by
  refine .of (.tail _ (.head _)) (by decide) rfl Json.value_sound
    (fun _ _ => rfl) ?_
  intro f hf hne
  simp only [Entry.layout, List.mem_cons, List.not_mem_nil, or_false] at hf
  rcases hf with rfl | rfl | rfl | rfl
  · exact Json.Field.of_spares fun _ _ => rfl
  · exact absurd rfl hne
  · exact Json.Field.of_spares fun _ _ => rfl
  · exact Json.Field.of_spares fun _ _ => rfl

theorem Entry.apps_slot : Entry.layout.Slot "apps" EntryDraft.apps (ListMeans App.Means) := by
  refine .of (.tail _ (.tail _ (.tail _ (.head _)))) (by decide) rfl (Json.listOf_sound App.sound)
    (fun _ _ => rfl) ?_
  intro f hf hne
  simp only [Entry.layout, List.mem_cons, List.not_mem_nil, or_false] at hf
  rcases hf with rfl | rfl | rfl | rfl
  · exact Json.Field.of_spares fun _ _ => rfl
  · exact Json.Field.of_spares fun _ _ => rfl
  · exact Json.Field.of_spares fun _ _ => rfl
  · exact absurd rfl hne

/-- The applications of an entry, which has none if none are given. -/
def AppTrees (t : Tree) (ts : List Tree) : Prop :=
  t.field? Entry.layout.keys "apps" = some (.list ts) ∨
    t.field? Entry.layout.keys "apps" = none ∧ ts = []

/-- What an entry says of its tree. -/
structure Entry.Means (t : Tree) (e : Entry) : Prop where
  name : NamedTree e.name t
  revision : ∀ raw, e.revision = .text raw →
    ∃ r, t.field? Entry.layout.keys "revision" = some r ∧ r.text? = some raw
  apps : ∃ ts, AppTrees t ts ∧ List.Forall₂ App.Means ts e.apps

theorem Entry.sound (room : Nat) : Sound (Entry.layout.read room) Entry.Means := by
  refine (Json.Layout.read_sound Entry.layout_spelled room).mono ?_
  rintro t e ⟨d, hd, hfinish⟩
  have hname := Entry.name_slot.drafted hd
  have hrevision := Entry.revision_slot.drafted hd
  have happs := Entry.apps_slot.drafted hd
  obtain ⟨name, revision, version, apps⟩ := d
  cases name with
  | none => cases hfinish
  | some name =>
    cases hfinish
    refine ⟨?_, fun raw hraw => ?_, ?_⟩
    · unfold NamedTree
      generalize t.field? Entry.layout.keys "name" = field at hname
      cases hname with
      | some hm => exact ⟨_, rfl, hm⟩
    · generalize t.field? Entry.layout.keys "revision" = field at hrevision
      cases hrevision with
      | some hm => exact ⟨_, rfl, hm raw hraw⟩
      | none => cases hraw
    · unfold AppTrees
      generalize t.field? Entry.layout.keys "apps" = field at happs
      cases happs with
      | some hm =>
        obtain ⟨ts, rfl, hts⟩ := hm
        exact ⟨ts, .inl rfl, hts⟩
      | none => exact ⟨[], .inr ⟨rfl, rfl⟩, .nil⟩

/-! ## 4. Answers -/

theorem listing_spelled : listing.Spelled := by
  intro f hf
  simp only [listing, List.mem_cons, List.not_mem_nil, or_false] at hf
  subst hf
  exact Json.Field.of_spelled (Json.listOf_sound Entry.sound)

theorem listing_slot : listing.Slot "result" id (ListMeans Entry.Means) := by
  refine .of (.head _) (by decide) rfl (Json.listOf_sound Entry.sound)
    (fun _ _ => rfl) ?_
  intro f hf hne
  simp only [listing, List.mem_cons, List.not_mem_nil, or_false] at hf
  subst hf
  exact absurd rfl hne

/-- What the entries say of the tree of a good answer. -/
def ListingMeans (t : Tree) (es : List Entry) : Prop :=
  ∃ ts, t.field? listing.keys "result" = some (.list ts) ∧ List.Forall₂ Entry.Means ts es

theorem listing_sound (room : Nat) : Sound (listing.read room) ListingMeans := by
  refine (Json.Layout.read_sound listing_spelled room).mono ?_
  rintro t es ⟨d, hd, hfinish⟩
  have hresult := listing_slot.drafted hd
  unfold ListingMeans
  generalize t.field? listing.keys "result" = field at hresult
  cases d with
  | none => cases hfinish
  | some es' =>
    cases hfinish
    cases hresult with
    | some hm =>
      obtain ⟨ts, rfl, hts⟩ := hm
      exact ⟨ts, rfl, hts⟩

theorem Envelope.layout_spelled : Envelope.layout.Spelled := by
  intro f hf
  simp only [Envelope.layout, List.mem_cons, List.not_mem_nil, or_false] at hf
  rcases hf with rfl | rfl
  · exact Json.Field.of_spelled fun _ => mayBeText_sound
  · exact Json.Field.of_spelled fun _ => Json.optional_sound (Json.natural_sound _ _)

theorem Envelope.kind_slot :
    Envelope.layout.Slot "type" EnvelopeDraft.kind (MayMean fun t s => t.text? = some s) := by
  refine .of (.head _) (by decide) rfl (fun _ => mayBeText_sound) (fun _ _ => rfl) ?_
  intro f hf hne
  simp only [Envelope.layout, List.mem_cons, List.not_mem_nil, or_false] at hf
  rcases hf with rfl | rfl
  · exact absurd rfl hne
  · exact Json.Field.of_spares fun _ _ => rfl

/-- What an envelope says of the tree of an answer. -/
def Envelope.Means (t : Tree) (e : Envelope) : Prop :=
  ∀ kind, t.field? Envelope.layout.keys "type" = some kind →
    MayMean (fun t s => t.text? = some s) kind e.kind

theorem Envelope.sound (room : Nat) : Sound (Envelope.layout.read room) Envelope.Means := by
  refine (Json.Layout.read_sound Envelope.layout_spelled room).mono ?_
  rintro t e ⟨d, hd, hfinish⟩
  cases hfinish
  have hkind := Envelope.kind_slot.drafted hd
  intro kind hfield
  rw [hfield] at hkind
  generalize d.kind = place at hkind ⊢
  cases hkind with
  | some hm => exact hm

/-! ## 5. Replies -/

variable {name : String}

/-- A tree has one name. -/
theorem NamedTree.unique {t : Tree} {name' : String} (h : NamedTree name t)
    (h' : NamedTree name' t) : name = name' := by
  obtain ⟨n, hn, hs⟩ := h
  obtain ⟨n', hn', hs'⟩ := h'
  cases Option.some.inj (hn.symm.trans hn')
  exact Option.some.inj (hs.symm.trans hs')

/-- What has entries and is an answer is an object: of a list, the first item would have to be the
    result and the type. -/
theorem object_of_answer {t : Tree} {es : List Entry} {e : Envelope} (hl : ListingMeans t es)
    (he : Envelope.Means t e) : ∃ ms, t = .object ms := by
  obtain ⟨ts, hts, -⟩ := hl
  cases t with
  | object ms => exact ⟨ms, rfl⟩
  | list items =>
    have hkind := he (.list ts) hts
    cases hk : e.kind with
    | none =>
      rw [hk] at hkind
      cases hkind
    | some s =>
      rw [hk] at hkind
      cases hkind
  | null => cases hts
  | boolean b => cases hts
  | number n => cases hts
  | text raw => cases hts

/-- The first entry of a name is that of the first tree of the name. -/
theorem lists_of_find? {sent : Bytes} {r : Http.Response} {es : List Entry} {e : Entry}
    (hdec : Http.Response.decode sent = .ok r) (hes : entries r = .ok es)
    (hfind : es.find? (·.name == name) = some e) :
    ∃ entry, Lists name sent entry ∧ Entry.Means entry e := by
  obtain ⟨rest, hhead, hframe⟩ := Http.decode_eq_ok.1 hdec
  obtain ⟨hsuccess, ⟨envelope, henv, hgood⟩, hlist⟩ := entries_eq_ok.1 hes
  obtain ⟨t, blanks, ht, hblanks, hl⟩ := Json.document_sound (listing_sound _) hlist
  obtain ⟨t', blanks', ht', -, he⟩ := Json.document_sound (Envelope.sound _) henv
  obtain ⟨rfl, -⟩ := ht.value_unique ht'
  obtain ⟨members, rfl⟩ := object_of_answer hl he
  obtain ⟨ts, hts, hmeans⟩ := hl
  obtain ⟨hname, as, bs, rfl, hbefore⟩ := List.find?_eq_some_iff_append.1 hfind
  obtain ⟨front, entry, back, rfl, hentry, hfront, -⟩ := Json.exists_split_of_forall₂ hmeans
  have hnamed : NamedTree name entry := beq_iff_eq.1 hname ▸ hentry.name
  refine ⟨entry, .intro r.status r.headers rest r.body blanks members front back hhead ?_ hframe
    ht hblanks (fun kind hkind herror => ?_) hts hnamed fun other hother hn => ?_, hentry⟩
  · simpa [Http.Response.succeeded, Http.isSuccess] using hsuccess
  · have hk := he kind hkind
    cases hek : envelope.kind with
    | none =>
      rw [hek] at hk
      cases (show kind = .null from hk)
      cases herror
    | some s =>
      rw [hek] at hk
      cases herror.symm.trans hk
      rw [Envelope.isError, hek] at hgood
      cases hgood
  · obtain ⟨e', he', hmeans'⟩ := hfront other hother
    have hne := hbefore e' he'
    rw [hn.unique hmeans'.name, beq_self_eq_true] at hne
    cases hne

theorem Entry.Means.revisionTree {t : Tree} {e : Entry} {r : Revision} (h : Entry.Means t e)
    (hr : e.readRevision = .ok r) : RevisionTree r.number t := by
  unfold Entry.readRevision at hr
  split at hr
  · rename_i raw hraw
    split at hr
    · rename_i r' hparse
      cases hr
      obtain ⟨tree, hfield, htext⟩ := h.revision raw hraw
      obtain ⟨marker, digits, hchars, hdigits⟩ := Revision.parse?_eq_some_iff.1 hparse
      refine ⟨tree, marker, digits, hfield, ?_, hdigits⟩
      rw [htext, ← hchars, String.ofList_toList]
    · cases hr
  · cases hr

theorem Entry.Means.runningTree {t : Tree} {e : Entry} (h : Entry.Means t e)
    (hs : e.service = .ok (.service true)) : RunningTree t := by
  unfold Entry.service at hs
  split at hs
  · cases hs
  · rename_i app happ
    obtain ⟨as, bs, heq, has, happ', hbs⟩ := List.filter_eq_cons_iff.1 happ
    have hactive : app.active = some true := by
      cases ha : app.active with
      | none =>
        rw [ha] at hs
        cases hs
      | some b =>
        rw [ha] at hs
        cases hs
        rfl
    obtain ⟨ts, hfield | ⟨-, rfl⟩, hts⟩ := h.apps
    · rw [heq] at hts
      obtain ⟨front, tree, back, rfl, hmeans, hfront, hback⟩ := Json.exists_split_of_forall₂ hts
      refine ⟨front, tree, back, hfield, hmeans.service.1 happ', hmeans.active.1 hactive, ?_⟩
      intro other hother hservice
      rcases List.mem_append.1 hother with hin | hin
      · obtain ⟨a, ha, hmeans'⟩ := hfront other hin
        exact has a ha (hmeans'.service.2 hservice)
      · obtain ⟨a, ha, hmeans'⟩ := hback other hin
        exact List.filter_eq_nil_iff.1 hbs a ha (hmeans'.service.2 hservice)
    · rw [heq] at hts
      have hlen := hts.length_eq
      simp at hlen
  · cases hs

/-- **A package that is found is backed by the reply**: by the first entry of its name. -/
theorem query_found {s : Socket} {endpoint : Endpoint} {reply : Http.Reply} {p : Package}
    (h : query name (s.get endpoint reply) = .ok (some p)) :
    ∃ sent entry, reply = .closes sent ∧ Lists name sent entry ∧
      RevisionTree p.revision.number entry ∧ (p.isRunning = true → RunningTree entry) := by
  rw [query_eq] at h
  obtain ⟨es, hes, hfind⟩ := bind_eq_ok h
  obtain ⟨r, hget, hes⟩ := bind_eq_ok hes
  obtain ⟨-, sent, hreceive, hdec⟩ := get_eq_ok hget
  unfold find? at hfind
  split at hfind
  · cases hfind
  · rename_i e he
    obtain ⟨p', hpackage, hp⟩ := map_eq_ok hfind
    cases hp
    obtain ⟨entry, hlists, hmeans⟩ := lists_of_find? hdec hes he
    obtain ⟨revision, hrevision, hpackage⟩ := bind_eq_ok hpackage
    obtain ⟨service, hservice, hpackage⟩ := bind_eq_ok hpackage
    cases hpackage
    refine ⟨sent, entry, closes_of_receive hreceive, hlists, hmeans.revisionTree hrevision, ?_⟩
    intro hrunning
    refine hmeans.runningTree (hservice.trans (congrArg _ ?_))
    unfold Package.isRunning at hrunning
    split at hrunning
    · assumption
    · cases hrunning

end RevisionWatch.Daemon
