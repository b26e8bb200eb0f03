import RevisionWatch.Proofs.Daemon.Listed
import RevisionWatch.Proofs.Json.Varying
/-!
# What is ignored in an answer

The daemon says more than is read: the members of other keys are passed over, whatever they hold,
and the order of all members is that of the sender. An answer varies (`AnswerVaries`) if members
come in or change their places in the answer itself, in its entries (`EntryVaries`) or in their
applications (`AppVaries`). What is listed of it does not vary (`answers_of_varied`).

From the applications to the whole answer the argument is the same each time: the layout is orderly,
so it is read alike when the parts that it is made of are.
-/

namespace RevisionWatch.Daemon

open Json (Tree Spells IsText MembersVary ThingVaries ListVaries Respects Steady)

/-! ## 1. Applications -/

theorem mayBeText_steady : Steady (Json.optional Json.text) :=
  Json.optional_steady (Json.text_steady _)

theorem App.layout_orderly : App.layout.Orderly where
  steady := by
    intro f hf
    simp only [App.layout, List.mem_cons, List.not_mem_nil, or_false] at hf
    rcases hf with rfl | rfl
    · exact Json.Field.of_steady (fun _ => mayBeText_steady) fun _ _ => rfl
    · exact Json.Field.of_steady (fun _ => Json.optional_steady Json.boolean_steady) fun _ _ => rfl
  apart := by
    refine List.pairwise_pair.2 ?_
    exact Json.Field.of_apart (fun _ => mayBeText_steady)
      (fun _ => Json.optional_steady Json.boolean_steady) (fun _ _ => rfl) (fun _ _ => rfl)
      fun _ _ _ => rfl

/-- Two applications that are told apart by members of other keys only, and by the order. -/
def AppVaries : Tree → Tree → Prop :=
  ThingVaries App.layout.keys fun _ => Eq

theorem App.read_respects : Respects App.layout.read AppVaries := by
  refine Json.Layout.read_respects App.layout_orderly fun f hf => ?_
  simp only [App.layout, List.mem_cons, List.not_mem_nil, or_false] at hf
  rcases hf with rfl | rfl
  · exact Json.Field.of_respects (fun _ => mayBeText_steady) (Json.respects_eq _)
  · exact Json.Field.of_respects (fun _ => Json.optional_steady Json.boolean_steady)
      (Json.respects_eq _)

/-! ## 2. Entries -/

theorem apps_steady (room : Nat) : Steady (Json.listOf App.layout.read room) :=
  Json.listOf_steady (Json.Layout.read_steady App.layout_orderly) room

theorem Entry.layout_orderly : Entry.layout.Orderly where
  steady := by
    intro f hf
    simp only [Entry.layout, List.mem_cons, List.not_mem_nil, or_false] at hf
    rcases hf with rfl | rfl | rfl | rfl
    · exact Json.Field.of_steady (fun _ => Json.text_steady _) fun _ _ => rfl
    · exact Json.Field.of_steady Json.value_steady fun _ _ => rfl
    · exact Json.Field.of_steady (fun _ => mayBeText_steady) fun _ _ => rfl
    · exact Json.Field.of_steady apps_steady fun _ _ => rfl
  apart := by
    -- each field writes to a place of its own, so the three equations hold by computation
    refine .cons (fun g hg => ?_) (.cons (fun g hg => ?_) (List.pairwise_pair.2 ?_))
    · simp only [List.mem_cons, List.not_mem_nil, or_false] at hg
      rcases hg with rfl | rfl | rfl
      · exact Json.Field.of_apart (fun _ => Json.text_steady _) Json.value_steady (fun _ _ => rfl)
          (fun _ _ => rfl) fun _ _ _ => rfl
      · exact Json.Field.of_apart (fun _ => Json.text_steady _) (fun _ => mayBeText_steady)
          (fun _ _ => rfl) (fun _ _ => rfl) fun _ _ _ => rfl
      · exact Json.Field.of_apart (fun _ => Json.text_steady _) apps_steady (fun _ _ => rfl)
          (fun _ _ => rfl) fun _ _ _ => rfl
    · simp only [List.mem_cons, List.not_mem_nil, or_false] at hg
      rcases hg with rfl | rfl
      · exact Json.Field.of_apart Json.value_steady (fun _ => mayBeText_steady) (fun _ _ => rfl)
          (fun _ _ => rfl) fun _ _ _ => rfl
      · exact Json.Field.of_apart Json.value_steady apps_steady (fun _ _ => rfl)
          (fun _ _ => rfl) fun _ _ _ => rfl
    · exact Json.Field.of_apart (fun _ => mayBeText_steady) apps_steady (fun _ _ => rfl)
        (fun _ _ => rfl) fun _ _ _ => rfl

/-- Two entries that are told apart by members of other keys only, and by the order, in their
    applications as well. -/
def EntryVaries : Tree → Tree → Prop :=
  ThingVaries Entry.layout.keys fun key => if key = "apps" then ListVaries AppVaries else Eq

theorem Entry.read_respects : Respects Entry.layout.read EntryVaries := by
  refine Json.Layout.read_respects Entry.layout_orderly fun f hf => ?_
  simp only [Entry.layout, List.mem_cons, List.not_mem_nil, or_false] at hf
  rcases hf with rfl | rfl | rfl | rfl
  · exact Json.Field.of_respects (fun _ => Json.text_steady _) (Json.respects_eq _)
  · exact Json.Field.of_respects Json.value_steady (Json.respects_eq _)
  · exact Json.Field.of_respects (fun _ => mayBeText_steady) (Json.respects_eq _)
  · refine Json.Field.of_respects apps_steady ?_
    exact Json.listOf_respects (Json.Layout.read_steady App.layout_orderly) App.read_respects

/-! ## 3. Answers -/

theorem statusCode_steady :
    Steady (Json.optional (Json.natural Decimal.word16 "u16")) :=
  Json.optional_steady (Json.natural_steady _ _)

theorem Envelope.layout_orderly : Envelope.layout.Orderly where
  steady := by
    intro f hf
    simp only [Envelope.layout, List.mem_cons, List.not_mem_nil, or_false] at hf
    rcases hf with rfl | rfl
    · exact Json.Field.of_steady (fun _ => mayBeText_steady) fun _ _ => rfl
    · exact Json.Field.of_steady (fun _ => statusCode_steady) fun _ _ => rfl
  apart := by
    refine List.pairwise_pair.2 ?_
    exact Json.Field.of_apart (fun _ => mayBeText_steady) (fun _ => statusCode_steady)
      (fun _ _ => rfl) (fun _ _ => rfl) fun _ _ _ => rfl

theorem entries_steady (room : Nat) : Steady (Json.listOf Entry.layout.read room) :=
  Json.listOf_steady (Json.Layout.read_steady Entry.layout_orderly) room

theorem listing_orderly : listing.Orderly where
  steady := by
    intro f hf
    simp only [listing, List.mem_cons, List.not_mem_nil, or_false] at hf
    subst hf
    exact Json.Field.of_steady entries_steady fun _ _ => rfl
  apart := List.pairwise_singleton _ _

/-- The members of two answers with one envelope: members of other keys come in or hold something
    else, and all may change their places. -/
def EnvelopeVaries : List (Bytes × Tree) → List (Bytes × Tree) → Prop :=
  MembersVary Envelope.layout.keys fun key t t' => key ∈ Envelope.layout.keys → t = t'

/-- The members of two answers that are told apart by members of other keys only, and by the order,
    in the entries and their applications as well. -/
def AnswerVaries : List (Bytes × Tree) → List (Bytes × Tree) → Prop :=
  MembersVary (Envelope.layout.keys ++ listing.keys) fun key =>
    if key = "result" then ListVaries EntryVaries else Eq

variable {ms ms' : List (Bytes × Tree)} {room : Nat}

theorem AnswerVaries.envelope (h : AnswerVaries ms ms') : EnvelopeVaries ms ms' := by
  refine h.mono (fun _ hkey => List.mem_append_left _ hkey) fun key t t' hV hkey => ?_
  have hne : key ≠ "result" := by
    rintro rfl
    exact absurd hkey (by decide)
  rwa [if_neg hne] at hV

/-- The envelope of a tree is read alike. -/
theorem Envelope.read_varied {e : Envelope} (hspelled : (Tree.object ms).Spelled)
    (hspelled' : (Tree.object ms').Spelled) (hvaries : EnvelopeVaries ms ms')
    (h : Json.Takes (Envelope.layout.read room) (.object ms) e) :
    Json.Takes (Envelope.layout.read room) (.object ms') e := by
  refine Json.Layout.object_respects Envelope.layout_orderly (fun f hf => ?_) hspelled hspelled'
    hvaries h
  have hkey : f.key ∈ Envelope.layout.keys := List.mem_map_of_mem hf
  intro room t t' d d' _ _ hV htakes
  rwa [← hV hkey]

theorem Envelope.ofJson_eq_ok {bs : Bytes} {t : Tree} {e : Envelope} (ht : IsText bs t) :
    Envelope.ofJson bs = .ok e ↔ Json.Takes (Envelope.layout.read Json.depthLimit) t e :=
  ht.document_eq_ok (Json.Layout.read_steady Envelope.layout_orderly Json.depthLimit)

theorem listingOfJson_eq_ok {bs : Bytes} {t : Tree} {es : List Entry} (ht : IsText bs t) :
    listingOfJson bs = .ok es ↔ Json.Takes (listing.read Json.depthLimit) t es :=
  ht.document_eq_ok (Json.Layout.read_steady listing_orderly Json.depthLimit)

/-- **An envelope is read alike whatever else the answer holds**, in any order. -/
theorem Envelope.ofJson_varied {bs bs' : Bytes} {e : Envelope} (h : Envelope.ofJson bs = .ok e)
    (ht : IsText bs (.object ms)) (ht' : IsText bs' (.object ms'))
    (hvaries : EnvelopeVaries ms ms') : Envelope.ofJson bs' = .ok e := by
  have he := (Envelope.ofJson_eq_ok ht).1 h
  exact (Envelope.ofJson_eq_ok ht').2 (Envelope.read_varied ht.spelled ht'.spelled hvaries he)

/-- The entries are read alike when an answer varies. -/
theorem listing_varied {es : List Entry} (hspelled : (Tree.object ms).Spelled)
    (hspelled' : (Tree.object ms').Spelled) (hvaries : AnswerVaries ms ms')
    (h : Json.Takes (listing.read room) (.object ms) es) :
    Json.Takes (listing.read room) (.object ms') es := by
  have hmembers := hvaries.mono (fun _ hkey => List.mem_append_right Envelope.layout.keys hkey)
    fun _ _ _ hV => hV
  refine Json.Layout.object_respects listing_orderly (fun f hf => ?_) hspelled hspelled' hmembers h
  simp only [listing, List.mem_cons, List.not_mem_nil, or_false] at hf
  subst hf
  refine Json.Field.of_respects entries_steady ?_
  exact Json.listOf_respects (Json.Layout.read_steady Entry.layout_orderly) Entry.read_respects

/-- The body of a response with entries is an object. -/
theorem object_of_entries {r : Http.Response} {es : List Entry} (h : entries r = .ok es) :
    ∃ ms, IsText r.body (.object ms) := by
  obtain ⟨-, ⟨envelope, henvelope, -⟩, hlisting⟩ := entries_eq_ok.1 h
  obtain ⟨t, rest, ht, hrest, hl⟩ := Json.document_sound (listing_sound _) hlisting
  obtain ⟨t', rest', ht', -, he⟩ := Json.document_sound (Envelope.sound _) henvelope
  obtain ⟨rfl, -⟩ := ht.value_unique ht'
  obtain ⟨ms, rfl⟩ := object_of_answer hl he
  exact ⟨ms, rest, ht, hrest⟩

/-- **The entries of an answer that varies are the same.** -/
theorem entries_varied {r r' : Http.Response} {es : List Entry} (h : entries r = .ok es)
    (hsuccess : r'.succeeded = true) (htext : IsText r.body (.object ms))
    (htext' : IsText r'.body (.object ms')) (hvaries : AnswerVaries ms ms') :
    entries r' = .ok es := by
  obtain ⟨-, ⟨envelope, henvelope, hgood⟩, hlisting⟩ := entries_eq_ok.1 h
  have henvelope' := Envelope.ofJson_varied henvelope htext htext' hvaries.envelope
  have hl := (listingOfJson_eq_ok htext).1 hlisting
  have hl' := listing_varied htext.spelled htext'.spelled hvaries hl
  exact entries_eq_ok.2 ⟨hsuccess, ⟨envelope, henvelope', hgood⟩,
    (listingOfJson_eq_ok htext').2 hl'⟩

/-! ## 4. Both questions -/

/-- **What else the daemon says is ignored.** A reply of which packages are listed has an object as
    its body, and of every other reply whose body is an object that varies from this one (members of
    keys that are not read come in at any place, in the answer, its entries and their applications,
    and members change their places) the same packages are listed and the same is answered about
    every name. -/
theorem answers_of_varied {s : Socket} {endpoint : Endpoint} {sent : Bytes} {ps : List Package}
    (h : list (s.get endpoint (.closes sent)) = .ok ps) :
    ∃ r ms, Http.Response.decode sent = .ok r ∧ IsText r.body (.object ms) ∧
      ∀ sent' r' ms', sent'.length ≤ s.limit → Http.Response.decode sent' = .ok r' →
        r'.succeeded = true → IsText r'.body (.object ms') → AnswerVaries ms ms' →
          list (s.get endpoint (.closes sent')) = .ok ps ∧
          ∀ name, query name (s.get endpoint (.closes sent')) =
            query name (s.get endpoint (.closes sent)) := by
  rw [list_eq] at h
  obtain ⟨es, hes, hps⟩ := bind_eq_ok h
  obtain ⟨r, hget, hentries⟩ := bind_eq_ok hes
  obtain ⟨ms, htext⟩ := object_of_entries hentries
  refine ⟨r, ms, decode_of_get hget, htext, ?_⟩
  intro sent' r' ms' hlen hdecode' hsuccess htext' hvaries
  have hget' := get_of_decode hget hlen hdecode'
  have hentries' := entries_varied hentries hsuccess htext htext' hvaries
  refine ⟨?_, fun name => ?_⟩
  · rw [list_eq, hget', ok_bind, hentries']
    exact hps
  · rw [query_eq, query_eq, hget, hget', ok_bind, ok_bind, hentries, hentries']

/-- The members of an answer that lists one entry of the members given. -/
private def listingOf (members : List (Bytes × Tree)) : Bytes × Tree :=
  (Bytes.ofText "result", .list [.object members])

private def nameMember : Bytes × Tree :=
  (Bytes.ofText "name", .text (Bytes.ofText "a"))

private def revisionMember : Bytes × Tree :=
  (Bytes.ofText "revision", .text (Bytes.ofText "x7"))

/-- A member of the entry that is not read: a number that no double reaches. -/
private def sizeMember : Bytes × Tree :=
  (Bytes.ofText "size", .number ⟨false, [1], none, some (false, [9, 9, 9])⟩)

/-- A member of the answer that is not read. -/
private def sourcesMember : Bytes × Tree :=
  (Bytes.ofText "sources", .list [.object []])

private def shortBody : Bytes :=
  Bytes.ofText "\x7b\"result\":[\x7b\"name\":\"a\",\"revision\":\"x7\"\x7d]\x7d"

/-- What stands behind the first member of the longer body. -/
private def longResult : Bytes :=
  Bytes.ofText ",\"result\":[\x7b\"revision\":\"x7\",\"size\":1e999,\"name\":\"a\"\x7d]\x7d"

private def longBody : Bytes :=
  Bytes.ofText "\x7b\"sources\":[\x7b\x7d]" ++ longResult

private theorem shortBody_isText :
    IsText shortBody (.object [listingOf [nameMember, revisionMember]]) := by
  have hx7 : Spells (Bytes.ofText "\"x7\"\x7d]\x7d") (.value revisionMember.2)
      (Bytes.ofText "\x7d]\x7d") :=
    .text rfl rfl (Json.textBody_of_plain rfl)
  have hrevision : Spells (Bytes.ofText ",\"revision\":\"x7\"\x7d]\x7d")
      (.members false [revisionMember]) (Bytes.ofText "]\x7d") :=
    .member (.parted _ _ rfl rfl) (Json.textBody_of_plain rfl) rfl hx7 (.endMembers rfl)
  have ha : Spells (Bytes.ofText "\"a\",\"revision\":\"x7\"\x7d]\x7d") (.value nameMember.2)
      (Bytes.ofText ",\"revision\":\"x7\"\x7d]\x7d") :=
    .text rfl rfl (Json.textBody_of_plain rfl)
  have hentry : Spells (Bytes.ofText "\x7b\"name\":\"a\",\"revision\":\"x7\"\x7d]\x7d")
      (.value (.object [nameMember, revisionMember])) (Bytes.ofText "]\x7d") :=
    .object rfl rfl
      (.member (.opening _ rfl) (Json.textBody_of_plain rfl) rfl ha hrevision)
  have hlist : Spells (Bytes.ofText "[\x7b\"name\":\"a\",\"revision\":\"x7\"\x7d]\x7d")
      (.value (listingOf [nameMember, revisionMember]).2) (Bytes.ofText "\x7d") :=
    .list rfl rfl (.item (.opening _ _ rfl (by decide)) hentry (.endItems rfl))
  exact ⟨[], .object rfl rfl (.member (.opening _ rfl) (Json.textBody_of_plain rfl) rfl
    hlist (.endMembers rfl)), rfl⟩

private theorem longBody_isText : IsText longBody
    (.object [sourcesMember, listingOf [revisionMember, sizeMember, nameMember]]) := by
  have ha : Spells (Bytes.ofText "\"a\"\x7d]\x7d") (.value nameMember.2)
      (Bytes.ofText "\x7d]\x7d") :=
    .text rfl rfl (Json.textBody_of_plain rfl)
  have hname : Spells (Bytes.ofText ",\"name\":\"a\"\x7d]\x7d") (.members false [nameMember])
      (Bytes.ofText "]\x7d") :=
    .member (.parted _ _ rfl rfl) (Json.textBody_of_plain rfl) rfl ha (.endMembers rfl)
  have h1e999 : Spells (Bytes.ofText "1e999,\"name\":\"a\"\x7d]\x7d") (.value sizeMember.2)
      (Bytes.ofText ",\"name\":\"a\"\x7d]\x7d") :=
    .digit rfl rfl rfl
  have hsize : Spells (Bytes.ofText ",\"size\":1e999,\"name\":\"a\"\x7d]\x7d")
      (.members false [sizeMember, nameMember]) (Bytes.ofText "]\x7d") :=
    .member (.parted _ _ rfl rfl) (Json.textBody_of_plain rfl) rfl h1e999 hname
  have hx7 : Spells (Bytes.ofText "\"x7\",\"size\":1e999,\"name\":\"a\"\x7d]\x7d")
      (.value revisionMember.2) (Bytes.ofText ",\"size\":1e999,\"name\":\"a\"\x7d]\x7d") :=
    .text rfl rfl (Json.textBody_of_plain rfl)
  have hentry : Spells
      (Bytes.ofText "\x7b\"revision\":\"x7\",\"size\":1e999,\"name\":\"a\"\x7d]\x7d")
      (.value (.object [revisionMember, sizeMember, nameMember])) (Bytes.ofText "]\x7d") :=
    .object rfl rfl (.member (.opening _ rfl) (Json.textBody_of_plain rfl) rfl hx7 hsize)
  have hlist : Spells
      (Bytes.ofText "[\x7b\"revision\":\"x7\",\"size\":1e999,\"name\":\"a\"\x7d]\x7d")
      (.value (listingOf [revisionMember, sizeMember, nameMember]).2) (Bytes.ofText "\x7d") :=
    .list rfl rfl (.item (.opening _ _ rfl (by decide)) hentry (.endItems rfl))
  have hresult : Spells longResult
      (.members false [listingOf [revisionMember, sizeMember, nameMember]]) [] :=
    .member (.parted _ _ rfl rfl) (Json.textBody_of_plain rfl) rfl hlist (.endMembers rfl)
  have hsources : Spells (Bytes.ofText "[\x7b\x7d]" ++ longResult) (.value sourcesMember.2)
      longResult :=
    .list rfl rfl (.item (.opening _ _ rfl (by decide)) (.object rfl rfl (.endMembers rfl))
      (.endItems rfl))
  exact ⟨[], .object rfl rfl (.member (.opening _ rfl) (Json.textBody_of_plain rfl) rfl
    hsources hresult), rfl⟩

/-- The reply that carries a body to the end of the connection. -/
private def carrying (body : Bytes) : Bytes :=
  Bytes.ofText "HTTP/1.0 200 OK\r\n\r\n" ++ body

private def listingSocket : Socket :=
  ⟨"/run/daemon.socket", "daemon", 1000, 200⟩

private def packageA : Package :=
  ⟨"a", ⟨7, Nat.le_of_ble_eq_true rfl⟩, none, .notService⟩

/-- An entry whose members change their places, with a number among them that no double reaches. -/
theorem longer_answer_lists_alike :
    list (listingSocket.get .listening (.closes (carrying shortBody))) = .ok [packageA] ∧
    list (listingSocket.get .listening (.closes (carrying longBody))) = .ok [packageA] ∧
    query "a" (listingSocket.get .listening (.closes (carrying longBody))) =
      query "a" (listingSocket.get .listening (.closes (carrying shortBody))) := by
  have hrecords : (listingSocket.get .listening (.closes (carrying shortBody)) >>=
      entries).toOption.map records = some [packageA] := by decide +kernel
  obtain ⟨es, hes, hpackage⟩ := Option.map_eq_some_iff.1 hrecords
  have hlist : list (listingSocket.get .listening (.closes (carrying shortBody))) =
      .ok [packageA] := by
    rw [list_eq, ok_of_toOption hes, ok_bind, packages, hpackage, List.mergeSort_singleton]
  obtain ⟨r, ms, hdecode, htext, hvaries⟩ := answers_of_varied hlist
  have hr : r = ⟨200, [], shortBody⟩ := by
    have hshort : Http.Response.decode (carrying shortBody) = .ok ⟨200, [], shortBody⟩ := by
      decide +kernel
    exact Except.ok.inj (hdecode.symm.trans hshort)
  subst hr
  cases htext.unique shortBody_isText
  have hentry : EntryVaries (.object [nameMember, revisionMember])
      (.object [revisionMember, sizeMember, nameMember]) := by
    have hname : Json.rawText? (Bytes.ofText "name") = some "name" := by decide +kernel
    have hrevision : Json.rawText? (Bytes.ofText "revision") = some "revision" := by decide +kernel
    have hsize : Json.Layout.Foreign Entry.layout.keys sizeMember :=
      ⟨"size", by decide +kernel, by decide⟩
    have horder : ([sizeMember, nameMember] ++ [revisionMember]).Perm
        [revisionMember, sizeMember, nameMember] := List.perm_middle
    refine .object (.intro (.cons (Json.memberVaries_of_key hname rfl) ?_)
      (List.forall_mem_singleton.2 hsize) horder)
    exact .cons (Json.memberVaries_of_key hrevision rfl) .nil
  have hanswer : AnswerVaries [listingOf [nameMember, revisionMember]]
      [sourcesMember, listingOf [revisionMember, sizeMember, nameMember]] := by
    have hresult : Json.rawText? (Bytes.ofText "result") = some "result" := by decide +kernel
    have hsources : Json.Layout.Foreign (Envelope.layout.keys ++ listing.keys) sourcesMember :=
      ⟨"sources", by decide +kernel, by decide⟩
    exact .intro (.cons (Json.memberVaries_of_key hresult (.intro (.cons hentry .nil))) .nil)
      (List.forall_mem_singleton.2 hsources) (.refl _)
  have hlong : Http.Response.decode (carrying longBody) = .ok ⟨200, [], longBody⟩ := by
    decide +kernel
  obtain ⟨hlist', hquery⟩ := hvaries _ _ _ (by decide) hlong rfl longBody_isText hanswer
  exact ⟨hlist, hlist', hquery "a"⟩

end RevisionWatch.Daemon
