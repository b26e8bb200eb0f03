import RevisionWatch.Proofs.Daemon.Agreement
import RevisionWatch.Proofs.Daemon.CutOff
import RevisionWatch.Proofs.Daemon.Ignored
/-!
# When a package is not installed

One kind of reply says that a package is not installed: a good answer that does not list it
(`Unlisted`). Every other reply gives a package or an error (`query_absent`), and which error a
response gives is said by `Refused`: a status outside of the two hundreds is given back as it is; an
answer that calls itself an error has a status of its own, or that of the response, whatever else it
holds; and what is neither this nor an object with a list of entries cannot be read.

What an envelope says is said of its tree (`kindOf`, `codeOf`), which the members of other keys and
the order do not change (`Envelope.ofJson_varied`).
-/

namespace RevisionWatch.Daemon

open Json (Tree IsText MayMean Sound)

/-! ## 1. Envelopes -/

/-- What the tree of an answer calls itself. -/
def kindOf (t : Tree) : Option String :=
  (t.field? Envelope.layout.keys "type").bind Tree.text?

/-- The status that the tree of an answer gives. -/
def codeOf (t : Tree) : Option Nat :=
  (t.field? Envelope.layout.keys "status-code").bind Tree.natural?

theorem Envelope.code_slot : Envelope.layout.Slot "status-code" EnvelopeDraft.statusCode
    (MayMean fun t n => t.natural? = some n) := by
  refine .of (.tail _ (.head _)) (by decide) rfl
    (fun _ => Json.optional_sound (Json.natural_sound _ _)) (fun _ _ => rfl) ?_
  intro f hf hne
  simp only [Envelope.layout, List.mem_cons, List.not_mem_nil, or_false] at hf
  rcases hf with rfl | rfl
  · exact Json.Field.of_spares fun _ _ => rfl
  · exact absurd rfl hne

/-- A place of a draft that may be null has what the field means. -/
theorem getD_of_mayMean {α : Type} {means : Tree → Option α} (hnull : means .null = none)
    {field : Option Tree} {place : Option (Option α)}
    (h : Option.Rel (MayMean fun t a => means t = some a) field place) :
    place.getD none = field.bind means := by
  cases h with
  | none => rfl
  | @some t a? hm =>
    cases a? with
    | none =>
      have ht : t = .null := hm
      rw [ht]
      exact hnull.symm
    | some a => exact (show means t = some a from hm).symm

theorem Envelope.sound_tree (room : Nat) :
    Sound (Envelope.layout.read room) fun t e => e.kind = kindOf t ∧ e.statusCode = codeOf t := by
  refine (Json.Layout.read_sound Envelope.layout_spelled room).mono ?_
  rintro t e ⟨d, hd, hfinish⟩
  cases hfinish
  exact ⟨getD_of_mayMean rfl (Envelope.kind_slot.drafted hd),
    getD_of_mayMean rfl (Envelope.code_slot.drafted hd)⟩

/-- **What an envelope says is what its tree says.** -/
theorem Envelope.eq_of_text {bs : Bytes} {t : Tree} {e : Envelope} (h : Envelope.ofJson bs = .ok e)
    (ht : IsText bs t) : e = ⟨kindOf t, codeOf t⟩ := by
  obtain ⟨t', rest, hs, hrest, hkind, hcode⟩ := Json.document_sound (Envelope.sound_tree _) h
  obtain rfl := ht.unique ⟨rest, hs, hrest⟩
  cases e
  cases hkind
  cases hcode
  rfl

/-! ## 2. Good answers -/

/-- **A response is a good answer in which a name is not listed**: a success, in the body an object
    that does not call itself an error, and as its result a list of entries, none of the name. -/
inductive Unlisted (name : String) (r : Http.Response) : Prop where
  | intro (ms : List (Bytes × Tree)) (ts : List Tree) (success : 200 ≤ r.status ∧ r.status < 300)
      (text : IsText r.body (.object ms)) (envelope : ∃ e, Envelope.ofJson r.body = .ok e)
      (good : kindOf (.object ms) ≠ some "error") (entries : ∃ es, listingOfJson r.body = .ok es)
      (result : (Tree.object ms).field? listing.keys "result" = some (.list ts))
      (unnamed : ∀ t ∈ ts, ¬ NamedTree name t)

/-- What the entries are called, their trees are. -/
theorem named_iff {ts : List Tree} {es : List Entry} {name : String}
    (h : List.Forall₂ Entry.Means ts es) :
    (∀ t ∈ ts, ¬ NamedTree name t) ↔ ∀ e ∈ es, e.name ≠ name := by
  induction h with
  | nil => simp
  | @cons t e ts es hmeans _ ih =>
    have hhead : NamedTree name t ↔ e.name = name :=
      ⟨fun hn => hmeans.name.unique hn, fun heq => heq ▸ hmeans.name⟩
    rw [List.forall_mem_cons, List.forall_mem_cons, ih, hhead]

theorem succeeded_iff {r : Http.Response} :
    r.succeeded = true ↔ 200 ≤ r.status ∧ r.status < 300 := by
  simp [Http.Response.succeeded, Http.isSuccess]

theorem Envelope.isError_iff {e : Envelope} : e.isError = true ↔ e.kind = some "error" := by
  simp [Envelope.isError]

/-- A good answer does not list a name if it has entries and none of them is of the name. -/
theorem unlisted_iff {r : Http.Response} {name : String} :
    Unlisted name r ↔ ∃ es, entries r = .ok es ∧ ∀ e ∈ es, e.name ≠ name := by
  constructor
  · rintro ⟨ms, ts, hsuccess, htext, ⟨envelope, henvelope⟩, hgood, ⟨es, hlisting⟩, hresult,
      hunnamed⟩
    have herror : envelope.isError = false := by
      rw [Envelope.eq_of_text henvelope htext]
      exact Bool.eq_false_iff.2 (mt Envelope.isError_iff.1 hgood)
    obtain ⟨t, rest, hs, hrest, ts', hresult', hmeans⟩ :=
      Json.document_sound (listing_sound _) hlisting
    obtain rfl := htext.unique ⟨rest, hs, hrest⟩
    obtain rfl : ts = ts' := by
      cases hresult.symm.trans hresult'
      rfl
    exact ⟨es, entries_eq_ok.2 ⟨succeeded_iff.2 hsuccess, ⟨envelope, henvelope, herror⟩, hlisting⟩,
      (named_iff hmeans).1 hunnamed⟩
  · rintro ⟨es, hentries, hunnamed⟩
    obtain ⟨ms, htext⟩ := object_of_entries hentries
    obtain ⟨hsuccess, ⟨envelope, henvelope, herror⟩, hlisting⟩ := entries_eq_ok.1 hentries
    obtain ⟨t, rest, hs, hrest, ts, hresult, hmeans⟩ :=
      Json.document_sound (listing_sound _) hlisting
    obtain rfl := htext.unique ⟨rest, hs, hrest⟩
    refine .intro ms ts (succeeded_iff.1 hsuccess) htext ⟨envelope, henvelope⟩ (fun hkind => ?_)
      ⟨es, hlisting⟩ hresult ((named_iff hmeans).2 hunnamed)
    rw [Envelope.eq_of_text henvelope htext] at herror
    exact Bool.eq_false_iff.1 herror (Envelope.isError_iff.2 hkind)

/-! ## 3. Refusals -/

/-- **What is answered to a response that is refused or cannot be read.** -/
structure Refused (r : Http.Response) (found : Except Error (Option Package)) : Prop where
  /-- Any body with a status outside of the two hundreds, be it a list of entries. -/
  status : ¬ (200 ≤ r.status ∧ r.status < 300) →
    ∃ message, found = .error (.rejected r.status message)
  /-- An answer that calls itself an error. -/
  answer : 200 ≤ r.status ∧ r.status < 300 → ∀ t e, IsText r.body t →
    Envelope.ofJson r.body = .ok e → kindOf t = some "error" →
      ∃ message, found = .error (.rejected ((codeOf t).getD r.status) message)
  /-- One that differs from such an answer in its order and in what else it holds. -/
  varied : 200 ≤ r.status ∧ r.status < 300 → ∀ body ms ms' e, IsText body (.object ms) →
    Envelope.ofJson body = .ok e → kindOf (.object ms) = some "error" →
      IsText r.body (.object ms') → EnvelopeVaries ms ms' →
        ∃ message, found = .error (.rejected ((codeOf (.object ms)).getD r.status) message)
  /-- Every other answer that is no object with a list of entries. -/
  unreadable : 200 ≤ r.status ∧ r.status < 300 →
    (∀ t e, IsText r.body t → Envelope.ofJson r.body = .ok e → kindOf t ≠ some "error") →
    (¬ ∃ ms es, IsText r.body (.object ms) ∧ listingOfJson r.body = .ok es) →
      ∃ fault, found = .error (.unreadable fault)

/-- An answer that calls itself an error is refused with its status, or that of the response. -/
theorem entries_of_isError {r : Http.Response} {e : Envelope} (hsuccess : r.succeeded = true)
    (henvelope : Envelope.ofJson r.body = .ok e) (herror : e.isError = true) :
    entries r = .error (refusal (e.statusCode.getD r.status) r.body) := by
  unfold entries
  rw [hsuccess, henvelope]
  dsimp only
  rw [herror]
  rfl

theorem refused_entries (r : Http.Response) (name : String) :
    Refused r (entries r >>= find? name) := by
  have hanswer : 200 ≤ r.status ∧ r.status < 300 → ∀ e, Envelope.ofJson r.body = .ok e →
      e.kind = some "error" →
        ∃ message, (entries r >>= find? name) =
          .error (.rejected (e.statusCode.getD r.status) message) := by
    intro hsuccess e henvelope hkind
    rw [entries_of_isError (succeeded_iff.2 hsuccess) henvelope (Envelope.isError_iff.2 hkind)]
    exact ⟨_, rfl⟩
  constructor
  · intro hstatus
    have hsuccess : r.succeeded = false := Bool.eq_false_iff.2 (mt succeeded_iff.1 hstatus)
    unfold entries
    rw [hsuccess]
    exact ⟨_, rfl⟩
  · intro hsuccess t e htext henvelope hkind
    obtain rfl := Envelope.eq_of_text henvelope htext
    exact hanswer hsuccess _ henvelope hkind
  · intro hsuccess body ms ms' e htext henvelope hkind htext' hvaries
    have henvelope' := Envelope.ofJson_varied henvelope htext htext' hvaries
    obtain rfl := Envelope.eq_of_text henvelope htext
    exact hanswer hsuccess _ henvelope' hkind
  · intro hsuccess hgood hlist
    unfold entries
    rw [succeeded_iff.2 hsuccess]
    cases henvelope : Envelope.ofJson r.body with
    | error fault => exact ⟨fault, rfl⟩
    | ok envelope =>
      obtain ⟨t, rest, hs, hrest, -⟩ := Json.document_sound (Envelope.sound_tree _) henvelope
      have htext : IsText r.body t := ⟨rest, hs, hrest⟩
      have herror : envelope.isError = false := by
        have hkind := hgood t envelope htext henvelope
        rw [Envelope.eq_of_text henvelope htext]
        exact Bool.eq_false_iff.2 (mt Envelope.isError_iff.1 hkind)
      dsimp only
      rw [herror]
      cases hlisting : listingOfJson r.body with
      | error fault => exact ⟨fault, rfl⟩
      | ok es =>
        refine absurd ?_ hlist
        obtain ⟨ms, htext⟩ := object_of_entries (entries_eq_ok.2
          ⟨succeeded_iff.2 hsuccess, ⟨envelope, henvelope, herror⟩, hlisting⟩)
        exact ⟨ms, es, htext, hlisting⟩

/-! ## 4. The answer about a name -/

/-- No answer that is made of a response is an overflow. -/
theorem find?_entries_ne_overflow (r : Http.Response) (name : String) :
    (entries r >>= find? name) ≠ .error (.http .overflow) := by
  intro h
  cases hentries : entries r with
  | ok es =>
    rw [hentries] at h
    rcases (answers_find? es name).refused _ h with ⟨_, herr⟩ | ⟨_, herr, -⟩ <;> cases herr
  | error err =>
    rw [hentries] at h
    cases h
    exact entries_ne_overflow r hentries

variable {s : Socket} {endpoint : Endpoint} {sent : Bytes}

/-- The answer to a reply within the limit is that of its response, or the fault of decoding it; a
    reply without a byte has a fault of its own. -/
theorem query_closes (hdial : s.dial endpoint = .ok ()) (hlimit : s.limit + 1 < Decimal.word64)
    (hlen : sent.length ≤ s.limit) (name : String) :
    (∃ r, Http.Response.decode sent = .ok r ∧
      query name (s.get endpoint (.closes sent)) = entries r >>= find? name) ∨
    ∃ fault fault', Http.Response.decode sent = .error fault ∧
      query name (s.get endpoint (.closes sent)) = .error (.http fault') ∧
      (fault' = .overflow ↔ fault = .overflow) := by
  rw [query_eq]
  by_cases hne : sent = []
  · subst hne
    right
    refine ⟨.noDelimiter, .closedEarly, rfl, ?_, by decide⟩
    have hreceive : s.receive (.closes []) = .error (.http .closedEarly) := by
      unfold Socket.receive
      rw [if_neg (Nat.not_le.2 hlimit)]
      simp [Http.Reply.sent]
    unfold Socket.get Socket.response
    rw [hdial, hreceive]
    rfl
  · rw [get_closes hdial hlimit hlen hne]
    cases hdecode : Http.Response.decode sent with
    | ok r => exact .inl ⟨r, rfl, rfl⟩
    | error fault => exact .inr ⟨fault, fault, rfl, rfl, Iff.rfl⟩

/-- **A package is not installed if and only if a good answer does not list it.** For every other
    reply within the limit there is a package or an error; the sum behind a chunk's size overflows
    for those replies alone that have a chunk of one of the two largest sizes. What is refused, and
    as what, is said by `Refused`. -/
theorem query_absent (hdial : s.dial endpoint = .ok ()) (hlimit : s.limit + 1 < Decimal.word64)
    (hlen : sent.length ≤ s.limit) (name : String) :
    (query name (s.get endpoint (.closes sent)) = .ok none ↔
      ∃ r, Http.Response.decode sent = .ok r ∧ Unlisted name r) ∧
    ((¬ ∃ r, Http.Response.decode sent = .ok r ∧ Unlisted name r) →
      (∃ p, query name (s.get endpoint (.closes sent)) = .ok (some p)) ∨
      ∃ err, query name (s.get endpoint (.closes sent)) = .error err ∧
        (err = .http .overflow ↔ Http.Overwide sent)) ∧
    ∀ r, Http.Response.decode sent = .ok r →
      Refused r (query name (s.get endpoint (.closes sent))) := by
  rcases query_closes hdial hlimit hlen name with
    ⟨r, hdecode, hquery⟩ | ⟨fault, fault', hdecode, hquery, hoverflow⟩
  · have hcalm : ¬ Http.Overwide sent := by
      rw [← Http.decode_eq_overflow, hdecode]
      exact fun h => nomatch h
    have habsent : (entries r >>= find? name) = .ok none ↔ Unlisted name r := by
      rw [unlisted_iff]
      constructor
      · intro h
        obtain ⟨es, hentries, hfind⟩ := bind_eq_ok h
        exact ⟨es, hentries, (answers_find? es name).absent.1 hfind⟩
      · rintro ⟨es, hentries, hunnamed⟩
        rw [hentries]
        exact find?_absent hunnamed
    have hone : (∃ r', Http.Response.decode sent = .ok r' ∧ Unlisted name r') ↔
        Unlisted name r := by
      constructor
      · rintro ⟨r', hdecode', hunlisted⟩
        cases hdecode.symm.trans hdecode'
        exact hunlisted
      · exact fun hunlisted => ⟨r, hdecode, hunlisted⟩
    rw [hquery, hone]
    refine ⟨habsent, fun hnot => ?_, fun r' hdecode' => ?_⟩
    · cases hfound : entries r >>= find? name with
      | error err =>
        refine .inr ⟨err, rfl, fun herr => ?_, fun hwide => absurd hwide hcalm⟩
        rw [herr] at hfound
        exact absurd hfound (find?_entries_ne_overflow r name)
      | ok found =>
        cases found with
        | some p => exact .inl ⟨p, rfl⟩
        | none => exact absurd (habsent.1 hfound) hnot
    · cases hdecode.symm.trans hdecode'
      exact refused_entries r name
  · have hnone : ¬ ∃ r, Http.Response.decode sent = .ok r ∧ Unlisted name r := by
      rintro ⟨r, hdecode', -⟩
      cases hdecode.symm.trans hdecode'
    refine ⟨⟨fun h => ?_, fun h => absurd h hnone⟩, fun _ => .inr ⟨_, hquery, ?_⟩,
      fun r hdecode' => ?_⟩
    · cases hquery.symm.trans h
    · rw [← Http.decode_eq_overflow, hdecode]
      exact ⟨fun h => congrArg _ (hoverflow.1 (Error.http.inj h)),
        fun h => congrArg _ (hoverflow.2 (Except.error.inj h))⟩
    · cases hdecode.symm.trans hdecode'

private def askedSocket : Socket :=
  ⟨"/run/daemon.socket", "daemon", 1000, 200⟩

private def otherReply : Bytes :=
  Bytes.ofText
    "HTTP/1.1 200 OK\r\n\r\n\x7b\"type\":\"sync\",\"result\":[\x7b\"name\":\"b\"\x7d]\x7d"

/-- An error whose result is a list, with its own status behind it. -/
private def errorBody : Bytes :=
  Bytes.ofText
    "\x7b\"result\":[\x7b\"name\":\"b\"\x7d],\"status-code\":404,\"type\":\"error\"\x7d"

private def errorReply : Bytes :=
  Bytes.ofText "HTTP/1.1 200 OK\r\n\r\n" ++ errorBody

/-- Of two answers with one list, the first does not list the name and the second is an error. -/
theorem absent_from_list_not_from_error :
    (query "a" (askedSocket.get .listening (.closes otherReply)) = .ok none ∧
      ∃ r, Http.Response.decode otherReply = .ok r ∧ Unlisted "a" r) ∧
    ∃ message, query "a" (askedSocket.get .listening (.closes errorReply)) =
      .error (.rejected 404 message) := by
  have hdial : askedSocket.dial .listening = .ok () := rfl
  constructor
  · have hnone : query "a" (askedSocket.get .listening (.closes otherReply)) = .ok none := by
      decide +kernel
    exact ⟨hnone, (query_absent hdial (by decide) (by decide) "a").1.1 hnone⟩
  · have hdecode : Http.Response.decode errorReply = .ok ⟨200, [], errorBody⟩ := by
      decide +kernel
    have henvelope : Envelope.ofJson errorBody = .ok ⟨some "error", some 404⟩ := by
      decide +kernel
    obtain ⟨t, rest, hs, hrest, -⟩ := Json.document_sound (Envelope.sound_tree _) henvelope
    have htext : IsText errorBody t := ⟨rest, hs, hrest⟩
    have htree : (⟨some "error", some 404⟩ : Envelope) = ⟨kindOf t, codeOf t⟩ :=
      Envelope.eq_of_text henvelope htext
    obtain ⟨hkind, hcode⟩ := Envelope.mk.inj htree
    have hrefused := (query_absent hdial (by decide) (by decide) "a").2.2 _ hdecode
    have hanswer := hrefused.answer (by decide) t _ htext henvelope hkind.symm
    rwa [← hcode] at hanswer

/-- A chunk that is said to have the largest size. -/
private def widestReply : Bytes :=
  Bytes.ofText
    "HTTP/1.1 200 OK\r\nTransfer-Encoding: chunked\r\n\r\nffffffffffffffff\r\nab\r\n0\r\n\r\n"

/-- **The widest chunk is no fault of the reply but a sum that overflows**: there is neither an
    answer nor one of the errors of the daemon. -/
theorem overflow_at_widest_chunk :
    widestReply.length ≤ askedSocket.limit ∧
      query "a" (askedSocket.get .listening (.closes widestReply)) = .error (.http .overflow) := by
  decide +kernel

end RevisionWatch.Daemon
