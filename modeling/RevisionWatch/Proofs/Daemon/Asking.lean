import RevisionWatch.Daemon.Client
import RevisionWatch.Proofs.Http.Framing
import RevisionWatch.Proofs.Json.Steps
/-!
# Asking the daemon, step by step

What has to go well for the client to have an answer: the reply is received (`receive_eq`,
`receive_eq_ok`), a response is decoded from it (`get_eq_ok`), and the response is no refusal and
has a list of entries (`entries_eq_ok`). Both questions are put to these entries; the list of
packages cannot fail any more then (`list_eq`).
-/

namespace RevisionWatch.Daemon

variable {s : Socket} {endpoint : Endpoint}

/-- A response comes of the bytes that were received. -/
theorem get_eq_ok {reply : Http.Reply} {r : Http.Response} (h : s.get endpoint reply = .ok r) :
    s.dial endpoint = .ok () ∧
      ∃ bs, s.receive reply = .ok bs ∧ Http.Response.decode bs = .ok r := by
  obtain ⟨⟨⟩, hdial, h⟩ := bind_eq_ok h
  obtain ⟨bs, hbs, h⟩ := bind_eq_ok h
  exact ⟨hdial, bs, hbs, mapError_eq_ok.1 h⟩

/-- One byte more than the limit shows whether there is more than the limit. -/
theorem lt_length_take_succ {limit : Nat} {sent : Bytes} :
    limit < (sent.take (limit + 1)).length ↔ limit < sent.length := by
  rw [List.length_take, Nat.lt_min]
  exact and_iff_right (Nat.lt_succ_self limit)

/-- **What is received of a connection that closes**: one byte more than the limit is read of it,
    the length of what was read is compared with the limit, and what is empty is refused last. -/
theorem receive_eq (hlimit : s.limit + 1 < Decimal.word64) (sent : Bytes) :
    s.receive (.closes sent) =
      let raw := sent.take (s.limit + 1)
      if s.limit < raw.length then .error (.http (.exceeds s.limit))
      else if raw = [] then .error (.http .closedEarly)
      else .ok raw := by
  have hdrop : (!(sent.drop s.limit).isEmpty) = true ↔ s.limit < sent.length := by simp
  unfold Socket.receive
  rw [if_neg (Nat.not_le.2 hlimit)]
  show (if (!(sent.drop s.limit).isEmpty) = true then _ else _) =
    if s.limit < (sent.take (s.limit + 1)).length then _ else _
  by_cases hlong : s.limit < sent.length
  · rw [if_pos (hdrop.2 hlong), if_pos (lt_length_take_succ.2 hlong)]
  · have hread : sent.take (s.limit + 1) = sent := List.take_of_length_le (by omega)
    rw [if_neg (mt hdrop.1 hlong), hread, if_neg hlong]
    cases sent with
    | nil => rfl
    | cons b bs => exact (if_neg (List.cons_ne_nil b bs)).symm

/-- What is received of a connection that closes is what was sent, within the limit. -/
theorem receive_eq_ok {sent bs : Bytes} :
    s.receive (.closes sent) = .ok bs ↔
      s.limit + 1 < Decimal.word64 ∧ sent.length ≤ s.limit ∧ sent ≠ [] ∧ bs = sent := by
  by_cases hlimit : s.limit + 1 < Decimal.word64
  · rw [receive_eq hlimit]
    show (if s.limit < (sent.take (s.limit + 1)).length then _ else _) = _ ↔ _
    by_cases hlong : s.limit < sent.length
    · rw [if_pos (lt_length_take_succ.2 hlong)]
      exact ⟨fun h => (nomatch h), fun h => absurd h.2.1 (Nat.not_le.2 hlong)⟩
    · have hread : sent.take (s.limit + 1) = sent := List.take_of_length_le (by omega)
      rw [hread, if_neg hlong]
      by_cases hempty : sent = []
      · rw [if_pos hempty]
        exact ⟨fun h => (nomatch h), fun h => absurd hempty h.2.2.1⟩
      · rw [if_neg hempty]
        exact ⟨fun h => ⟨hlimit, Nat.le_of_not_lt hlong, hempty, (Except.ok.inj h).symm⟩,
          fun h => congrArg _ h.2.2.2.symm⟩
  · unfold Socket.receive
    rw [if_pos (Nat.le_of_not_lt hlimit)]
    exact ⟨fun h => (nomatch h), fun h => absurd h.1 hlimit⟩

/-- **The response of a reply that is within the limit** is what is decoded from it. -/
theorem get_closes {sent : Bytes} (hdial : s.dial endpoint = .ok ())
    (hlimit : s.limit + 1 < Decimal.word64) (hlen : sent.length ≤ s.limit) (hne : sent ≠ []) :
    s.get endpoint (.closes sent) = (Http.Response.decode sent).mapError .http := by
  have hreceive : s.receive (.closes sent) = .ok sent := receive_eq_ok.2 ⟨hlimit, hlen, hne, rfl⟩
  unfold Socket.get Socket.response
  rw [hdial, hreceive]
  rfl

theorem decode_of_get {sent : Bytes} {r : Http.Response}
    (h : s.get endpoint (.closes sent) = .ok r) : Http.Response.decode sent = .ok r := by
  obtain ⟨-, bs, hreceive, hdecode⟩ := get_eq_ok h
  rwa [(receive_eq_ok.1 hreceive).2.2.2] at hdecode

/-- If there was one response, there is that of every other reply within the limit. -/
theorem get_of_decode {sent sent' : Bytes} {r r' : Http.Response}
    (h : s.get endpoint (.closes sent) = .ok r) (hlen : sent'.length ≤ s.limit)
    (hdecode : Http.Response.decode sent' = .ok r') : s.get endpoint (.closes sent') = .ok r' := by
  obtain ⟨hdial, bs, hreceive, -⟩ := get_eq_ok h
  obtain ⟨hlimit, -⟩ := receive_eq_ok.1 hreceive
  have hne : sent' ≠ [] := by
    rintro rfl
    cases hdecode
  rw [get_closes hdial hlimit hlen hne, hdecode]
  rfl

/-- What is received was sent on a connection that closed. -/
theorem closes_of_receive {reply : Http.Reply} {bs : Bytes} (h : s.receive reply = .ok bs) :
    reply = .closes bs := by
  cases reply with
  | closes sent => rw [(receive_eq_ok.1 h).2.2.2]
  | hangs sent =>
    unfold Socket.receive at h
    split at h
    · cases h
    · split at h <;> cases h

/-- The entries of an answer that is no refusal are what is read of its listing. -/
theorem entries_of_good {r : Http.Response} {envelope : Envelope} (hsuccess : r.succeeded = true)
    (henvelope : Envelope.ofJson r.body = .ok envelope) (hgood : envelope.isError = false) :
    entries r = (listingOfJson r.body).mapError .unreadable := by
  unfold entries
  rw [hsuccess, henvelope]
  show (if envelope.isError = true then _ else _) = _
  rw [hgood]
  rfl

/-- **The entries of a response** are those of its body, if it is neither refused by its status nor
    by the body itself. -/
theorem entries_eq_ok {r : Http.Response} {es : List Entry} :
    entries r = .ok es ↔ r.succeeded = true ∧
      (∃ envelope, Envelope.ofJson r.body = .ok envelope ∧ envelope.isError = false) ∧
      listingOfJson r.body = .ok es := by
  constructor
  · intro h
    unfold entries at h
    split at h
    · cases h
    · rename_i hs
      split at h
      · cases h
      · rename_i envelope he
        split at h
        · cases h
        · rename_i hgood
          exact ⟨by simpa using hs, ⟨envelope, he, Bool.eq_false_iff.2 hgood⟩, mapError_eq_ok.1 h⟩
  · rintro ⟨hs, ⟨envelope, he, hgood⟩, hl⟩
    rw [entries_of_good hs he hgood, hl]
    rfl

/-! ## The list -/

/-- The packages of the entries that have one. -/
def records (es : List Entry) : List Package :=
  es.filterMap fun e => e.package.toOption

/-- The packages of the entries that have one, by rising name. -/
def packages (es : List Entry) : List Package :=
  (records es).mergeSort fun a b => a.name ≤ b.name

/-- An entry without a record has a bad revision or many services. -/
theorem Entry.package_eq_error {e : Entry} {err : Error} (h : e.package = .error err) :
    (∃ raw, err = .malformedRevision raw) ∨
      err = .manyServices e.name e.services.length ∧ 2 ≤ e.services.length := by
  unfold Entry.package at h
  cases hr : e.readRevision with
  | error err' =>
    rw [hr] at h
    cases h
    left
    unfold Entry.readRevision at hr
    split at hr
    · split at hr
      · cases hr
      · exact ⟨_, (Except.error.inj hr).symm⟩
    · exact ⟨_, (Except.error.inj hr).symm⟩
  | ok revision =>
    right
    rw [hr] at h
    cases hs : e.service with
    | ok service =>
      rw [hs] at h
      cases h
    | error err' =>
      rw [hs] at h
      cases h
      unfold Entry.service at hs
      split at hs
      · cases hs
      · cases hs
      · rename_i as hnone hone
        refine ⟨(Except.error.inj hs).symm, ?_⟩
        match hlen : e.services with
        | [] => exact absurd hlen hnone
        | [a] => exact absurd hlen (hone a)
        | _ :: _ :: rest => exact Nat.le_add_left 2 rest.length

/-- Keeping an entry never fails. -/
theorem keep_eq (ps : List Package) (e : Entry) :
    keep ps e = .ok (e.package.toOption.toList ++ ps) := by
  unfold keep
  cases h : e.package with
  | ok p => rfl
  | error err => obtain ⟨raw, rfl⟩ | ⟨rfl, -⟩ := e.package_eq_error h <;> rfl

theorem foldlM_keep (es : List Entry) (ps : List Package) :
    es.foldlM keep ps = .ok ((records es).reverse ++ ps) := by
  induction es generalizing ps with
  | nil => rfl
  | cons e es ih =>
    rw [List.foldlM_cons, keep_eq]
    show es.foldlM keep _ = _
    rw [ih, records, records, List.filterMap_cons]
    cases e.package.toOption <;> simp

theorem list_eq (r : Except Error Http.Response) :
    list r = (r >>= entries) >>= fun es => .ok (packages es) := by
  have h (es : List Entry) :
      (es.foldlM keep [] >>= fun ps => .ok (ps.reverse.mergeSort fun a b => a.name ≤ b.name)) =
        (.ok (packages es) : Except Error (List Package)) := by
    rw [foldlM_keep, List.append_nil]
    show Except.ok ((records es).reverse.reverse.mergeSort _) = _
    rw [List.reverse_reverse]
    rfl
  cases r with
  | error err => rfl
  | ok r => exact congrArg (entries r >>= ·) (funext h)

theorem query_eq (name : String) (r : Except Error Http.Response) :
    query name r = (r >>= entries) >>= find? name := by
  cases r <;> rfl

end RevisionWatch.Daemon
