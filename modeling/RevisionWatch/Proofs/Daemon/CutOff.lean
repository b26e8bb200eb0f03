import RevisionWatch.Proofs.Daemon.Asking
import RevisionWatch.Proofs.Json.Whole
/-!
# Replies that are cut off

A daemon that closes the connection too early has sent a beginning of its reply. What the client
makes of the beginning is an error or what it would have made of the whole (`cut_off_reply`): a body
with an end of its own is missed when it is cut, and of a body that goes to the end of the
connection the beginnings are no whole JSON texts.
-/

namespace RevisionWatch.Daemon

/-! ## 1. The layouts -/

theorem text_firm (wanted : String) : Json.Firm (Json.textAs wanted) :=
  (Json.textAs_closed wanted).firm

theorem App.layout_firm : App.layout.FirmFields := by
  intro f hf
  simp only [App.layout, List.mem_cons, List.not_mem_nil, or_false] at hf
  rcases hf with rfl | rfl
  · exact Json.Field.of_firm fun _ => Json.optional_firm (text_firm _)
  · exact Json.Field.of_firm fun _ => Json.optional_firm Json.boolean_closed.firm

theorem Entry.layout_firm : Entry.layout.FirmFields := by
  intro f hf
  simp only [Entry.layout, List.mem_cons, List.not_mem_nil, or_false] at hf
  rcases hf with rfl | rfl | rfl | rfl
  · exact Json.Field.of_firm fun _ => text_firm _
  · exact Json.Field.of_firm Json.value_firm
  · exact Json.Field.of_firm fun _ => Json.optional_firm (text_firm _)
  · exact Json.Field.of_firm fun room => (Json.listOf_closed
      (fun room => (Json.Layout.read_closed App.layout_firm room).firm) room).firm

theorem listing_firm : listing.FirmFields := by
  intro f hf
  simp only [listing, List.mem_cons, List.not_mem_nil, or_false] at hf
  subst hf
  exact Json.Field.of_firm fun room => (Json.listOf_closed
    (fun room => (Json.Layout.read_closed Entry.layout_firm room).firm) room).firm

/-- A list of entries that goes on is the same list or none. -/
theorem listingOfJson_append {bs more : Bytes} {es es' : List Entry}
    (h : listingOfJson bs = .ok es) (h' : listingOfJson (bs ++ more) = .ok es') : es' = es :=
  Json.document_append (Json.Layout.read_closed listing_firm _) h h'

/-! ## 2. The client -/

variable {s : Socket} {endpoint : Endpoint} {front back : Bytes}

/-- Of a reply that is cut off, the response is that of its beginning. -/
theorem get_front {r : Http.Response} (h : s.get endpoint (.closes (front ++ back)) = .ok r) :
    s.get endpoint (.closes front) =
      if front = [] then .error (.http .closedEarly)
      else (Http.Response.decode front).mapError .http := by
  obtain ⟨hdial, bs, hbs, -⟩ := get_eq_ok h
  obtain ⟨hlimit, hlen, -, -⟩ := receive_eq_ok.1 hbs
  unfold Socket.get Socket.response
  rw [hdial]
  show (s.receive (.closes front) >>= _) = _
  by_cases hf : front = []
  · subst hf
    rw [if_pos rfl]
    unfold Socket.receive
    rw [if_neg (Nat.not_le.2 hlimit)]
    simp only [Http.Reply.sent, List.drop_nil, List.isEmpty_nil, Bool.not_true, Bool.false_eq_true,
      if_false]
    rfl
  · rw [if_neg hf, receive_eq_ok.2 ⟨hlimit, ?_, hf, rfl⟩]
    · rfl
    · rw [List.length_append] at hlen
      omega

/-- The result of a call that was to give `a`: that, or an error that is no crash. -/
def SameOrError {α : Type} (a : α) (res : Except Error α) : Prop :=
  res = .ok a ∨ ∃ e, e ≠ .http .overflow ∧ res = .error e

theorem SameOrError.bind {α β : Type} {a : α} {b : β} {res : Except Error α}
    {f : α → Except Error β} (h : SameOrError a res) (hf : f a = .ok b) :
    SameOrError b (res >>= f) := by
  rcases h with rfl | ⟨e, he, rfl⟩
  · exact .inl hf
  · exact .inr ⟨e, he, rfl⟩

/-- Looking for entries does not crash. -/
theorem entries_ne_overflow (r : Http.Response) : entries r ≠ .error (.http .overflow) := by
  intro h
  unfold entries at h
  split at h
  · cases h
  · split at h
    · cases h
    · split at h
      · cases h
      · cases hl : listingOfJson r.body <;> rw [hl] at h <;> cases h

/-- The entries of the beginning of a reply are those of the whole. -/
theorem entries_front {es : List Entry}
    (h : (s.get endpoint (.closes (front ++ back)) >>= entries) = .ok es) :
    SameOrError es (s.get endpoint (.closes front) >>= entries) := by
  obtain ⟨r, hr, hes⟩ := bind_eq_ok h
  rw [get_front hr]
  by_cases hnil : front = []
  · rw [if_pos hnil]
    exact .inr ⟨.http .closedEarly, by decide, rfl⟩
  · rw [if_neg hnil]
    obtain ⟨-, bs, hbs, hdec⟩ := get_eq_ok hr
    obtain ⟨-, -, -, rfl⟩ := receive_eq_ok.1 hbs
    cases hfront : Http.Response.decode front with
    | error e =>
      refine .inr ⟨.http e, fun he => ?_, rfl⟩
      cases he
      rw [Http.decode_append_overflow hfront back] at hdec
      cases hdec
    | ok r' =>
      show SameOrError es (entries r')
      cases hes' : entries r' with
      | error e => exact .inr ⟨e, fun he => entries_ne_overflow r' (he ▸ hes'), rfl⟩
      | ok es' =>
        obtain ⟨-, -, hbody⟩ := Http.decode_append hfront hdec
        have hl' := (entries_eq_ok.1 hes').2.2
        have hl := (entries_eq_ok.1 hes).2.2
        refine .inl (congrArg _ ?_)
        rcases hbody with hbody | hbody
        · rw [hbody, hl'] at hl
          exact Except.ok.inj hl
        · rw [hbody] at hl
          exact (listingOfJson_append hl' hl).symm

/-- **A reply that is cut off tells what the whole tells, or nothing.** Whatever its framing, and
    wherever the daemon closes the connection, a list that was to be shown is shown or there is an
    error, and so it is with the answer about one package: none is lost, and none is changed. -/
theorem cut_off_reply (s : Socket) (endpoint : Endpoint) (front back : Bytes) (name : String)
    (ps : List Package) (found : Option Package)
    (hlist : list (s.get endpoint (.closes (front ++ back))) = .ok ps)
    (hquery : query name (s.get endpoint (.closes (front ++ back))) = .ok found) :
    SameOrError ps (list (s.get endpoint (.closes front))) ∧
      SameOrError found (query name (s.get endpoint (.closes front))) := by
  rw [list_eq] at hlist ⊢
  rw [query_eq] at hquery ⊢
  obtain ⟨es, hes, hps⟩ := bind_eq_ok hlist
  obtain ⟨es', hes', hfound⟩ := bind_eq_ok hquery
  exact ⟨(entries_front hes).bind hps, (entries_front hes').bind hfound⟩

private def usualSocket : Socket :=
  ⟨"/run/daemon.socket", Socket.usualHost, Socket.usualTimeoutMillis, Socket.usualLimit⟩

/-- A reply whose body goes to the end of the connection, and two blanks behind it. -/
private def shortReply : Bytes :=
  Bytes.ofText
    "HTTP/1.1 200 OK\r\n\r\n\x7b\"result\":[\x7b\"name\":\"agent\",\"revision\":\"x12\"\x7d]\x7d"

set_option maxRecDepth 100000 in
/-- The blanks may be missing, and no package is lost with them. -/
theorem cut_off_before_blanks :
    SameOrError [⟨"agent", ⟨12, by decide⟩, none, .notService⟩]
        (list (usualSocket.get .listening (.closes shortReply))) ∧
      SameOrError none (query "other" (usualSocket.get .listening (.closes shortReply))) := by
  refine cut_off_reply usualSocket .listening shortReply [0x20, 0x0A] "other" _ _ ?_ ?_
  · exact ok_of_toOption (by decide +kernel)
  · exact ok_of_toOption (by decide +kernel)

end RevisionWatch.Daemon
