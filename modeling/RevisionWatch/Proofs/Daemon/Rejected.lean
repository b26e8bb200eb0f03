import RevisionWatch.Proofs.Daemon.Absent
import RevisionWatch.Proofs.Json.Members
import RevisionWatch.Proofs.Text.Blank
/-!
# What is said of a refusal

A refusal is given back with a status and a message. The message is meant to be the daemon's own,
and the body itself if the daemon gives none. Which bodies have a message of the daemon is said by
`Explains`: an object whose result is an object with a text as its message. Of every other body the
message is the body, without the blanks around it, unless the body is read as an explanation without
being one (`Stray`): a result in which the message is missing gives an empty message, which is not
what is meant (`mute_refusal`), and lists are read as if they were objects.
-/

namespace RevisionWatch.Daemon

open Json (Tree IsText Sole Takes)

variable {body : Bytes} {t : Tree} {message : String} {status : Nat}

/-! ## 1. Explanations -/

/-- The tree is an object. -/
def IsObject (t : Tree) : Prop :=
  ∃ ms, t = .object ms

/-- **The tree of a refusal explains it**: an object whose result is an object whose message is the
    text. -/
inductive Explains : Tree → String → Prop where
  | intro {t result said : Tree} {message : String} (objects : IsObject t ∧ IsObject result)
      (given : Sole "result" t (some result)) (told : Sole "message" result (some said))
      (text : said.text? = some message) : Explains t message

/-- The tree is read as a refusal: it has a result, in which there is a message or none, and each of
    the two may be a list. -/
inductive Reports : Tree → Option String → Prop where
  | told {t result said : Tree} {message : String} (given : Sole "result" t (some result))
      (told : Sole "message" result (some said)) (text : said.text? = some message) :
      Reports t (some message)
  | mute {t result : Tree} (given : Sole "result" t (some result))
      (mute : Sole "message" result none) : Reports t none

theorem Explains.reports (h : Explains t message) : Reports t (some message) := by
  obtain ⟨-, given, told, text⟩ := h
  exact .told given told text

/-- The body is read as a refusal without being an explanation: the message is missing, or a list
    stands for an object. -/
def Stray (body : Bytes) : Prop :=
  ∃ t message?, IsText body t ∧ Reports t message? ∧ ∀ message, ¬ Explains t message

/-! ## 2. How refusals are read -/

/-- A text is read of a tree that is one. -/
theorem takes_text_iff (ht : t.Spelled) : Takes Json.text t message ↔ t.text? = some message := by
  obtain ⟨bs, rest, hs⟩ := ht
  constructor
  · intro htakes
    obtain ⟨t', hs', htext⟩ := Json.text_sound _ (htakes hs)
    obtain ⟨rfl, -⟩ := hs.value_unique hs'
    exact htext
  · intro htext bs' rest' hs'
    cases t with
    | text raw =>
      cases hs' with
      | text hd hb hraw =>
        unfold Json.text Json.textAs
        rw [hd]
        dsimp only
        rw [if_pos (beq_iff_eq.2 (Json.eq_quote hb))]
        exact Json.textBody_of_rawText? hraw htext rest'
    | null | boolean _ | number _ | list _ | object _ => cases htext

theorem refusalLayout_single : refusalLayout.Single "message" fun _ => Json.text :=
  ⟨rfl, rfl, fun _ => Json.text_steady _⟩

theorem refusalReply_single : refusalReply.Single "result" refusalLayout.read :=
  ⟨rfl, rfl, Json.Layout.read_steady refusalLayout_single.orderly⟩

/-- The message of a result; one that is missing is read as empty. -/
theorem takes_refusalLayout {room : Nat} (ht : t.Spelled) :
    Takes (refusalLayout.read (room + 1)) t message ↔
      (∃ said, Sole "message" t (some said) ∧ said.text? = some message) ∨
      Sole "message" t none ∧ message = "" := by
  rw [refusalLayout_single.takes_iff ht]
  constructor
  · rintro ⟨room', said?, message?, -, hsole, hrel, hfinish⟩
    obtain rfl := Except.ok.inj hfinish
    cases hrel with
    | some htakes => exact .inl ⟨_, hsole, (takes_text_iff (hsole.spelled ht)).1 htakes⟩
    | none => exact .inr ⟨hsole, rfl⟩
  · rintro (⟨said, hsole, htext⟩ | ⟨hsole, rfl⟩)
    · exact ⟨room, some said, some message, rfl, hsole,
        .some ((takes_text_iff (hsole.spelled ht)).2 htext), rfl⟩
    · exact ⟨room, none, none, rfl, hsole, .none, rfl⟩

theorem takes_refusalReply {room : Nat} (ht : t.Spelled) :
    Takes (refusalReply.read (room + 2)) t message ↔
      ∃ message?, Reports t message? ∧ message = message?.getD "" := by
  rw [refusalReply_single.takes_iff ht]
  constructor
  · rintro ⟨room', result?, said?, hroom, hgiven, hrel, hfinish⟩
    obtain rfl : room' = room + 1 := (Nat.succ.inj hroom).symm
    cases hrel with
    | none => cases hfinish
    | some htakes =>
      obtain rfl := Except.ok.inj hfinish
      rcases (takes_refusalLayout (hgiven.spelled ht)).1 htakes with
        ⟨said, htold, htext⟩ | ⟨hmute, rfl⟩
      · exact ⟨_, .told hgiven htold htext, rfl⟩
      · exact ⟨none, .mute hgiven hmute, rfl⟩
  · rintro ⟨message?, hreports, rfl⟩
    cases hreports with
    | told hgiven htold htext =>
      exact ⟨room + 1, _, some _, rfl, hgiven,
        .some ((takes_refusalLayout (hgiven.spelled ht)).2 (.inl ⟨_, htold, htext⟩)), rfl⟩
    | mute hgiven hmute =>
      exact ⟨room + 1, _, some _, rfl, hgiven,
        .some ((takes_refusalLayout (hgiven.spelled ht)).2 (.inr ⟨hmute, rfl⟩)), rfl⟩

/-- **The message that is read is the one that is reported**, or empty if none is. -/
theorem refusalOfJson_eq_ok (ht : IsText body t) : refusalOfJson body = .ok message ↔
    ∃ message?, Reports t message? ∧ message = message?.getD "" :=
  (ht.document_eq_ok (Json.Layout.read_steady refusalReply_single.orderly _)).trans
    (takes_refusalReply ht.spelled)

/-- What is read as a refusal is a text. -/
theorem isText_of_refusal (h : refusalOfJson body = .ok message) : ∃ t, IsText body t := by
  obtain ⟨t, rest, hs, hrest, -⟩ :=
    Json.document_sound (Json.Layout.read_steady refusalReply_single.orderly _) h
  exact ⟨t, rest, hs, hrest⟩

/-! ## 3. Messages -/

/-- The text of any bytes, without the blanks around it. -/
def rawMessage (body : Bytes) : String :=
  Text.trim (Bytes.toTextLossy body)

/-- **What the message of a refusal is.** The last of the four is what becomes of the bodies that the
    two in the middle leave out. -/
structure Explained (body : Bytes) (message : String) : Prop where
  own : ∀ t own, IsText body t → Explains t own → message = own
  raw : ¬ Stray body → (∀ t own, IsText body t → ¬ Explains t own) → message = rawMessage body
  empty : ¬ Stray body → message = "" → (∃ t, IsText body t ∧ Explains t "") ∨
    ∀ c ∈ (Bytes.toTextLossy body).toList, Text.isBlank c = true
  stray : ∀ t message?, IsText body t → Reports t message? → message = message?.getD ""

theorem explained_of_read (h : refusalOfJson body = .ok message) : Explained body message := by
  obtain ⟨t, ht⟩ := isText_of_refusal h
  have hstray : ∀ t message?, IsText body t → Reports t message? →
      message = message?.getD "" := by
    intro t' message? ht' hreports
    have hread := (refusalOfJson_eq_ok ht').2 ⟨message?, hreports, rfl⟩
    exact Except.ok.inj (h.symm.trans hread)
  obtain ⟨message?, hreports, -⟩ := (refusalOfJson_eq_ok ht).1 h
  have hexplains (hplain : ¬ Stray body) : ∃ own, Explains t own := by
    by_contra hnone
    exact hplain ⟨t, message?, ht, hreports, fun own hown => hnone ⟨own, hown⟩⟩
  have hown : ∀ t own, IsText body t → Explains t own → message = own :=
    fun t own ht hown => hstray t (some own) ht hown.reports
  refine ⟨hown, fun hplain hnone => ?_, fun hplain hempty => ?_, hstray⟩
  · obtain ⟨own, hexplain⟩ := hexplains hplain
    exact absurd hexplain (hnone t own ht)
  · obtain ⟨own, hexplain⟩ := hexplains hplain
    rw [← hown t own ht hexplain, hempty] at hexplain
    exact .inl ⟨t, ht, hexplain⟩

theorem explained_of_unread {fault : Json.Fault} (h : refusalOfJson body = .error fault) :
    Explained body (rawMessage body) := by
  have hunread : ∀ t message?, IsText body t → ¬ Reports t message? := by
    intro t message? ht hreports
    cases h.symm.trans ((refusalOfJson_eq_ok ht).2 ⟨message?, hreports, rfl⟩)
  exact ⟨fun t own ht hown => absurd hown.reports (hunread t _ ht), fun _ _ => rfl,
    fun _ hempty => .inr (Text.trim_eq_empty hempty),
    fun t message? ht hreports => absurd hreports (hunread t _ ht)⟩

theorem refusal_explained (status : Nat) (body : Bytes) :
    ∃ message, refusal status body = .rejected status message ∧ Explained body message := by
  unfold refusal
  cases h : refusalOfJson body with
  | ok message => exact ⟨message, rfl, explained_of_read h⟩
  | error fault => exact ⟨_, rfl, explained_of_unread h⟩

/-! ## 4. Replies -/

/-- **A response is refused with a status**: its own if that is outside of the two hundreds, and
    else that of an answer that calls itself an error, which is the response's if it gives none. -/
def RejectedAs (r : Http.Response) (status : Nat) : Prop :=
  ¬ (200 ≤ r.status ∧ r.status < 300) ∧ status = r.status ∨
  (200 ≤ r.status ∧ r.status < 300) ∧ ∃ t, IsText r.body t ∧ kindOf t = some "error" ∧
    status = (codeOf t).getD r.status

theorem entries_rejected {r : Http.Response} (h : entries r = .error (.rejected status message)) :
    RejectedAs r status ∧ Explained r.body message := by
  have hrefusal {code : Nat} (heq : refusal code r.body = .rejected status message) :
      status = code ∧ Explained r.body message := by
    obtain ⟨message', hmessage, hexplained⟩ := refusal_explained code r.body
    cases heq.symm.trans hmessage
    exact ⟨rfl, hexplained⟩
  unfold entries at h
  split at h
  · rename_i hfailed
    obtain ⟨rfl, hexplained⟩ := hrefusal (Except.error.inj h)
    refine ⟨.inl ⟨fun hsuccess => ?_, rfl⟩, hexplained⟩
    rw [succeeded_iff.2 hsuccess] at hfailed
    cases hfailed
  · rename_i hsuccess
    have hsuccess := succeeded_iff.1 (by simpa using hsuccess)
    split at h
    · cases h
    · rename_i envelope henvelope
      split at h
      · rename_i herror
        obtain ⟨hstatus, hexplained⟩ := hrefusal (Except.error.inj h)
        obtain ⟨t, rest, hs, hrest, hkind, hcode⟩ :=
          Json.document_sound (Envelope.sound_tree _) henvelope
        exact ⟨.inr ⟨hsuccess, t, ⟨rest, hs, hrest⟩, hkind ▸ Envelope.isError_iff.1 herror,
          hcode ▸ hstatus⟩, hexplained⟩
      · cases hlisting : listingOfJson r.body with
        | ok es => rw [hlisting] at h; cases h
        | error fault => rw [hlisting] at h; cases h

variable {s : Socket} {endpoint : Endpoint} {reply : Http.Reply}

/-- A request alone is never refused. -/
theorem get_ne_rejected : s.get endpoint reply ≠ .error (.rejected status message) := by
  intro h
  unfold Socket.get at h
  cases hdial : s.dial endpoint with
  | error err =>
    rw [hdial] at h
    cases h
    unfold Socket.dial at hdial
    split at hdial
    · cases hdial
    · cases hdial
    · cases hdial
    · split at hdial <;> cases hdial
  | ok =>
    rw [hdial] at h
    unfold Socket.response at h
    cases hreceive : s.receive reply with
    | ok bs =>
      rw [hreceive] at h
      cases hdecode : Http.Response.decode bs <;> rw [ok_bind, ok_bind, hdecode] at h <;> cases h
    | error err =>
      rw [hreceive] at h
      cases h
      unfold Socket.receive at hreceive
      split at hreceive
      · cases hreceive
      · split at hreceive
        · cases hreceive
        · split at hreceive <;> cases hreceive

/-- **One of the questions fails with an error**: for all packages, for one, or whether one is
    installed. -/
inductive Fails (r : Except Error Http.Response) (err : Error) : Prop where
  | list (h : list r = .error err)
  | query (name : String) (h : query name r = .error err)
  | installed (name : String) (h : installed name r = .error err)

/-- What is refused is refused before there are entries. -/
theorem entries_of_fails {r : Except Error Http.Response}
    (h : Fails r (.rejected status message)) :
    (r >>= entries) = .error (.rejected status message) := by
  have hfound (name : String) (h : query name r = .error (.rejected status message)) :
      (r >>= entries) = .error (.rejected status message) := by
    rw [query_eq] at h
    cases hentries : r >>= entries with
    | error err =>
      rw [hentries] at h
      exact congrArg _ (Except.error.inj h)
    | ok es =>
      rw [hentries] at h
      rcases (answers_find? es name).refused _ h with ⟨_, herr⟩ | ⟨_, herr, -⟩ <;> cases herr
  cases h with
  | list h =>
    rw [list_eq] at h
    cases hentries : r >>= entries with
    | error err =>
      rw [hentries] at h
      exact congrArg _ (Except.error.inj h)
    | ok es =>
      rw [hentries] at h
      cases h
  | query name h => exact hfound name h
  | installed name h => exact hfound name (installed_eq_error.1 h)

/-- **A refusal is given back with the message of the daemon, and else with its words.** Whatever is
    asked, an answer is refused only for a response that was read whole, with the status of the
    response or of the answer. The message is the one that the body explains the refusal by; of every
    other body that is not stray it is the body without the blanks around it; so it is empty only if
    the explanation is, or nothing was said. Of a stray body it is what the body has in the place of
    a message, and empty if there is none. -/
theorem rejected_explained (h : Fails (s.get endpoint reply) (.rejected status message)) :
    ∃ sent r, reply = .closes sent ∧ Http.Response.decode sent = .ok r ∧ RejectedAs r status ∧
      Explained r.body message := by
  have hentries := entries_of_fails h
  cases hget : s.get endpoint reply with
  | error err =>
    rw [hget] at hentries
    exact absurd (hget.trans (congrArg _ (Except.error.inj hentries))) get_ne_rejected
  | ok r =>
    rw [hget] at hentries
    obtain ⟨-, sent, hreceive, hdecode⟩ := get_eq_ok hget
    exact ⟨sent, r, closes_of_receive hreceive, hdecode, entries_rejected hentries⟩

private def refusingSocket : Socket :=
  ⟨"/run/daemon.socket", "daemon", 1000, 200⟩

/-- A body of no JSON, with blanks around what it says. -/
private def plainRefusal : Http.Reply :=
  .closes (Bytes.ofText "HTTP/1.1 503 Busy\r\n\r\n\tcome back later\n")

/-- The message of a body that is no JSON is what the body says. -/
theorem plain_refusal_explained :
    list (refusingSocket.get .listening plainRefusal) =
        .error (.rejected 503 "come back later") ∧
      ∃ sent r, plainRefusal = .closes sent ∧ Http.Response.decode sent = .ok r ∧
        RejectedAs r 503 ∧ Explained r.body "come back later" := by
  have hlist : list (refusingSocket.get .listening plainRefusal) =
      .error (.rejected 503 "come back later") := by decide +kernel
  exact ⟨hlist, rejected_explained (.list hlist)⟩

/-- An error without a message. -/
private def muteBody : Bytes :=
  Bytes.ofText "\x7b\"result\":\x7b\x7d\x7d"

private def muteReply : Http.Reply :=
  .closes (Bytes.ofText "HTTP/1.1 500 Oops\r\n\r\n" ++ muteBody)

private theorem muteBody_isText : IsText muteBody (.object [(Bytes.ofText "result", .object [])]) :=
  ⟨[], .object rfl rfl (.member (.opening _ rfl) (Json.textBody_of_plain rfl) rfl
    (.object rfl rfl (.endMembers rfl)) (.endMembers rfl)), rfl⟩

/-- **A refusal without a message loses what the body says**: the message is empty, though the body
    has none and is not blank. -/
theorem mute_refusal :
    list (refusingSocket.get .listening muteReply) = .error (.rejected 500 "") ∧
      (∀ t own, IsText muteBody t → ¬ Explains t own) ∧ rawMessage muteBody ≠ "" := by
  refine ⟨by decide +kernel, fun t own ht hexplains => ?_, by decide +kernel⟩
  obtain rfl := ht.unique muteBody_isText
  obtain ⟨-, given, told, -⟩ := hexplains
  obtain ⟨m, hm, -, rfl⟩ := given.exists_member
  obtain rfl := List.mem_singleton.1 hm
  obtain ⟨_, hnone, -⟩ := told.exists_member
  cases hnone

end RevisionWatch.Daemon
