import Mathlib.Algebra.Group.Nat.Defs
import Mathlib.Data.List.Infix
import RevisionWatch.Proofs.Daemon.Asking
/-!
# Requests on connections of their own

Requests are made to one socket one after another, and the daemon closes each connection behind
its reply. What comes of a request is fixed by the reply on its own connection, whatever was
replied before (`exchanges_getElem?`), and what comes of a reply, by the limit: nothing came, more
came than the limit, or what came is decoded (`verdict`, `response_closes`).

So the exchanges over paths are the requests for them and the verdicts on the replies, no body is
longer than the limit, and two limits that a reply keeps within give the same
(`exchanges_of_closing`). The limit has to leave room for the one byte more that is read. The
greatest number of a 64-bit word does not, and no reply gives a response under it
(`response_greatest`).
-/

namespace RevisionWatch.Daemon

variable {s : Socket} {endpoint : Endpoint}

/-! ## 1. One reply -/

/-- What comes of a reply under a limit. -/
def verdict (limit : Nat) (sent : Bytes) : Except Error Http.Response :=
  if sent = [] then .error (.http .closedEarly)
  else if limit < sent.length then .error (.http (.exceeds limit))
  else (Http.Response.decode sent).mapError .http

/-- **The response of a connection that closes** is the verdict on what was sent on it. -/
theorem response_closes (hlimit : s.limit + 1 < Decimal.word64) (sent : Bytes) :
    s.response (.closes sent) = verdict s.limit sent := by
  unfold Socket.response verdict
  rw [receive_eq hlimit]
  by_cases hempty : sent = []
  · subst hempty
    rfl
  · rw [if_neg hempty]
    by_cases hlong : s.limit < sent.length
    · simp only [if_pos hlong, if_pos (lt_length_take_succ.2 hlong)]
      rfl
    · have hread : sent.take (s.limit + 1) = sent := List.take_of_length_le (by omega)
      simp only [hread, if_neg hlong, if_neg hempty]
      rfl

/-- A limit that leaves no room for one byte more gives no response. -/
theorem response_greatest (hlimit : Decimal.word64 ≤ s.limit + 1) (reply : Http.Reply) :
    s.response reply = .error (.http .overflow) := by
  unfold Socket.response Socket.receive
  rw [if_pos hlimit]
  rfl

/-- The body of a response that a verdict lets through is within the limit. -/
theorem length_body_of_verdict {limit : Nat} {sent : Bytes} {r : Http.Response}
    (h : verdict limit sent = .ok r) : r.body.length ≤ limit := by
  unfold verdict at h
  split at h
  · cases h
  · split at h
    · cases h
    · rename_i hshort
      have hdecode : Http.Response.decode sent = .ok r := mapError_eq_ok.1 h
      exact Nat.le_trans (Http.length_body_le hdecode) (Nat.not_lt.1 hshort)

/-- Two limits that a reply keeps within give the same verdict on it. -/
theorem verdict_of_length_le {limit limit' : Nat} {sent : Bytes} (h : sent.length ≤ limit)
    (h' : sent.length ≤ limit') : verdict limit' sent = verdict limit sent := by
  unfold verdict
  rw [if_neg (Nat.not_lt.2 h), if_neg (Nat.not_lt.2 h')]

/-! ## 2. One request after another -/

/-- Where there is no connection, it does not matter what the daemon would do on it. -/
theorem exchange_of_refused {err : Error} (h : s.dial endpoint = .error err)
    (reply reply' : Http.Reply) (path : String) :
    s.exchange endpoint reply path = s.exchange endpoint reply' path := by
  unfold Socket.exchange Socket.get
  rw [h]
  rfl

/-- On a connection, the request arrives and the response comes of the reply to it. -/
theorem exchange_of_dialled (h : s.dial endpoint = .ok ()) (reply : Http.Reply) (path : String) :
    s.exchange endpoint reply path = ⟨some (s.request path), s.response reply⟩ := by
  unfold Socket.exchange Socket.get
  rw [h]
  rfl

/-- **The exchange over the `i`-th path** is the one that the reply on the `i`-th connection gives,
    alone. Either every request comes to a connection or none does: the count of connections keeps
    step with the paths, or nobody looks at it. -/
theorem exchanges_getElem? (reply : Nat → Http.Reply) (n : Nat) (paths : List String) (i : Nat) :
    (s.exchanges endpoint reply n paths)[i]? =
      paths[i]?.map (s.exchange endpoint (reply (n + i))) := by
  induction paths generalizing n i with
  | nil => rfl
  | cons path paths ih =>
    unfold Socket.exchanges
    cases i with
    | zero => rfl
    | succ i =>
      rw [List.getElem?_cons_succ, List.getElem?_cons_succ, ih]
      cases hdial : s.dial endpoint with
      | ok u =>
        rw [exchange_of_dialled hdial]
        show paths[i]?.map (s.exchange endpoint (reply (n + 1 + i))) = _
        rw [Nat.add_right_comm]
        rfl
      | error err =>
        exact congrArg (paths[i]?.map ·) (funext fun p => exchange_of_refused hdial _ _ p)

theorem length_exchanges (reply : Nat → Http.Reply) (n : Nat) (paths : List String) :
    (s.exchanges endpoint reply n paths).length = paths.length := by
  induction paths generalizing n with
  | nil => rfl
  | cons path paths ih => exact congrArg Nat.succ (ih _)

/-- The exchange over the `i`-th path, if the daemon closes every connection behind its reply. -/
theorem exchanges_closes_getElem? (htimeout : s.timeoutMillis ≠ 0)
    (hlimit : s.limit + 1 < Decimal.word64) (sent : Nat → Bytes) (paths : List String) (i : Nat) :
    (s.exchanges .listening (fun i => .closes (sent i)) 0 paths)[i]? =
      paths[i]?.map fun path =>
        Exchange.mk (some (Http.request s.host path)) (verdict s.limit (sent i)) := by
  have hdial : s.dial .listening = .ok () := if_neg htimeout
  rw [exchanges_getElem?, Nat.zero_add]
  congr 1
  funext path
  rw [exchange_of_dialled hdial, response_closes hlimit]
  rfl

/-- **Every request has a connection of its own, and its reply alone decides what comes of it.**
    The daemon listens and closes each connection behind its reply, `sent i` on the `i`-th. Then
    there is one exchange a path; the `i`-th is the request for the `i`-th path and the verdict on
    the `i`-th reply: a reply without a byte is none, one above the limit is refused in a sentence
    that names the limit, and from any other the response is decoded. A response that is given has a
    body within the limit, and another limit gives the same for every reply that both reach to. -/
theorem exchanges_of_closing (htimeout : s.timeoutMillis ≠ 0)
    (hlimit : s.limit + 1 < Decimal.word64) (sent : Nat → Bytes) (paths : List String) :
    let made := s.exchanges .listening (fun i => .closes (sent i)) 0 paths
    made.length = paths.length ∧
      (∀ (i : Nat) (path : String), paths[i]? = some path →
        made[i]? = some ⟨some (Http.request s.host path),
          if sent i = [] then .error (.http .closedEarly)
          else if s.limit < (sent i).length then .error (.http (.exceeds s.limit))
          else (Http.Response.decode (sent i)).mapError .http⟩) ∧
      (Http.Fault.exceeds s.limit).message =
        "response exceeds " ++ Decimal.text s.limit ++ " bytes" ∧
      (∀ x ∈ made, ∀ r, x.response = .ok r → r.body.length ≤ s.limit) ∧
      ∀ limit', limit' + 1 < Decimal.word64 → ∀ i : Nat, (sent i).length ≤ s.limit →
        (sent i).length ≤ limit' →
        (Socket.exchanges { s with limit := limit' } .listening
          (fun i => .closes (sent i)) 0 paths)[i]? = made[i]? := by
  intro made
  have hmade := exchanges_closes_getElem? htimeout hlimit sent paths
  refine ⟨length_exchanges _ 0 paths, fun i path h => ?_, rfl, fun x hx r hr => ?_,
    fun limit' hlimit' i hlen hlen' => ?_⟩
  · rw [hmade, h]
    rfl
  · obtain ⟨i, hi⟩ := List.mem_iff_getElem?.1 hx
    rw [hmade] at hi
    obtain ⟨path, -, rfl⟩ := Option.map_eq_some_iff.1 hi
    exact length_body_of_verdict hr
  · have hmade' := exchanges_closes_getElem? (s := { s with limit := limit' }) htimeout hlimit'
      sent paths i
    rw [hmade, hmade', verdict_of_length_le hlen hlen']

/-- A response that says `ok`, in 21 bytes. -/
def okReply : Bytes :=
  Bytes.ofText "HTTP/1.1 200 OK\r\n\r\nok"

/-- Under a limit of 21 bytes: no byte, 21 bytes and 22 bytes, on three connections. -/
theorem exchanges_around_limit :
    let s : Socket := ⟨"/run/snapd.socket", "snapd", 10000, 21⟩
    let sent (i : Nat) : Bytes := [[], okReply, okReply ++ Bytes.ofText "!"].getD i []
    let made := s.exchanges .listening (fun i => .closes (sent i)) 0 ["/a", "/b", "/c"]
    s.timeoutMillis ≠ 0 ∧ s.limit + 1 < Decimal.word64 ∧
      made[0]? = some ⟨some (Http.request "snapd" "/a"), .error (.http .closedEarly)⟩ ∧
      made[1]? = some ⟨some (Http.request "snapd" "/b"), .ok ⟨200, [], Bytes.ofText "ok"⟩⟩ ∧
      made[2]? = some ⟨some (Http.request "snapd" "/c"), .error (.http (.exceeds 21))⟩ ∧
      (Socket.exchanges { s with limit := 22 } .listening
        (fun i => .closes (sent i)) 0 ["/a", "/b", "/c"])[1]? = made[1]? := by
  intro s sent made
  have htimeout : s.timeoutMillis ≠ 0 := by decide
  have hlimit : s.limit + 1 < Decimal.word64 := by decide
  have hlimit' : 22 + 1 < Decimal.word64 := by decide
  have hlong : s.limit < (sent 2).length := by decide +kernel
  have hfits : (sent 1).length ≤ s.limit := by decide +kernel
  have hdecode : (Http.Response.decode okReply).mapError .http =
      (.ok ⟨200, [], Bytes.ofText "ok"⟩ : Except Error Http.Response) := by decide +kernel
  obtain ⟨-, hmade, -, -, hlimits⟩ := exchanges_of_closing htimeout hlimit sent ["/a", "/b", "/c"]
  have hfits' : (sent 1).length ≤ 22 := Nat.le_succ_of_le hfits
  refine ⟨htimeout, hlimit, hmade 0 "/a" rfl, ?_, ?_, hlimits 22 hlimit' 1 hfits hfits'⟩
  · have h := hmade 1 "/b" rfl
    rw [if_neg (by decide +kernel), if_neg (Nat.not_lt.2 hfits)] at h
    exact h.trans (by rw [← hdecode]; rfl)
  · have h := hmade 2 "/c" rfl
    rw [if_neg (by decide +kernel), if_pos hlong] at h
    exact h

/-- Under the greatest limit of a 64-bit word, the 21 bytes give no response, though they are within
    the limit and a response is decoded from them. -/
theorem no_response_under_greatest_limit :
    let s : Socket := ⟨"/run/snapd.socket", "snapd", 10000, 2 ^ 64 - 1⟩
    s.exchanges .listening (fun _ => .closes okReply) 0 ["/a"] =
        [⟨some (Http.request "snapd" "/a"), .error (.http .overflow)⟩] ∧
      okReply ≠ [] ∧ okReply.length ≤ s.limit ∧
      (Http.Response.decode okReply).mapError .http =
        (.ok ⟨200, [], Bytes.ofText "ok"⟩ : Except Error Http.Response) := by
  intro s
  have hdial : s.dial .listening = .ok () := rfl
  refine ⟨?_, by decide +kernel, by decide +kernel, by decide +kernel⟩
  show [s.exchange .listening (.closes okReply) "/a"] = _
  rw [exchange_of_dialled hdial, response_greatest (by decide)]
  rfl

end RevisionWatch.Daemon
