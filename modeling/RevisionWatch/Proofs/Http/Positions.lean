import RevisionWatch.Proofs.Http.Chunks
/-!
# Reading by positions

A reader that keeps to one array takes the bytes between two positions and adds to positions. The
positions have to lie in order within the array and the sums have to fit their word; where they do
not, the reader is stopped. This file has that reader (`responseAt`), with every pair of positions
and every sum tested where it is used, and no bound on its rounds.

It is stopped, or does not end, for no bytes but those that have a chunk of one of the two largest
sizes behind chunks that can be read, and reads all others as `Response.decode` does
(`responseAt_stopped_iff`).
-/

namespace RevisionWatch.Http

open Bytes (CutAt crlf)

/-! ## 1. Readings -/

/-- What a reader comes to: a value or a fault, or nothing when it is stopped or does not end. -/
abbrev Reading := ExceptT Fault Option

namespace Reading

variable {α : Type}

/-- No value and no fault. -/
def stopped : Reading α :=
  ExceptT.mk none

/-- A value or a fault. -/
def ended (res : Except Fault α) : Reading α :=
  ExceptT.mk (some res)

/-- A result, in which a sum that does not fit stands for a reader that is stopped. -/
def ofResult : Except Fault α → Reading α
  | .error .overflow => stopped
  | res => ended res

theorem ended_bind_ok {β : Type} (a : α) (f : α → Reading β) : ended (.ok a) >>= f = f a := rfl

theorem ended_bind_error {β : Type} (e : Fault) (f : α → Reading β) :
    ended (.error e) >>= f = ended (.error e) := rfl

theorem stopped_bind {β : Type} (f : α → Reading β) : stopped >>= f = stopped := rfl

theorem ofResult_error {e : Fault} (h : e ≠ .overflow) :
    ofResult (.error e : Except Fault α) = ended (.error e) := by
  unfold ofResult
  split
  · rename_i heq
    exact absurd (Except.error.inj heq) h
  · rfl

theorem ofResult_eq_stopped {res : Except Fault α} :
    ofResult res = stopped ↔ res = .error .overflow := by
  unfold ofResult
  split
  · exact ⟨fun _ => rfl, fun _ => rfl⟩
  · rename_i hne
    exact ⟨fun h => (nomatch h), fun h => absurd h hne⟩

theorem ofResult_eq_ended {res : Except Fault α} (h : res ≠ .error .overflow) :
    ofResult res = ended res := by
  unfold ofResult
  split
  · exact absurd rfl h
  · rfl

end Reading

open Reading (stopped ended ofResult)

/-- The sum of two positions. -/
def sumAt (i j : Nat) : Reading Nat :=
  if i + j < Decimal.word64 then ended (.ok (i + j)) else stopped

/-- The bytes from one position up to another. -/
def between (bs : Bytes) (i j : Nat) : Reading Bytes :=
  if i ≤ j ∧ j ≤ bs.length then ended (.ok ((bs.take j).drop i)) else stopped

section Positions

variable {bs : Bytes} {i j : Nat}

theorem sumAt_of_lt (h : i + j < Decimal.word64) : sumAt i j = ended (.ok (i + j)) :=
  if_pos h

theorem sumAt_of_le (h : Decimal.word64 ≤ i + j) : sumAt i j = stopped :=
  if_neg (Nat.not_lt.2 h)

theorem between_front (h : j ≤ bs.length) : between bs 0 j = ended (.ok (bs.take j)) :=
  if_pos ⟨Nat.zero_le j, h⟩

theorem between_back (h : i ≤ bs.length) : between bs i bs.length = ended (.ok (bs.drop i)) := by
  rw [between, if_pos ⟨h, Nat.le_refl _⟩, List.take_length]

end Positions

/-! ## 2. The reader -/

/-- The data of a chunk, and what stands behind its end, which is its size and two bytes more. -/
def blockAt (bs : Bytes) (size : Nat) : Reading (Bytes × Bytes) := do
  let finish ← sumAt size 2
  if bs.length < finish then ended (.error .truncatedChunk)
  else do
    let data ← between bs 0 size
    let mark ← between bs size finish
    if mark = crlf then do
      let more ← between bs finish bs.length
      ended (.ok (data, more))
    else ended (.error .unterminatedChunk)

/-- The data of the chunks, behind what has been gathered. A reader that does not get on in a round
    would not end. -/
def chunksAt (out bs : Bytes) : Reading Bytes :=
  match Bytes.positionFrom? crlf 0 bs with
  | none => ended (.error .truncatedSize)
  | some stop => do
    let line ← between bs 0 stop
    let size ← ended (chunkSize line)
    let rest ← between bs (← sumAt stop 2) bs.length
    if size = 0 then ended (.ok out)
    else do
      let (data, more) ← blockAt rest size
      if more.length < bs.length then chunksAt (out ++ data) more else stopped
termination_by bs.length

/-- The body, framed as the headers say. -/
def bodyAt (hs : Headers) (bs : Bytes) : Reading Bytes :=
  if hs.chunked then chunksAt [] bs
  else
    match hs.get? "content-length" with
    | none => ended (.ok bs)
    | some length =>
      match Decimal.signed? 10 Decimal.word64 length.toList with
      | none => ended (.error (.invalidLength length))
      | some n =>
        if bs.length < n then ended (.error (.truncatedBody n bs.length)) else between bs 0 n

/-- A response from all the bytes that a connection gave. -/
def responseAt (bs : Bytes) : Reading Response :=
  match Bytes.positionFrom? delimiter 0 bs with
  | none => ended (.error .noDelimiter)
  | some stop => do
    let head ← between bs 0 stop
    match Bytes.toText? head with
    | none => ended (.error .headersNotText)
    | some head => do
      let rest ← between bs (← sumAt stop 4) bs.length
      match linesFrom [] head.toList with
      | [] => ended (.error .noDelimiter)
      | line :: lines => do
        let status ← ended (statusOf line)
        let headers := lines.filterMap headerOf?
        let body ← bodyAt headers rest
        ended (.ok ⟨status, headers, body⟩)

/-! ## 3. Every position lies within -/

section Within

variable {d bs : Bytes} {n : Nat}

/-- What is found lies within the bytes, with its end. -/
theorem position_le (hd : d ≠ []) {stop : Nat} (h : Bytes.positionFrom? d 0 bs = some stop) :
    stop + d.length ≤ bs.length := by
  obtain ⟨front, back, hcut, rfl⟩ := (Bytes.positionFrom?_eq_some_iff hd).1 h
  rw [hcut.whole]
  simp only [List.length_append]
  omega

/-- A chunk's data, its mark and what follows lie within the bytes that are long enough for them. -/
theorem blockAt_eq (bs : Bytes) (size : Nat) : blockAt bs size =
    if Decimal.word64 ≤ size + 2 then stopped
    else
      match bs.drop size with
      | a :: b :: more =>
        if [a, b] == crlf then ended (.ok (bs.take size, more))
        else ended (.error .unterminatedChunk)
      | _ => ended (.error .truncatedChunk) := by
  unfold blockAt
  by_cases hwide : Decimal.word64 ≤ size + 2
  · rw [sumAt_of_le hwide, if_pos hwide, Reading.stopped_bind]
  · rw [sumAt_of_lt (Nat.not_le.1 hwide), if_neg hwide, Reading.ended_bind_ok]
    have hlength := List.length_drop (i := size) (l := bs)
    match hdrop : bs.drop size with
    | [] =>
      rw [hdrop, List.length_nil] at hlength
      rw [if_pos (by omega)]
    | [a] =>
      rw [hdrop, List.length_singleton] at hlength
      rw [if_pos (by omega)]
    | a :: b :: more =>
      rw [hdrop, List.length_cons, List.length_cons] at hlength
      have hmark : between bs size (size + 2) = ended (.ok [a, b]) := by
        rw [between, if_pos (by omega), List.drop_take, hdrop, Nat.add_sub_cancel_left]
        rfl
      have hmore : bs.drop (size + 2) = more := by
        rw [← List.drop_drop, hdrop]
        rfl
      rw [if_neg (by omega), between_front (by omega), Reading.ended_bind_ok, hmark,
        Reading.ended_bind_ok, between_back (by omega), Reading.ended_bind_ok, hmore]
      dsimp only
      by_cases hab : [a, b] = crlf
      · rw [if_pos hab, if_pos (beq_iff_eq.2 hab)]
      · rw [if_neg hab, if_neg (mt beq_iff_eq.1 hab)]

/-- **The reader of chunks is stopped by a sum alone**: it comes to what the chunks come to. The
    induction is on the rounds that the bytes have room for. -/
theorem chunksAt_eq : ∀ {fuel : Nat} {acc : List Bytes} {bs : Bytes}, bs.length < fuel →
    bs.length < Decimal.word64 →
      chunksAt acc.reverse.flatten bs = ofResult (chunksFrom fuel acc bs)
  | 0, _, _, hfuel, _ => absurd hfuel (Nat.not_lt_zero _)
  | fuel + 1, acc, bs, hfuel, hword => by
    rw [chunksAt, chunksFrom, Bytes.splitAt?]
    cases hfound : Bytes.positionFrom? crlf 0 bs with
    | none => rfl
    | some stop =>
      have hle : stop + 2 ≤ bs.length := position_le crlf_ne_nil hfound
      have hstop : stop ≤ bs.length := Nat.le_of_add_right_le hle
      have hsum : stop + 2 < Decimal.word64 := Nat.lt_of_le_of_lt hle hword
      dsimp only [Option.map_some]
      rw [between_front hstop, Reading.ended_bind_ok]
      cases hsize : chunkSize (bs.take stop) with
      | error e =>
        rw [Reading.ended_bind_error]
        exact (Reading.ofResult_error fun he => chunkSize_ne_overflow _ (he ▸ hsize)).symm
      | ok size =>
        rw [Reading.ended_bind_ok, sumAt_of_lt hsum, Reading.ended_bind_ok, between_back hle,
          Reading.ended_bind_ok, blockAt_eq]
        dsimp only
        by_cases hzero : size = 0
        · rw [if_pos hzero, if_pos hzero]
          rfl
        rw [if_neg hzero, if_neg hzero]
        by_cases hwide : Decimal.word64 ≤ size + 2
        · rw [if_pos hwide, if_pos hwide]
          rfl
        rw [if_neg hwide, if_neg hwide]
        have hbehind : stop + crlf.length = stop + 2 := rfl
        rw [hbehind]
        rcases hdrop : (bs.drop (stop + 2)).drop size with _ | ⟨a, _ | ⟨b, more⟩⟩
        · rfl
        · rfl
        · dsimp only
          by_cases hab : ([a, b] == crlf) = true
          · have hmore : more.length + 2 ≤ bs.length := by
              have hlength := congrArg List.length hdrop
              simp only [List.length_drop, List.length_cons] at hlength
              omega
            rw [if_pos hab, if_pos hab, Reading.ended_bind_ok]
            have hgathered : acc.reverse.flatten ++ (bs.drop (stop + 2)).take size =
                ((bs.drop (stop + 2)).take size :: acc).reverse.flatten := by
              simp
            show (if more.length < bs.length then
              chunksAt (acc.reverse.flatten ++ (bs.drop (stop + 2)).take size) more
              else stopped) = _
            rw [if_pos (by omega), hgathered]
            exact chunksAt_eq (by omega) (by omega)
          · rw [if_neg hab, if_neg hab]
            rfl

theorem bodyAt_eq (hs : Headers) (h : bs.length < Decimal.word64) :
    bodyAt hs bs = ofResult (frame hs bs) := by
  unfold bodyAt frame
  by_cases hc : hs.chunked = true
  · rw [if_pos hc, if_pos hc]
    have hnone : ([] : Bytes) = ([] : List Bytes).reverse.flatten := rfl
    rw [hnone]
    exact chunksAt_eq (Nat.lt_succ_self _) h
  · rw [if_neg hc, if_neg hc]
    cases hs.get? "content-length" with
    | none => rfl
    | some length =>
      dsimp only
      unfold measured
      cases Decimal.signed? 10 Decimal.word64 length.toList with
      | none => rfl
      | some n =>
        dsimp only
        by_cases hn : bs.length < n
        · rw [if_pos hn, if_pos hn]
          rfl
        · rw [if_neg hn, if_neg hn, between_front (Nat.le_of_not_lt hn)]
          rfl

/-- **The reader is stopped where a sum of the decoder overflows**, and comes to the same elsewhere. -/
theorem responseAt_eq (h : bs.length < Decimal.word64) :
    responseAt bs = ofResult (Response.decode bs) := by
  unfold responseAt Response.decode Bytes.splitAt?
  cases hfound : Bytes.positionFrom? delimiter 0 bs with
  | none => rfl
  | some stop =>
    have hle : stop + 4 ≤ bs.length := position_le delimiter_ne_nil hfound
    have hstop : stop ≤ bs.length := Nat.le_of_add_right_le hle
    have hsum : stop + 4 < Decimal.word64 := Nat.lt_of_le_of_lt hle h
    have hrest : (bs.drop (stop + 4)).length < Decimal.word64 := by
      rw [List.length_drop]
      omega
    dsimp only [Option.map_some]
    rw [between_front hstop, Reading.ended_bind_ok]
    cases Bytes.toText? (bs.take stop) with
    | none => rfl
    | some head =>
      dsimp only
      rw [sumAt_of_lt hsum, Reading.ended_bind_ok, between_back hle, Reading.ended_bind_ok]
      cases linesFrom [] head.toList with
      | nil => rfl
      | cons line lines =>
        dsimp only
        cases hcode : statusOf line with
        | error e =>
          exact (Reading.ofResult_error fun he => statusOf_ne_overflow line (he ▸ hcode)).symm
        | ok status =>
          rw [Reading.ended_bind_ok, bodyAt_eq _ hrest]
          show _ = ofResult (frame _ (bs.drop (stop + 4)) >>= _)
          cases frame (lines.filterMap headerOf?) (bs.drop (stop + 4)) with
          | ok body => rfl
          | error e => cases e <;> rfl

end Within

/-! ## 4. Where the reader is stopped -/

section Stopped

variable {bs : Bytes}

/-- **A response with a chunk of one of the two largest sizes**: behind the head, whose headers name
    chunks, there are blocks, and then a line that gives such a size. -/
inductive HasWidest (bs : Bytes) : Prop where
  | intro (status : Nat) (hs : Headers) (blocks : List Block) (line rest : Bytes)
      (head : Headed bs status hs (blocks.flatMap Block.bytes ++ (line ++ crlf ++ rest)))
      (coding : hs.chunked = true) (sized : ∀ b ∈ blocks, b.Sized) (widest : GivesWidest line) :
      HasWidest bs

theorem overwide_iff (hfit : bs.length < 2 ^ 63) : Overwide bs ↔ HasWidest bs := by
  constructor
  · rintro ⟨status, hs, rest, hhead, hc, hover⟩
    have hrest : rest.length < 2 ^ 63 := Nat.lt_of_le_of_lt hhead.length_le hfit
    obtain ⟨blocks, line, more, rfl, sized, widest⟩ := (overflowing_iff hrest).1 hover
    exact .intro status hs blocks line more hhead hc sized widest
  · rintro ⟨status, hs, blocks, line, more, hhead, hc, sized, widest⟩
    have hrest := Nat.lt_of_le_of_lt hhead.length_le hfit
    exact ⟨status, hs, _, hhead, hc, (overflowing_iff hrest).2 ⟨_, _, _, rfl, sized, widest⟩⟩

/-- **The reader is stopped at one of the two largest sizes and nowhere else**: no position lies
    outside of the bytes, and no other sum overflows. For all other bytes it comes to an end, with
    the response or the fault of the decoder. -/
theorem responseAt_stopped_iff (hfit : bs.length < 2 ^ 63) :
    (responseAt bs = stopped ↔ HasWidest bs) ∧
    (¬ HasWidest bs →
      (∃ r, responseAt bs = ended (.ok r) ∧ Response.decode bs = .ok r) ∨
      ∃ fault, fault ≠ .overflow ∧ responseAt bs = ended (.error fault) ∧
        Response.decode bs = .error fault) := by
  have hword : Decimal.word64 = 2 * 2 ^ 63 := rfl
  have hread : responseAt bs = ofResult (Response.decode bs) := responseAt_eq (by omega)
  have hstopped : responseAt bs = stopped ↔ Response.decode bs = .error .overflow := by
    rw [hread, Reading.ofResult_eq_stopped]
  have hwidest : Response.decode bs = .error .overflow ↔ HasWidest bs := by
    rw [decode_eq_overflow, overwide_iff hfit]
  refine ⟨hstopped.trans hwidest, fun hnarrow => ?_⟩
  have hfits : Response.decode bs ≠ .error .overflow := fun h => hnarrow (hwidest.1 h)
  rw [hread, Reading.ofResult_eq_ended hfits]
  cases hdecode : Response.decode bs with
  | ok r => exact .inl ⟨r, rfl, rfl⟩
  | error fault => exact .inr ⟨fault, fun h => hfits (hdecode.trans (congrArg _ h)), rfl, rfl⟩

/-- A response in one chunk, whose size is given by a line. -/
private def wideReply (line : String) : Bytes :=
  Bytes.ofText ("HTTP/1.1 200 OK\r\nTransfer-Encoding: chunked\r\n\r\n1\r\na\r\n" ++ line ++
    "\r\nab\r\n0\r\n\r\n")

set_option maxRecDepth 10000 in
/-- The widest size but two is that of a chunk that is cut off. -/
theorem responseAt_widest_but_two :
    (wideReply "fffffffffffffffd").length < 2 ^ 63 ∧ ¬ HasWidest (wideReply "fffffffffffffffd") ∧
      responseAt (wideReply "fffffffffffffffd") = ended (.error .truncatedChunk) := by
  have hfit : (wideReply "fffffffffffffffd").length < 2 ^ 63 := by decide
  have hdecode : Response.decode (wideReply "fffffffffffffffd") = .error .truncatedChunk := by
    decide +kernel
  have hnarrow : ¬ HasWidest (wideReply "fffffffffffffffd") := by
    rw [← overwide_iff hfit, ← decode_eq_overflow, hdecode]
    exact fun h => nomatch h
  refine ⟨hfit, hnarrow, ?_⟩
  rcases (responseAt_stopped_iff hfit).2 hnarrow with ⟨r, -, h⟩ | ⟨fault, -, hended, h⟩
  · cases hdecode.symm.trans h
  · cases hdecode.symm.trans h
    exact hended

set_option maxRecDepth 10000 in
/-- **The two widest sizes stop the reader**, though a chunk of such a size is cut off like the ones
    that are a little less wide. -/
theorem stopped_at_widest_chunks :
    responseAt (wideReply "fffffffffffffffe") = stopped ∧
      responseAt (wideReply "FFFFFFFFFFFFFFFF") = stopped := by
  constructor
  · have hdecode : Response.decode (wideReply "fffffffffffffffe") = .error .overflow := by
      decide +kernel
    rw [responseAt_eq (by decide), hdecode]
    rfl
  · have hdecode : Response.decode (wideReply "FFFFFFFFFFFFFFFF") = .error .overflow := by
      decide +kernel
    rw [responseAt_eq (by decide), hdecode]
    rfl

end Stopped

end RevisionWatch.Http
