import Mathlib.Data.List.Infix
import RevisionWatch.Http.Response
import RevisionWatch.Proofs.Text.Delimiter
/-!
# Responses without their decoder

What bytes are a response, said without the steps in which it is read:

* `Headed` — a status line and header lines in front of a blank line;
* `Chunked` — chunks up to one of size zero, with their data;
* `Framed` — a body, framed as the headers say.

The decoder accepts these bytes and no others (`decode_eq_ok`). Bytes that come later change no head
and no body that has an end of its own (`Headed.append`, `Chunked.append`), so a response that is
cut off is decoded to the same or not at all, unless its body goes to the end of the connection
(`decode_append`), and one that says where it ends is decoded to the same whatever follows it
(`decode_of_delimit`).
-/

namespace RevisionWatch.Http

open Bytes (CutAt crlf)

variable {bs rest body more : Bytes} {hs : Headers} {status : Nat} {r : Response}

theorem crlf_ne_nil : crlf ≠ [] := List.cons_ne_nil _ _

theorem delimiter_ne_nil : delimiter ≠ [] := List.cons_ne_nil _ _

/-! ## 1. Chunks -/

/-- Chunks up to one of size zero; the data is all of theirs. -/
inductive Chunked : Bytes → Bytes → Prop where
  | last {bs line rest : Bytes} (cut : CutAt crlf bs line rest) (size : chunkSize line = .ok 0) :
      Chunked bs []
  | chunk {bs line data more body : Bytes} (cut : CutAt crlf bs line (data ++ crlf ++ more))
      (size : chunkSize line = .ok data.length) (some : data ≠ [])
      (fits : data.length + 2 < Decimal.word64) (rest : Chunked more body) :
      Chunked bs (data ++ body)

/-- Chunks up to one whose size does not fit its word. -/
inductive Overflowing : Bytes → Prop where
  | here {bs line rest : Bytes} {n : Nat} (cut : CutAt crlf bs line rest)
      (size : chunkSize line = .ok n) (wide : Decimal.word64 ≤ n + 2) : Overflowing bs
  | behind {bs line data more : Bytes} (cut : CutAt crlf bs line (data ++ crlf ++ more))
      (size : chunkSize line = .ok data.length) (some : data ≠ [])
      (fits : data.length + 2 < Decimal.word64) (rest : Overflowing more) : Overflowing bs

/-- More bytes do not change the chunks in front of them. -/
theorem Chunked.append (h : Chunked bs body) (more : Bytes) : Chunked (bs ++ more) body := by
  induction h with
  | last cut size => exact .last (cut.append more) size
  | chunk cut size some fits _ ih =>
    have hcut := cut.append more
    rw [List.append_assoc] at hcut
    exact .chunk hcut size some fits ih

theorem Overflowing.append (h : Overflowing bs) (more : Bytes) : Overflowing (bs ++ more) := by
  induction h with
  | here cut size wide => exact .here (cut.append more) size wide
  | behind cut size some fits _ ih =>
    have hcut := cut.append more
    rw [List.append_assoc] at hcut
    exact .behind hcut size some fits ih

/-- A chunk takes more than a byte. -/
theorem length_lt_of_cut {line data more : Bytes}
    (cut : CutAt crlf bs line (data ++ crlf ++ more)) : more.length < bs.length := by
  rw [cut.whole]
  simp only [List.length_append, crlf, List.length_cons, List.length_nil]
  omega

/-- The data of chunks is no longer than they are. -/
theorem Chunked.length_le (h : Chunked bs body) : body.length ≤ bs.length := by
  induction h with
  | last => exact Nat.zero_le _
  | chunk cut _ _ _ _ ih =>
    rw [cut.whole]
    simp only [List.length_append]
    omega

/-- The step of `chunksFrom` behind a chunk. -/
theorem chunksFrom_chunk {line data more : Bytes} (fuel : Nat) (acc : List Bytes)
    (cut : CutAt crlf bs line (data ++ crlf ++ more)) (size : chunkSize line = .ok data.length)
    (some : data ≠ []) (fits : data.length + 2 < Decimal.word64) :
    chunksFrom (fuel + 1) acc bs = chunksFrom fuel (data :: acc) more := by
  rw [chunksFrom, (Bytes.splitAt?_eq_some_iff crlf_ne_nil).2 cut]
  dsimp only
  rw [size]
  dsimp only
  rw [if_neg (by simpa using some), if_neg (Nat.not_le.2 fits), List.append_assoc,
    List.drop_left, List.take_left]
  rfl

/-- A size line does not overflow: the size it gives fits its word. -/
theorem chunkSize_ne_overflow (line : Bytes) : chunkSize line ≠ .error .overflow := by
  intro h
  unfold chunkSize at h
  split at h
  · cases h
  · dsimp only at h
    split at h <;> cases h

/-- What a step of `chunksFrom` comes to. -/
theorem chunksFrom_succ {fuel : Nat} {acc : List Bytes} {res : Except Fault Bytes}
    (h : chunksFrom (fuel + 1) acc bs = res) :
    (∃ line rest, CutAt crlf bs line rest ∧ chunkSize line = .ok 0 ∧
      res = .ok acc.reverse.flatten) ∨
    (∃ line rest n, CutAt crlf bs line rest ∧ chunkSize line = .ok n ∧
      Decimal.word64 ≤ n + 2 ∧ res = .error .overflow) ∨
    (∃ line data more, CutAt crlf bs line (data ++ crlf ++ more) ∧
      chunkSize line = .ok data.length ∧ data ≠ [] ∧ data.length + 2 < Decimal.word64 ∧
      chunksFrom fuel (data :: acc) more = res) ∨
    ∃ e, e ≠ .overflow ∧ res = .error e := by
  rw [chunksFrom] at h
  split at h
  · exact .inr (.inr (.inr ⟨_, by decide, h.symm⟩))
  · rename_i line rest hcut
    have hcut := (Bytes.splitAt?_eq_some_iff crlf_ne_nil).1 hcut
    split at h
    · rename_i e he
      exact .inr (.inr (.inr ⟨e, fun heq => chunkSize_ne_overflow line (heq ▸ he), h.symm⟩))
    · rename_i size hsize
      split at h
      · rename_i hzero
        exact .inl ⟨line, rest, hcut, hzero ▸ hsize, h.symm⟩
      · rename_i hpos
        split at h
        · rename_i hwide
          exact .inr (.inl ⟨line, rest, size, hcut, hsize, hwide, h.symm⟩)
        · rename_i hfits
          split at h
          · rename_i a b more hdrop
            split at h
            · rename_i hab
              have hlen : (rest.take size).length = size := by
                refine List.length_take_of_le (Nat.le_of_not_lt fun hlt => ?_)
                rw [List.drop_eq_nil_of_le (Nat.le_of_lt hlt)] at hdrop
                cases hdrop
              have hrest : rest = rest.take size ++ crlf ++ more := by
                rw [← beq_iff_eq.1 hab, List.append_assoc, List.cons_append, List.cons_append,
                  List.nil_append, ← hdrop, List.take_append_drop]
              refine .inr (.inr (.inl ⟨line, rest.take size, more, hrest ▸ hcut, ?_, ?_, ?_, h⟩))
              · rw [hlen]
                exact hsize
              · intro hnil
                rw [hnil] at hlen
                exact hpos hlen.symm
              · rw [hlen]
                exact Nat.not_le.1 hfits
            · exact .inr (.inr (.inr ⟨_, by decide, h.symm⟩))
          · exact .inr (.inr (.inr ⟨_, by decide, h.symm⟩))

theorem chunked_of_chunksFrom : ∀ {fuel : Nat} {acc : List Bytes} {bs out : Bytes},
    chunksFrom fuel acc bs = .ok out → ∃ body, Chunked bs body ∧ out = acc.reverse.flatten ++ body
  | 0, _, _, _, h => nomatch h
  | fuel + 1, acc, bs, out, h => by
    rcases chunksFrom_succ h with ⟨line, rest, cut, size, hout⟩ | ⟨_, _, _, _, _, _, hout⟩ |
      ⟨line, data, more, cut, size, some, fits, h⟩ | ⟨e, -, hout⟩
    · cases hout
      exact ⟨[], .last cut size, (List.append_nil _).symm⟩
    · cases hout
    · obtain ⟨body, hbody, rfl⟩ := chunked_of_chunksFrom h
      exact ⟨data ++ body, .chunk cut size some fits hbody, by simp⟩
    · cases hout

theorem overflowing_of_chunksFrom : ∀ {fuel : Nat} {acc : List Bytes} {bs : Bytes},
    chunksFrom fuel acc bs = .error .overflow → Overflowing bs
  | 0, _, _, h => nomatch h
  | fuel + 1, acc, bs, h => by
    rcases chunksFrom_succ h with ⟨_, _, _, _, hout⟩ | ⟨line, rest, n, cut, size, wide, -⟩ |
      ⟨line, data, more, cut, size, some, fits, h⟩ | ⟨e, he, hout⟩
    · cases hout
    · exact .here cut size wide
    · exact .behind cut size some fits (overflowing_of_chunksFrom h)
    · exact absurd (Except.error.inj hout).symm he

theorem chunksFrom_of_chunked (h : Chunked bs body) : ∀ {fuel : Nat} (acc : List Bytes),
    bs.length < fuel → chunksFrom fuel acc bs = .ok (acc.reverse.flatten ++ body) := by
  induction h with
  | last cut size =>
    intro fuel acc hf
    cases fuel with
    | zero => exact absurd hf (Nat.not_lt_zero _)
    | succ fuel =>
      rw [chunksFrom, (Bytes.splitAt?_eq_some_iff crlf_ne_nil).2 cut]
      dsimp only
      rw [size, List.append_nil]
      rfl
  | chunk cut size some fits _ ih =>
    intro fuel acc hf
    cases fuel with
    | zero => exact absurd hf (Nat.not_lt_zero _)
    | succ fuel =>
      rw [chunksFrom_chunk fuel acc cut size some fits,
        ih _ (Nat.lt_of_lt_of_le (length_lt_of_cut cut) (Nat.le_of_lt_succ hf))]
      simp

theorem chunksFrom_of_overflowing (h : Overflowing bs) : ∀ {fuel : Nat} (acc : List Bytes),
    bs.length < fuel → chunksFrom fuel acc bs = .error .overflow := by
  induction h with
  | here cut size wide =>
    intro fuel acc hf
    cases fuel with
    | zero => exact absurd hf (Nat.not_lt_zero _)
    | succ fuel =>
      rename_i n
      have hpos : n ≠ 0 := fun h => by
        rw [h] at wide
        exact absurd wide (by decide)
      rw [chunksFrom, (Bytes.splitAt?_eq_some_iff crlf_ne_nil).2 cut]
      dsimp only
      rw [size]
      dsimp only
      rw [if_neg hpos, if_pos wide]
  | behind cut size some fits _ ih =>
    intro fuel acc hf
    cases fuel with
    | zero => exact absurd hf (Nat.not_lt_zero _)
    | succ fuel =>
      rw [chunksFrom_chunk fuel acc cut size some fits,
        ih _ (Nat.lt_of_lt_of_le (length_lt_of_cut cut) (Nat.le_of_lt_succ hf))]

/-- **The chunks that are read are the chunks that are there.** -/
theorem chunks_eq_ok : chunks bs = .ok body ↔ Chunked bs body := by
  constructor
  · intro h
    obtain ⟨body', hbody, rfl⟩ := chunked_of_chunksFrom h
    exact hbody
  · exact fun h => chunksFrom_of_chunked h [] (Nat.lt_succ_self _)

theorem chunks_overflow : chunks bs = .error .overflow ↔ Overflowing bs :=
  ⟨overflowing_of_chunksFrom, fun h => chunksFrom_of_overflowing h [] (Nat.lt_succ_self _)⟩

/-! ## 2. Bodies -/

/-- A body, framed as the headers say: by chunks, by its length, or by the end of the bytes. -/
inductive Framed (hs : Headers) (bs : Bytes) : Bytes → Prop where
  | chunked (body : Bytes) (hc : hs.chunked = true) (h : Chunked bs body) : Framed hs bs body
  | measured (length : String) (n : Nat) (hc : hs.chunked = false)
      (hl : hs.get? "content-length" = some length)
      (hn : Decimal.signed? 10 Decimal.word64 length.toList = some n) (h : n ≤ bs.length) :
      Framed hs bs (bs.take n)
  | toEnd (hc : hs.chunked = false) (hl : hs.get? "content-length" = none) : Framed hs bs bs

theorem frame_eq_ok : frame hs bs = .ok body ↔ Framed hs bs body := by
  unfold frame
  cases hc : hs.chunked with
  | true =>
    rw [if_pos rfl, chunks_eq_ok]
    refine ⟨fun h => .chunked body hc h, fun h => ?_⟩
    cases h with
    | chunked _ _ h => exact h
    | measured _ _ hc' => rw [hc] at hc'; cases hc'
    | toEnd hc' => rw [hc] at hc'; cases hc'
  | false =>
    rw [if_neg Bool.false_ne_true]
    cases hl : hs.get? "content-length" with
    | none =>
      refine ⟨fun h => ?_, fun h => ?_⟩
      · cases h
        exact .toEnd hc hl
      · cases h with
        | chunked _ hc' => rw [hc] at hc'; cases hc'
        | measured _ _ _ hl' => rw [hl] at hl'; cases hl'
        | toEnd => rfl
    | some length =>
      dsimp only
      unfold measured
      cases hn : Decimal.signed? 10 Decimal.word64 length.toList with
      | none =>
        refine ⟨fun h => (nomatch h), fun h => ?_⟩
        cases h with
        | chunked _ hc' => rw [hc] at hc'; cases hc'
        | measured _ _ _ hl' hn' =>
          rw [hl] at hl'
          cases hl'
          rw [hn] at hn'
          cases hn'
        | toEnd _ hl' => rw [hl] at hl'; cases hl'
      | some n =>
        dsimp only
        refine ⟨fun h => ?_, fun h => ?_⟩
        · split at h
          · cases h
          · rename_i hle
            cases h
            exact .measured length n hc hl hn (Nat.le_of_not_lt hle)
        · cases h with
          | chunked _ hc' => rw [hc] at hc'; cases hc'
          | measured _ _ _ hl' hn' hle =>
            rw [hl] at hl'
            cases hl'
            rw [hn] at hn'
            cases hn'
            rw [if_neg (Nat.not_lt.2 hle)]
          | toEnd _ hl' => rw [hl] at hl'; cases hl'

theorem frame_overflow :
    frame hs bs = .error .overflow ↔ hs.chunked = true ∧ Overflowing bs := by
  unfold frame
  cases hc : hs.chunked with
  | true =>
    rw [if_pos rfl, chunks_overflow]
    exact ⟨fun h => ⟨rfl, h⟩, And.right⟩
  | false =>
    rw [if_neg Bool.false_ne_true]
    refine ⟨fun h => ?_, fun h => (nomatch h.1)⟩
    split at h
    · unfold measured at h
      split at h
      · cases h
      · split at h <;> cases h
    · cases h

/-- A text that holds another has it in it. -/
theorem holds_iff {part cs : List Char} : holds part cs = true ↔ part <:+: cs := by
  induction cs with
  | nil => simp [holds]
  | cons c cs ih =>
    rw [holds, Bool.or_eq_true, ih, List.isPrefixOf_iff_prefix, List.infix_cons_iff]

/-- **The headers say where the body ends**: the first transfer coding names chunks, in letters of
    either case, or there is a content length. -/
def Headers.Delimit (hs : Headers) : Prop :=
  (∃ coding, hs.get? "transfer-encoding" = some coding ∧
    "chunked".toList <:+: (Text.lower coding).toList) ∨
  ∃ length, hs.get? "content-length" = some length

theorem delimit_of_chunked (h : hs.chunked = true) : hs.Delimit := by
  unfold Headers.chunked at h
  split at h
  · rename_i coding hcoding
    exact .inl ⟨coding, hcoding, holds_iff.1 h⟩
  · cases h

theorem not_delimit_iff :
    ¬ hs.Delimit ↔ hs.chunked = false ∧ hs.get? "content-length" = none := by
  constructor
  · intro h
    exact ⟨Bool.eq_false_iff.2 fun hc => h (delimit_of_chunked hc),
      Option.eq_none_iff_forall_ne_some.2 fun length hl => h (.inr ⟨length, hl⟩)⟩
  · rintro ⟨hc, hl⟩ (⟨coding, hcoding, hpart⟩ | ⟨length, hlength⟩)
    · rw [Headers.chunked, hcoding] at hc
      exact Bool.eq_false_iff.1 hc (holds_iff.2 hpart)
    · rw [hl] at hlength
      cases hlength

/-- More bytes do not change a body whose end the headers say. -/
theorem Framed.append_of_delimit (h : Framed hs bs body) (hd : hs.Delimit) (more : Bytes) :
    Framed hs (bs ++ more) body := by
  cases h with
  | chunked _ hc h => exact .chunked body hc (h.append more)
  | measured length n hc hl hn h =>
    have hlen : n ≤ (bs ++ more).length := by
      rw [List.length_append]
      exact Nat.le_add_right_of_le h
    have hm := Framed.measured length n hc hl hn hlen
    rwa [List.take_append_of_le_length h] at hm
  | toEnd hc hl => exact absurd hd (not_delimit_iff.2 ⟨hc, hl⟩)

/-- More bytes change no body but one that goes to their end. -/
theorem Framed.append (h : Framed hs bs body) (more : Bytes) :
    Framed hs (bs ++ more) body ∨ Framed hs (bs ++ more) (body ++ more) := by
  by_cases hd : hs.Delimit
  · exact .inl (h.append_of_delimit hd more)
  · obtain ⟨hc, hl⟩ := not_delimit_iff.1 hd
    obtain rfl : bs = body := by
      have hread := frame_eq_ok.2 h
      rw [frame_eq_ok.2 (.toEnd hc hl)] at hread
      exact Except.ok.inj hread
    exact .inr (.toEnd hc hl)

/-- A body is no longer than the bytes in which it is framed. -/
theorem Framed.length_le (h : Framed hs bs body) : body.length ≤ bs.length := by
  cases h with
  | chunked _ _ h => exact h.length_le
  | measured => exact List.length_take_le' _ _
  | toEnd => exact Nat.le_refl _

/-! ## 3. Responses -/

/-- A status line and header lines in front of the first blank line, and what stands behind it. -/
inductive Headed (bs : Bytes) : Nat → Headers → Bytes → Prop where
  | intro (head : String) (line : List Char) (lines : List (List Char)) (status : Nat)
      (rest : Bytes) (cut : CutAt delimiter bs (Bytes.ofText head) rest)
      (parts : linesFrom [] head.toList = line :: lines) (code : statusOf line = .ok status) :
      Headed bs status (lines.filterMap headerOf?) rest

theorem Headed.append (h : Headed bs status hs rest) (more : Bytes) :
    Headed (bs ++ more) status hs (rest ++ more) := by
  cases h with
  | intro head line lines _ _ cut parts code =>
    exact .intro head line lines status _ (cut.append more) parts code

theorem Headed.length_le (h : Headed bs status hs rest) : rest.length ≤ bs.length := by
  cases h with
  | intro _ _ _ _ _ cut =>
    rw [cut.whole, List.length_append]
    exact Nat.le_add_left _ _

/-- Bytes have one head. -/
theorem Headed.unique {status' : Nat} {hs' : Headers} {rest' : Bytes}
    (h : Headed bs status hs rest) (h' : Headed bs status' hs' rest') :
    status = status' ∧ hs = hs' ∧ rest = rest' := by
  cases h with
  | intro head line lines _ _ cut parts code =>
    cases h' with
    | intro head' line' lines' _ _ cut' parts' code' =>
      obtain ⟨hhead, hrest⟩ := cut.unique cut'
      cases Bytes.ofText_injective hhead
      rw [parts] at parts'
      cases parts'
      rw [code] at code'
      cases code'
      exact ⟨rfl, rfl, hrest⟩

/-- A status line does not overflow. -/
theorem statusOf_ne_overflow (line : List Char) : statusOf line ≠ .error .overflow := by
  intro h
  unfold statusOf at h
  dsimp only at h
  split at h
  · cases h
  · split at h
    · cases h
    · split at h <;> cases h

/-- Decoding behind the head. -/
theorem decode_of_headed (h : Headed bs status hs rest) :
    Response.decode bs = (frame hs rest).map fun body => ⟨status, hs, body⟩ := by
  cases h with
  | intro head line lines _ _ cut parts code =>
    unfold Response.decode
    rw [(Bytes.splitAt?_eq_some_iff delimiter_ne_nil).2 cut]
    dsimp only
    rw [Bytes.toText?_ofText]
    dsimp only
    rw [parts]
    dsimp only
    rw [code]
    show (frame _ rest >>= _) = _
    cases frame (lines.filterMap headerOf?) rest <;> rfl

/-- Bytes that are decoded, or would be if a size fitted, have a head. -/
theorem headed_of_decode {res : Except Fault Response} (h : Response.decode bs = res)
    (hres : (∃ r, res = .ok r) ∨ res = .error .overflow) :
    ∃ status hs rest, Headed bs status hs rest := by
  have hne : ∀ e, e ≠ Fault.overflow → res ≠ .error e := by
    rintro e he rfl
    rcases hres with ⟨r, hr⟩ | hr
    · cases hr
    · exact he (Except.error.inj hr)
  unfold Response.decode at h
  split at h
  · exact absurd h.symm (hne _ (by decide))
  · rename_i head rest hcut
    split at h
    · exact absurd h.symm (hne _ (by decide))
    · rename_i text htext
      split at h
      · exact absurd h.symm (hne _ (by decide))
      · rename_i line lines hparts
        cases hcode : statusOf line with
        | error e =>
          rw [hcode] at h
          refine absurd h.symm (hne e ?_)
          rintro rfl
          exact statusOf_ne_overflow line hcode
        | ok status =>
          rw [Bytes.toText?_eq_some_iff.1 htext] at hcut
          exact ⟨status, _, rest, .intro text line lines status rest
            ((Bytes.splitAt?_eq_some_iff delimiter_ne_nil).1 hcut) hparts hcode⟩

/-- **The responses that are decoded are those with a head and a body.** -/
theorem decode_eq_ok : Response.decode bs = .ok r ↔
    ∃ rest, Headed bs r.status r.headers rest ∧ Framed r.headers rest r.body := by
  constructor
  · intro h
    obtain ⟨status, hs, rest, hhead⟩ := headed_of_decode h (.inl ⟨r, rfl⟩)
    rw [decode_of_headed hhead] at h
    cases hf : frame hs rest with
    | error e =>
      rw [hf] at h
      cases h
    | ok body =>
      rw [hf] at h
      cases h
      exact ⟨rest, hhead, frame_eq_ok.1 hf⟩
  · rintro ⟨rest, hhead, hframe⟩
    rw [decode_of_headed hhead, frame_eq_ok.2 hframe]
    rfl

theorem decode_overflow (h : Response.decode bs = .error .overflow) :
    ∃ status hs rest, Headed bs status hs rest ∧ hs.chunked = true ∧ Overflowing rest := by
  obtain ⟨status, hs, rest, hhead⟩ := headed_of_decode h (.inr rfl)
  rw [decode_of_headed hhead] at h
  cases hf : frame hs rest with
  | error e =>
    rw [hf] at h
    cases h
    exact ⟨status, hs, rest, hhead, frame_overflow.1 hf⟩
  | ok body =>
    rw [hf] at h
    cases h

/-- The bytes have a chunk, all in front of it being chunks, whose end is out of its word. -/
def Overwide (bs : Bytes) : Prop :=
  ∃ status hs rest, Headed bs status hs rest ∧ hs.chunked = true ∧ Overflowing rest

theorem decode_eq_overflow : Response.decode bs = .error .overflow ↔ Overwide bs := by
  refine ⟨decode_overflow, ?_⟩
  rintro ⟨status, hs, rest, hhead, hc, hover⟩
  rw [decode_of_headed hhead, frame_overflow.2 ⟨hc, hover⟩]
  rfl

/-- **A response that goes on** keeps its status and its headers, and its body is the same or goes
    on with it. -/
theorem decode_append {r' : Response} (h : Response.decode bs = .ok r)
    (h' : Response.decode (bs ++ more) = .ok r') :
    r'.status = r.status ∧ r'.headers = r.headers ∧
      (r'.body = r.body ∨ r'.body = r.body ++ more) := by
  obtain ⟨rest, hhead, hframe⟩ := decode_eq_ok.1 h
  obtain ⟨rest', hhead', hframe'⟩ := decode_eq_ok.1 h'
  obtain ⟨hstatus, hhs, hrest⟩ := hhead'.unique (hhead.append more)
  refine ⟨hstatus, hhs, ?_⟩
  rw [hrest, hhs] at hframe'
  have hbody := frame_eq_ok.2 hframe'
  rcases hframe.append more with hsame | hlonger
  · rw [frame_eq_ok.2 hsame] at hbody
    exact .inl (Except.ok.inj hbody).symm
  · rw [frame_eq_ok.2 hlonger] at hbody
    exact .inr (Except.ok.inj hbody).symm

/-- The body of a response is no longer than the response. -/
theorem length_body_le (h : Response.decode bs = .ok r) : r.body.length ≤ bs.length := by
  obtain ⟨rest, hhead, hframe⟩ := decode_eq_ok.1 h
  exact Nat.le_trans hframe.length_le hhead.length_le

/-- A size that does not fit still does not when more bytes come. -/
theorem decode_append_overflow (h : Response.decode bs = .error .overflow) (more : Bytes) :
    Response.decode (bs ++ more) = .error .overflow := by
  obtain ⟨status, hs, rest, hhead, hc, hover⟩ := decode_overflow h
  rw [decode_of_headed (hhead.append more), frame_overflow.2 ⟨hc, hover.append more⟩]
  rfl

/-- **A response that says where it ends ends there.** Whatever follows it, it is decoded to the same;
    so of two beginnings of one stream that are decoded to such responses, both give the same. -/
theorem decode_of_delimit (h : Response.decode bs = .ok r) (hd : r.headers.Delimit) :
    (∀ more, Response.decode (bs ++ more) = .ok r) ∧
      ∀ stream front r', bs <+: stream → front <+: stream → Response.decode front = .ok r' →
        r'.headers.Delimit → r' = r := by
  have hmore : ∀ bs r, Response.decode bs = .ok r → r.headers.Delimit →
      ∀ more, Response.decode (bs ++ more) = .ok r := by
    intro bs r h hd more
    obtain ⟨rest, hhead, hframe⟩ := decode_eq_ok.1 h
    exact decode_eq_ok.2 ⟨rest ++ more, hhead.append more, hframe.append_of_delimit hd more⟩
  refine ⟨hmore bs r h hd, ?_⟩
  rintro _ front r' ⟨more, rfl⟩ ⟨more', hstream⟩ h' hd'
  have hdecode := hmore front r' h' hd' more'
  rw [hstream, hmore bs r h hd more] at hdecode
  exact (Except.ok.inj hdecode).symm

set_option maxRecDepth 10000 in
/-- A response in one chunk ends with its last line, also in front of what would be a chunk more. -/
theorem decode_in_front_of_chunk :
    let bs := Bytes.ofText "HTTP/1.1 200 OK\r\nTransfer-Encoding: CHUNKED\r\n\r\n1\r\na\r\n0\r\n"
    let r : Response := ⟨200, [("transfer-encoding", "CHUNKED")], Bytes.ofText "a"⟩
    Response.decode bs = .ok r ∧ r.headers.Delimit ∧
      Response.decode (bs ++ Bytes.ofText "1\r\nb\r\n0\r\n") = .ok r := by
  intro bs r
  have hdecode : Response.decode bs = .ok r := by decide +kernel
  have hdelimit : r.headers.Delimit := delimit_of_chunked (by decide)
  exact ⟨hdecode, hdelimit, (decode_of_delimit hdecode hdelimit).1 _⟩

end RevisionWatch.Http
