import RevisionWatch.Proofs.Http.Chunks
/-!
# The numbers of a response

Three kinds of numbers stand in a response: the status in its first line, and then the sizes of its
chunks, or its length if it has one and no chunks. Which characters these are is said by the place
where they stand (`Number`).

A response is read only if each of them is a numeral, in base ten or, for a size, in base sixteen;
but a plus may stand in front of any (`numbers_of_decode`). So they are digits and nothing else if
none of them begins with a plus, and only then.
-/

namespace RevisionWatch.Http

open Bytes (CutAt crlf ofChars ofText)

/-! ## 1. Digits -/

/-- The base of a number. -/
inductive Radix where
  | ten
  | sixteen
deriving DecidableEq, Repr

namespace Radix

/-- How many digits there are. -/
def base : Radix → Nat
  | ten => 10
  | sixteen => 16

/-- The ten digits, and in base sixteen six letters in either case. -/
def IsDigit : Radix → Char → Prop
  | ten, c => '0' ≤ c ∧ c ≤ '9'
  | sixteen, c => '0' ≤ c ∧ c ≤ '9' ∨ 'a' ≤ c ∧ c ≤ 'f' ∨ 'A' ≤ c ∧ c ≤ 'F'

/-- **Digits and nothing else**, one or more. -/
structure Digits (radix : Radix) (token : List Char) : Prop where
  nonempty : token ≠ []
  digits : ∀ c ∈ token, radix.IsDigit c

variable {radix : Radix} {token digits : List Char} {n limit : Nat}

theorem isDigit_of_digitIn? {c : Char} {d : Nat} (h : Decimal.digitIn? radix.base c = some d) :
    radix.IsDigit c := by
  cases radix with
  | ten =>
    have hdigit := (Decimal.digitIn?_ten.1 h).1
    simp only [Char.isDigit, Bool.and_eq_true, decide_eq_true_eq] at hdigit
    exact hdigit
  | sixteen =>
    have hd := (Decimal.digitIn?_eq_some_iff.1 h).1
    unfold Decimal.digit? at hd
    split at hd
    · rename_i hc
      exact .inl hc
    · split at hd
      · rename_i hc
        exact .inr (.inl hc)
      · split at hd
        · rename_i hc
          exact .inr (.inr hc)
        · cases hd

/-- A numeral is digits. -/
theorem digits_of_numeral (h : Decimal.Numeral radix.base digits n) : radix.Digits digits := by
  obtain ⟨nonempty, hdigits, small⟩ := h
  rename_i ds
  refine ⟨nonempty, fun c hc => ?_⟩
  have hmem : Decimal.digit? c ∈ digits.map Decimal.digit? := List.mem_map_of_mem hc
  rw [hdigits] at hmem
  obtain ⟨d, hd, hdigit⟩ := List.mem_map.1 hmem
  exact isDigit_of_digitIn? (Decimal.digitIn?_eq_some_iff.2 ⟨hdigit.symm, small d hd⟩)

/-- What is read where a sign is allowed is digits, behind a plus or not. -/
theorem digits_of_signed? (radix : Radix) (h : Decimal.signed? radix.base limit token = some n) :
    ∃ digits, (token = digits ∨ token = '+' :: digits) ∧ radix.Digits digits := by
  obtain ⟨-, sign, digits, hsign, htoken, numeral⟩ := Decimal.signed?_eq_some_iff.1 h
  refine ⟨digits, ?_, digits_of_numeral numeral⟩
  rcases hsign with rfl | rfl
  · exact .inl htoken
  · exact .inr htoken

/-- A plus is no digit. -/
theorem not_digits_plus : ¬ radix.Digits ('+' :: digits) := by
  intro h
  have hplus := h.digits '+' List.mem_cons_self
  cases radix with
  | ten => exact absurd hplus (by unfold IsDigit; decide)
  | sixteen => exact absurd hplus (by unfold IsDigit; decide)

end Radix

/-! ## 2. Where numbers stand -/

/-- The lines that say how long the chunks are, the last for one of size zero. -/
inductive SizeLines : Bytes → List Bytes → Prop where
  | last {bs line rest : Bytes} (cut : CutAt crlf bs line rest) (size : chunkSize line = .ok 0) :
      SizeLines bs [line]
  | chunk {bs line data more : Bytes} {lines : List Bytes}
      (cut : CutAt crlf bs line (data ++ crlf ++ more)) (size : chunkSize line = .ok data.length)
      (some : data ≠ []) (rest : SizeLines more lines) : SizeLines bs (line :: lines)

/-- **The numbers of a response**: the second word of the status line, the content length of a body
    that is framed by it, and the sizes of chunks, each without its extension and the blanks
    around it. -/
inductive Number (bs : Bytes) : Radix → List Char → Prop where
  | status {head : String} {line front back : List Char} {lines : List (List Char)} {rest : Bytes}
      (cut : CutAt delimiter bs (ofText head) rest)
      (parts : linesFrom [] head.toList = line :: lines)
      (word : cut? ' ' line = some (front, back)) : Number bs .ten (back.takeWhile (· != ' '))
  | length {status : Nat} {hs : Headers} {rest : Bytes} {value : String}
      (headed : Headed bs status hs rest) (unchunked : hs.chunked = false)
      (given : hs.get? "content-length" = some value) : Number bs .ten value.toList
  | size {status : Nat} {hs : Headers} {rest : Bytes} {lines : List Bytes} {cs : List Char}
      (headed : Headed bs status hs rest) (chunked : hs.chunked = true)
      (sizes : SizeLines rest lines) (line : ofChars cs ∈ lines) :
      Number bs .sixteen (Text.trimChars (cs.takeWhile (· != ';')))

variable {bs rest body line : Bytes} {lines : List Bytes} {hs : Headers} {status : Nat}
  {r : Response}

/-- Chunks have lines that say how long they are. -/
theorem Chunked.sizeLines (h : Chunked bs body) : ∃ lines, SizeLines bs lines ∧ lines ≠ [] := by
  induction h with
  | last cut size => exact ⟨_, .last cut size, List.cons_ne_nil _ _⟩
  | chunk cut size some _ _ ih =>
    obtain ⟨lines, hlines, -⟩ := ih
    exact ⟨_, .chunk cut size some hlines, List.cons_ne_nil _ _⟩

/-- Each of these lines gives a size. -/
theorem SizeLines.chunkSize (h : SizeLines bs lines) :
    ∀ line ∈ lines, ∃ n, chunkSize line = .ok n := by
  induction h with
  | last cut size => exact List.forall_mem_singleton.2 ⟨0, size⟩
  | chunk cut size some _ ih => exact List.forall_mem_cons.2 ⟨⟨_, size⟩, ih⟩

/-- A line gives a size if its number is one. -/
theorem signed?_of_chunkSize {cs : List Char} {n : Nat} (h : chunkSize (ofChars cs) = .ok n) :
    Decimal.signed? 16 Decimal.word64 (Text.trimChars (cs.takeWhile (· != ';'))) = some n := by
  obtain ⟨cs', hline, hspells⟩ := chunkSize_eq_ok.1 h
  rw [Bytes.ofChars_injective hline]
  exact hspells.read

/-- A status line gives a status if its second word is one. -/
theorem signed?_of_statusOf {line : List Char} (h : statusOf line = .ok status) :
    ∃ front back, cut? ' ' line = some (front, back) ∧
      Decimal.signed? 10 Decimal.word16 (back.takeWhile (· != ' ')) = some status := by
  unfold statusOf at h
  dsimp only at h
  split at h
  · cases h
  · split at h
    · cases h
    · rename_i front back hcut
      split at h
      · rename_i n hn
        cases h
        exact ⟨front, back, hcut, hn⟩
      · cases h

/-- The status of a response that is read is digits, behind a plus or not. -/
theorem digits_of_status {head : String} {line front back : List Char} {lines : List (List Char)}
    {rest' : Bytes} (h : Headed bs status hs rest) (cut : CutAt delimiter bs (ofText head) rest')
    (parts : linesFrom [] head.toList = line :: lines) (word : cut? ' ' line = some (front, back)) :
    ∃ digits, (back.takeWhile (· != ' ') = digits ∨ back.takeWhile (· != ' ') = '+' :: digits) ∧
      Radix.Digits .ten digits := by
  obtain ⟨head', line', lines', _, _, cut', parts', code⟩ := h
  cases Bytes.ofText_injective (cut.unique cut').1
  cases parts.symm.trans parts'
  obtain ⟨front', back', word', hsigned⟩ := signed?_of_statusOf code
  cases word.symm.trans word'
  exact Radix.digits_of_signed? .ten hsigned

/-- There is a status. -/
theorem Headed.exists_status (h : Headed bs status hs rest) : ∃ token, Number bs .ten token := by
  obtain ⟨head, line, lines, _, _, cut, parts, code⟩ := h
  obtain ⟨front, back, word, -⟩ := signed?_of_statusOf code
  exact ⟨_, .status cut parts word⟩

/-- The length that frames a body is digits, behind a plus or not. -/
theorem digits_of_length {value : String} (h : Framed hs rest body) (hc : hs.chunked = false)
    (hl : hs.get? "content-length" = some value) :
    ∃ digits, (value.toList = digits ∨ value.toList = '+' :: digits) ∧
      Radix.Digits .ten digits := by
  cases h with
  | chunked _ hc' => rw [hc] at hc'; cases hc'
  | toEnd _ hl' => rw [hl] at hl'; cases hl'
  | measured length n _ hl' hn =>
    rw [hl] at hl'
    cases hl'
    exact Radix.digits_of_signed? .ten hn

/-- Chunks have sizes. -/
theorem Framed.exists_size (h : Framed hs rest body) (hhead : Headed bs status hs rest)
    (hc : hs.chunked = true) : ∃ token, Number bs .sixteen token := by
  cases h with
  | chunked _ _ hchunks =>
    obtain ⟨lines, sizes, hsome⟩ := hchunks.sizeLines
    obtain ⟨line, hline⟩ := List.exists_mem_of_ne_nil lines hsome
    obtain ⟨n, hsize⟩ := sizes.chunkSize line hline
    obtain ⟨cs, rfl, -⟩ := chunkSize_eq_ok.1 hsize
    exact ⟨_, .size hhead hc sizes hline⟩
  | measured _ _ hc' => rw [hc] at hc'; cases hc'
  | toEnd hc' => rw [hc] at hc'; cases hc'

/-- **The numbers of a response that is read** are digits, and in front of them a plus or nothing.
    There is a status among them, and a size if there are chunks. They are digits and nothing else if
    and only if none begins with a plus. -/
theorem numbers_of_decode (h : Response.decode bs = .ok r) :
    (∀ radix token, Number bs radix token →
      ∃ digits, (token = digits ∨ token = '+' :: digits) ∧ radix.Digits digits) ∧
    (∃ token, Number bs .ten token) ∧
    (r.headers.chunked = true → ∃ token, Number bs .sixteen token) ∧
    ((∀ radix token, Number bs radix token → radix.Digits token) ↔
      ∀ radix token, Number bs radix token → token.head? ≠ some '+') := by
  obtain ⟨rest, hhead, hframe⟩ := decode_eq_ok.1 h
  have hnumbers : ∀ radix token, Number bs radix token →
      ∃ digits, (token = digits ∨ token = '+' :: digits) ∧ radix.Digits digits := by
    intro radix token hnumber
    cases hnumber with
    | status cut parts word => exact digits_of_status hhead cut parts word
    | length headed unchunked given =>
      obtain ⟨-, rfl, rfl⟩ := headed.unique hhead
      exact digits_of_length hframe unchunked given
    | size headed chunked sizes line =>
      obtain ⟨n, hsize⟩ := sizes.chunkSize _ line
      exact Radix.digits_of_signed? .sixteen (signed?_of_chunkSize hsize)
  refine ⟨hnumbers, hhead.exists_status, hframe.exists_size hhead,
    fun hdigits radix token hnumber => ?_, fun hplain radix token hnumber => ?_⟩
  · intro hplus
    obtain ⟨digits, rfl⟩ := List.head?_eq_some_iff.1 hplus
    exact Radix.not_digits_plus (hdigits radix _ hnumber)
  · obtain ⟨digits, rfl | rfl, hdigits⟩ := hnumbers radix token hnumber
    · exact hdigits
    · exact absurd rfl (hplain radix _ hnumber)

set_option maxRecDepth 10000 in
/-- Two chunk sizes, one with an extension, behind a status in digits. -/
theorem numbers_of_two_chunks :
    let bs := ofText "HTTP/1.1 200 OK\r\nTransfer-Encoding: chunked\r\n\r\n0A;x\r\n0123456789\r\n0\r\n"
    Response.decode bs = .ok ⟨200, [("transfer-encoding", "chunked")], ofText "0123456789"⟩ ∧
      (∃ token, Number bs .ten token) ∧ (∃ token, Number bs .sixteen token) ∧
      ∀ token, Number bs .sixteen token →
        ∃ digits, (token = digits ∨ token = '+' :: digits) ∧ Radix.Digits .sixteen digits := by
  intro bs
  have hread : Response.decode bs =
      .ok ⟨200, [("transfer-encoding", "chunked")], ofText "0123456789"⟩ := by decide +kernel
  obtain ⟨hnumbers, hstatus, hsize, -⟩ := numbers_of_decode hread
  exact ⟨hread, hstatus, hsize (by decide), hnumbers .sixteen⟩

set_option maxRecDepth 10000 in
/-- **A plus is accepted** in front of a status, of a length and of a size. -/
theorem plus_accepted :
    let status := ofText "HTTP/1.1 +200 OK\r\n\r\n"
    let length := ofText "HTTP/1.1 200 OK\r\nContent-Length: +2\r\n\r\n[]"
    let size := ofText "HTTP/1.1 200 OK\r\nTransfer-Encoding: chunked\r\n\r\n+2\r\n[]\r\n+0\r\n"
    (Response.decode status = .ok ⟨200, [], []⟩ ∧ Number status .ten "+200".toList) ∧
    (Response.decode length = .ok ⟨200, [("content-length", "+2")], ofText "[]"⟩ ∧
      Number length .ten "+2".toList) ∧
    (Response.decode size = .ok ⟨200, [("transfer-encoding", "chunked")], ofText "[]"⟩ ∧
      Number size .sixteen "+2".toList) ∧
    ∀ radix digits, ¬ Radix.Digits radix ('+' :: digits) := by
  intro status length size
  have hstatus : Response.decode status = .ok ⟨200, [], []⟩ := by decide +kernel
  have hlength : Response.decode length = .ok ⟨200, [("content-length", "+2")], ofText "[]"⟩ := by
    decide +kernel
  have hsize : Response.decode size =
      .ok ⟨200, [("transfer-encoding", "chunked")], ofText "[]"⟩ := by decide +kernel
  refine ⟨⟨hstatus, ?_⟩, ⟨hlength, ?_⟩, ⟨hsize, ?_⟩, fun _ _ => Radix.not_digits_plus⟩
  · have hcut : CutAt delimiter status (ofText "HTTP/1.1 +200 OK") [] :=
      (Bytes.splitAt?_eq_some_iff delimiter_ne_nil).1 (by decide +kernel)
    have hparts : linesFrom [] "HTTP/1.1 +200 OK".toList = ["HTTP/1.1 +200 OK".toList] := by
      decide +kernel
    have hword : cut? ' ' "HTTP/1.1 +200 OK".toList = some ("HTTP/1.1".toList, "+200 OK".toList) := by
      decide +kernel
    exact .status hcut hparts hword
  · obtain ⟨rest, headed, -⟩ := decode_eq_ok.1 hlength
    exact .length headed rfl rfl
  · have hcut : CutAt delimiter size
        (ofText "HTTP/1.1 200 OK\r\nTransfer-Encoding: chunked")
        (ofText "+2\r\n[]\r\n+0\r\n") :=
      (Bytes.splitAt?_eq_some_iff delimiter_ne_nil).1 (by decide +kernel)
    have hhead : Headed size 200 [("transfer-encoding", "chunked")] (ofText "+2\r\n[]\r\n+0\r\n") :=
      .intro _ "HTTP/1.1 200 OK".toList ["Transfer-Encoding: chunked".toList] 200 _ hcut
        (by decide +kernel) (by decide +kernel)
    have hfirst : CutAt crlf (ofText "+2\r\n[]\r\n+0\r\n") (ofText "+2")
        (ofText "[]" ++ crlf ++ ofText "+0\r\n") :=
      (Bytes.splitAt?_eq_some_iff crlf_ne_nil).1 (by decide +kernel)
    have hlast : CutAt crlf (ofText "+0\r\n") (ofText "+0") [] :=
      (Bytes.splitAt?_eq_some_iff crlf_ne_nil).1 (by decide +kernel)
    have hlines : SizeLines (ofText "+2\r\n[]\r\n+0\r\n") [ofText "+2", ofText "+0"] :=
      .chunk hfirst (by decide +kernel) (by decide) (.last hlast (by decide +kernel))
    have hline : ofChars "+2".toList ∈ [ofText "+2", ofText "+0"] := List.mem_cons_self
    exact .size hhead (by decide +kernel) hlines hline

end RevisionWatch.Http
