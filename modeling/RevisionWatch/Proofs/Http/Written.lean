import RevisionWatch.Proofs.Http.Chunks
/-!
# Decoding undoes writing

A response is written as a status line, header lines, a blank line and a payload. The payload
carries the body in one of three ways (`Carries`): it begins with the body, whose length a header
gives; it gives the body in pieces, each behind a line with its size (`Pieces`); or it is the body.
However it was written (`Writes`), it is decoded to the status, the headers in order and the body
that were written (`decode_of_writes`).

The body may hold anything, line ends, blank lines and chunks among it, since none of the three ways
looks into it. What stands in front of it is cut at line ends, so no text of a status line may hold
one, and is read as text, so no line may hold other bytes (`not_decoded_as_written`).
-/

namespace RevisionWatch.Http

open Bytes (CutAt crlf ofText ofLine)
open Text (Unbroken)

/-! ## 1. Lines of the head -/

/-- A status line of one of the two versions. -/
def statusLine (minor : Nat) (status : Nat) (reason : String) : String :=
  "HTTP/1." ++ Decimal.text minor ++ " " ++ Decimal.text status ++ " " ++ reason

/-- A header line. -/
def headerLine (h : String × String) : String :=
  h.1 ++ ": " ++ h.2

/-- A text without a blank at either end. -/
def Trimmed (s : String) : Prop :=
  (∀ c ∈ s.toList.head?, Text.isBlank c = false) ∧ ∀ c ∈ s.toList.getLast?, Text.isBlank c = false

-- by the characters of the text here and below: to try all that there are would take too long
instance (s : String) : Decidable (Trimmed s) :=
  decidable_of_iff ((s.toList.head?.all fun c => !Text.isBlank c) ∧
    s.toList.getLast?.all fun c => !Text.isBlank c) <| by
    simp only [Trimmed, Option.all_eq_true, Bool.not_eq_true', Option.mem_def]

/-- A header that fits on its line: no line end in it, no colon in the name, no blank around the
    name or the value. -/
structure Fits (h : String × String) : Prop where
  name : ∀ c ∈ h.1.toList, c ≠ '\r' ∧ c ≠ '\n' ∧ c ≠ ':'
  value : ∀ c ∈ h.2.toList, c ≠ '\r' ∧ c ≠ '\n'
  trimmed : Trimmed h.1 ∧ Trimmed h.2

instance (h : String × String) : Decidable (Fits h) :=
  decidable_of_iff
    ((h.1.toList.all fun c => c ≠ '\r' ∧ c ≠ '\n' ∧ c ≠ ':') ∧
      (h.2.toList.all fun c => c ≠ '\r' ∧ c ≠ '\n') ∧ Trimmed h.1 ∧ Trimmed h.2) <| by
    simp only [List.all_eq_true, decide_eq_true_eq]
    exact ⟨fun ⟨name, value, trimmed⟩ => ⟨name, value, trimmed⟩,
      fun fits => ⟨fits.name, fits.value, fits.trimmed⟩⟩

/-- A header as it is kept. -/
def kept (h : String × String) : String × String :=
  (Text.lower h.1, h.2)

section Lines

variable {cs ds acc : List Char} {h : String × String} {s : String}

/-- An unbroken text is one line. -/
theorem linesFrom_unbroken (hcs : Unbroken cs) : linesFrom acc cs = [acc.reverse ++ cs] := by
  induction cs generalizing acc with
  | nil => simp [linesFrom]
  | cons c cs ih =>
    obtain ⟨hpair, hcs⟩ := Text.unbroken_cons.1 hcs
    rw [linesFrom, ih hcs]
    · simp
    · rintro ds rfl rfl
      exact hpair ⟨rfl, rfl⟩

/-- An unbroken text in front of a line end is one line more. -/
theorem linesFrom_append (hcs : Unbroken cs) (ds : List Char) :
    linesFrom acc (cs ++ '\r' :: '\n' :: ds) = (acc.reverse ++ cs) :: linesFrom [] ds := by
  induction cs generalizing acc with
  | nil => simp [linesFrom]
  | cons c cs ih =>
    obtain ⟨hpair, hcs⟩ := Text.unbroken_cons.1 hcs
    rw [List.cons_append, linesFrom, ih hcs]
    · simp
    · rintro es rfl hes
      cases cs with
      | nil => simp at hes
      | cons d cs => exact hpair ⟨rfl, by rw [← (List.cons.inj hes).1]; rfl⟩

/-- Lines are read as they were joined. -/
theorem linesFrom_joinLines : ∀ (lines : List String) (line : String), Unbroken line.toList →
    (∀ l ∈ lines, Unbroken l.toList) →
      linesFrom [] (Bytes.joinLines line lines).toList = line.toList :: lines.map String.toList
  | [], line, hline, _ => by
    rw [Bytes.joinLines, linesFrom_unbroken hline]
    rfl
  | next :: lines, line, hline, hlines => by
    have hnext := hlines next List.mem_cons_self
    have hrest : ∀ l ∈ lines, Unbroken l.toList := fun l hl => hlines l (List.mem_cons_of_mem _ hl)
    have hjoin : (Bytes.joinLines line (next :: lines)).toList =
        line.toList ++ '\r' :: '\n' :: (Bytes.joinLines next lines).toList := by
      rw [Bytes.joinLines]
      simp
    rw [hjoin, linesFrom_append hline, linesFrom_joinLines lines next hnext hrest]
    rfl

/-- A text without blanks around it is kept as it is. -/
theorem trimChars_of_trimmed (hs : Trimmed s) : Text.trimChars s.toList = s.toList := by
  have hnone : ∀ c ∈ ([] : List Char), Text.isBlank c = true := fun c hc => (nomatch hc)
  have hsame := Text.trimChars_around hnone hnone hs.1 hs.2
  rwa [List.nil_append, List.append_nil] at hsame

/-- A text is cut at the first of a character. -/
theorem cut?_append {mark : Char} (hcs : mark ∉ cs) (ds : List Char) :
    cut? mark (cs ++ mark :: ds) = some (cs, ds) := by
  induction cs with
  | nil => simp [cut?]
  | cons c cs ih =>
    have hc : c ≠ mark := fun heq => hcs (heq ▸ List.mem_cons_self)
    have hrest := ih fun hmem => hcs (List.mem_cons_of_mem _ hmem)
    simp [cut?, hc, hrest]

/-- **A header is read as it was written**, its name in small letters. -/
theorem headerOf?_headerLine (hh : Fits h) : headerOf? (headerLine h).toList = some (kept h) := by
  have hcolon : ':' ∉ h.1.toList := fun hmem => (hh.name _ hmem).2.2 rfl
  have hblank : Text.trimChars (' ' :: h.2.toList) = Text.trimChars h.2.toList := by
    unfold Text.trimChars
    rw [List.dropWhile_cons_of_pos (by decide)]
  have hline : (headerLine h).toList = h.1.toList ++ ':' :: ' ' :: h.2.toList := by
    simp [headerLine]
  unfold headerOf?
  rw [hline, cut?_append hcolon]
  simp [hblank, trimChars_of_trimmed hh.trimmed.1, trimChars_of_trimmed hh.trimmed.2, kept,
    Text.lower]

theorem unbroken_headerLine (hh : Fits h) :
    Unbroken (headerLine h).toList ∧ headerLine h ≠ "" := by
  constructor
  · refine Text.unbroken_of_not_mem fun hmem => ?_
    have hname : '\r' ∉ h.1.toList := fun hmem => (hh.name _ hmem).1 rfl
    have hvalue : '\r' ∉ h.2.toList := fun hmem => (hh.value _ hmem).1 rfl
    simp [headerLine, hname, hvalue] at hmem
  · intro hempty
    have hlist := congrArg String.toList hempty
    simp [headerLine] at hlist

end Lines

/-! ## 2. The status line -/

section Status

variable {minor status : Nat} {reason : String}

/-- A number is read from its decimal form. -/
theorem signed?_text {n limit : Nat} (hn : n < limit) :
    Decimal.signed? 10 limit (Decimal.text n).toList = some n :=
  Decimal.signed?_of_value? (Decimal.value?_text n) hn

theorem toList_statusLine : (statusLine minor status reason).toList =
    versionMark ++ Nat.toDigits 10 minor ++
      ' ' :: (Nat.toDigits 10 status ++ ' ' :: reason.toList) := by
  have hmark : versionMark = "HTTP/1.".toList := rfl
  rw [hmark]
  simp [statusLine, Decimal.toList_text]

theorem not_mem_toDigits {c : Char} (hc : c.isDigit = false) (n : Nat) :
    c ∉ Nat.toDigits 10 n := by
  intro hmem
  have hdigit : c.isDigit = true := Nat.isDigit_of_mem_toDigits (by decide) (by decide) hmem
  rw [hc] at hdigit
  cases hdigit

/-- **The status is read as it was written.** -/
theorem statusOf_statusLine (hs : status < Decimal.word16) :
    statusOf (statusLine minor status reason).toList = .ok status := by
  have hversion : ' ' ∉ versionMark ++ Nat.toDigits 10 minor := by
    rw [List.mem_append, not_or]
    exact ⟨by decide, not_mem_toDigits (by decide) minor⟩
  have htake {cs : List Char} (hcs : ' ' ∉ cs) (ds : List Char) :
      (cs ++ ' ' :: ds).takeWhile (· != ' ') = cs := by
    have hall : ∀ c ∈ cs, (c != ' ') = true := fun c hc =>
      bne_iff_ne.2 fun heq => hcs (heq ▸ hc)
    rw [List.takeWhile_append_of_pos hall]
    simp
  have hmark : versionMark.isPrefixOf (versionMark ++ Nat.toDigits 10 minor) = true := by
    rw [List.isPrefixOf_iff_prefix]
    exact List.prefix_append _ _
  have hread := signed?_text hs
  rw [Decimal.toList_text] at hread
  unfold statusOf
  rw [toList_statusLine]
  simp only [htake hversion, hmark, Bool.not_true, Bool.false_eq_true, if_false,
    cut?_append hversion, htake (not_mem_toDigits (by decide) status), hread]

theorem unbroken_statusLine (hr : Unbroken reason.toList) :
    Unbroken (statusLine minor status reason).toList := by
  have hfront : '\r' ∉ versionMark ++ Nat.toDigits 10 minor ++
      ' ' :: (Nat.toDigits 10 status ++ [' ']) := by
    have hminor : '\r' ∉ Nat.toDigits 10 minor := not_mem_toDigits (by decide) minor
    have hstatus : '\r' ∉ Nat.toDigits 10 status := not_mem_toDigits (by decide) status
    have hmark : '\r' ∉ versionMark := by decide
    simp [hminor, hstatus, hmark]
  have hline : (statusLine minor status reason).toList = versionMark ++ Nat.toDigits 10 minor ++
      ' ' :: (Nat.toDigits 10 status ++ [' ']) ++ reason.toList := by
    rw [toList_statusLine]
    simp
  rw [hline]
  exact hr.append_left hfront

end Status

/-! ## 3. Pieces -/

/-- A line that gives a size: hexadecimal digits of either case, zeros in front, and what may stand
    behind a semicolon. -/
inductive SizeLine (n : Nat) : String → Prop where
  | intro (digits extension : List Char) (zeros : Nat)
      (spelled : digits.map Text.lowerChar = List.replicate zeros '0' ++ Nat.toDigits 16 n)
      (parted : extension = [] ∨ extension.head? = some ';') (unbroken : Unbroken extension) :
      SizeLine n (String.ofList (digits ++ extension))

/-- A payload of pieces, none of them empty, up to a line of size zero. -/
inductive Pieces : List Bytes → Bytes → Prop where
  | last {line : String} (size : SizeLine 0 line) (rest : Bytes) : Pieces [] (ofLine line ++ rest)
  | piece {line : String} {data : Bytes} {pieces : List Bytes} {payload : Bytes}
      (size : SizeLine data.length line) (some : data ≠ []) (rest : Pieces pieces payload) :
      Pieces (data :: pieces) (ofLine line ++ data ++ crlf ++ payload)

section Chunks

variable {n : Nat} {line : String} {pieces : List Bytes} {payload : Bytes}

/-- A size that is written is spelled without a sign, and without blanks around it. -/
theorem SizeLine.spells (h : SizeLine n line) (hn : n < Decimal.word64) :
    SpellsSize n line.toList ∧ Unbroken line.toList := by
  obtain ⟨digits, extension, zeros, spelled, parted, unbroken⟩ := h
  have numeral : Decimal.Numeral 16 digits n := Decimal.value?_eq_some_iff.1
    (Decimal.value?_numeral (by decide) (by decide) spelled)
  rw [String.toList_ofList]
  constructor
  · have hspells : SpellsSize n ([] ++ ([] ++ digits) ++ [] ++ extension) :=
      .intro (fun c hc => (nomatch hc)) (.inl rfl) numeral hn parted
    simpa using hspells
  · refine unbroken.append_left fun hmem => ?_
    have hblank := (plain_of_numeral numeral _ hmem).1
    exact absurd hblank (by decide)

/-- A size is read as it was written. -/
theorem SizeLine.read (h : SizeLine n line) (hn : n < Decimal.word64) :
    chunkSize (ofText line) = .ok n ∧ Unbroken line.toList := by
  obtain ⟨hspells, hunbroken⟩ := h.spells hn
  exact ⟨chunkSize_eq_ok.2 ⟨line.toList, Bytes.ofText_eq_ofChars line, hspells⟩, hunbroken⟩

theorem SizeLine.cut (h : Unbroken line.toList) (back : Bytes) :
    CutAt crlf (ofLine line ++ back) (ofText line) back := by
  have hcut := Bytes.cutAt_line h back
  rwa [← Bytes.ofText_eq_ofChars] at hcut

/-- **Pieces are chunks.** The induction is on the pieces, each of which is a chunk. -/
theorem Pieces.chunked (h : Pieces pieces payload) (hfit : pieces.flatten.length < 2 ^ 63) :
    Chunked payload pieces.flatten := by
  induction h with
  | last size rest =>
    obtain ⟨hread, hline⟩ := size.read (by decide)
    exact .last (SizeLine.cut hline rest) hread
  | @piece line data pieces payload size some rest ih =>
    rw [List.flatten_cons, List.length_append] at hfit
    have hword : Decimal.word64 = 2 * 2 ^ 63 := rfl
    have hfits : data.length + 2 < Decimal.word64 := by omega
    obtain ⟨hread, hline⟩ := size.read (by omega)
    have hcut := SizeLine.cut hline (data ++ crlf ++ payload)
    rw [← List.append_assoc, ← List.append_assoc] at hcut
    rw [List.flatten_cons]
    exact .chunk hcut hread some hfits (ih (by omega))

end Chunks

/-! ## 4. Payloads -/

/-- The header has a name, the case of its letters ignored. -/
def Named (name : String) (h : String × String) : Prop :=
  Text.lower h.1 = name

instance (name : String) (h : String × String) : Decidable (Named name h) :=
  inferInstanceAs (Decidable (_ = _))

/-- **The ways of carrying a body.** Either a length is given and no coding, or a coding is given,
    whatever lengths are, or nothing is. -/
inductive Carries (body : Bytes) : List (String × String) → Bytes → Prop where
  | measured (before after : List (String × String)) (name : String)
      (named : Named "content-length" (name, Decimal.text body.length))
      (others : ∀ h ∈ before ++ after,
        ¬ Named "content-length" h ∧ ¬ Named "transfer-encoding" h) (more : Bytes) :
      Carries body (before ++ (name, Decimal.text body.length) :: after) (body ++ more)
  | pieces (before after : List (String × String)) (name : String)
      (named : Named "transfer-encoding" (name, "chunked"))
      (others : ∀ h ∈ before ++ after, ¬ Named "transfer-encoding" h) (pieces : List Bytes)
      (parted : pieces.flatten = body) (payload : Bytes) (given : Pieces pieces payload) :
      Carries body (before ++ (name, "chunked") :: after) payload
  | toEnd (hs : List (String × String))
      (others : ∀ h ∈ hs, ¬ Named "content-length" h ∧ ¬ Named "transfer-encoding" h) :
      Carries body hs body

section Payloads

variable {hs before : List (String × String)} {name value : String} {body payload : Bytes}

theorem get?_eq_none (hname : Text.lower name = name) (h : ∀ h ∈ hs, ¬ Named name h) :
    Headers.get? (hs.map kept) name = none := by
  unfold Headers.get?
  rw [List.lookup_eq_none_iff, hname]
  intro p hp
  obtain ⟨h', hmem, rfl⟩ := List.mem_map.1 hp
  exact bne_iff_ne.2 fun heq => h h' hmem heq.symm

/-- The first header of a name is found. -/
theorem get?_middle {key : String} (after : List (String × String))
    (hname : Text.lower name = name) (hkey : Named name (key, value))
    (h : ∀ h ∈ before, ¬ Named name h) :
    Headers.get? ((before ++ (key, value) :: after).map kept) name = some value := by
  have hbefore := get?_eq_none hname h
  unfold Headers.get? at hbefore ⊢
  rw [List.map_append, List.lookup_append, hbefore, List.map_cons]
  have hkept : kept (key, value) = (name, value) := Prod.ext hkey rfl
  rw [hkept, hname]
  simp

/-- **A body is framed as it is carried.** -/
theorem Carries.framed (h : Carries body hs payload) (hfit : body.length < 2 ^ 63) :
    Framed (hs.map kept) payload body := by
  have hcoding : Text.lower "transfer-encoding" = "transfer-encoding" := by decide
  have hlength : Text.lower "content-length" = "content-length" := by decide
  cases h with
  | measured before after name named others more =>
    have hnone : Headers.get? ((before ++ (name, Decimal.text body.length) :: after).map kept)
        "transfer-encoding" = none := by
      refine get?_eq_none hcoding fun h hh => ?_
      rcases List.mem_append.1 hh with hh | hh
      · exact (others h (List.mem_append_left _ hh)).2
      · rcases List.mem_cons.1 hh with rfl | hh
        · intro hboth
          have hsame : ("content-length" : String) = "transfer-encoding" :=
            Eq.trans (Eq.symm named) hboth
          exact absurd hsame (by decide)
        · exact (others h (List.mem_append_right _ hh)).2
    have hget := get?_middle after hlength named fun h hh =>
      (others h (List.mem_append_left _ hh)).1
    have hword : Decimal.word64 = 2 * 2 ^ 63 := rfl
    have hread : Decimal.signed? 10 Decimal.word64 (Decimal.text body.length).toList =
        some body.length := signed?_text (by omega)
    have hlong : body.length ≤ (body ++ more).length := by simp
    have hframed := Framed.measured _ _ (by rw [Headers.chunked, hnone]) hget hread hlong
    rwa [List.take_left] at hframed
  | pieces before after name named others pieces parted payload given =>
    have hget := get?_middle after hcoding named fun h hh =>
      others h (List.mem_append_left _ hh)
    refine .chunked body ?_ (parted ▸ given.chunked (parted ▸ hfit))
    rw [Headers.chunked, hget]
    decide
  | toEnd hs others =>
    have hcodings := get?_eq_none hcoding fun h hh => (others h hh).2
    have hlengths := get?_eq_none hlength fun h hh => (others h hh).1
    exact .toEnd (by rw [Headers.chunked, hcodings]) hlengths

end Payloads

/-! ## 5. Responses -/

/-- **A response as it is written**: in one of two versions, with a status, any reason on one line,
    headers and a payload that carries the body. -/
inductive Writes (status : Nat) (hs : List (String × String)) (body : Bytes) : Bytes → Prop where
  | intro (minor : Nat) (version : minor = 0 ∨ minor = 1) (word : status < Decimal.word16)
      (reason : String) (unbroken : Unbroken reason.toList) (fits : ∀ h ∈ hs, Fits h)
      (size : body.length < 2 ^ 63) (payload : Bytes) (carried : Carries body hs payload) :
      Writes status hs body (ofLine (statusLine minor status reason) ++
        (hs.map headerLine).flatMap ofLine ++ crlf ++ payload)

section Responses

variable {status : Nat} {hs : List (String × String)} {body bs : Bytes}

/-- The head of a response is read as it was written. -/
theorem headed_of_fits {minor : Nat} {reason : String} (word : status < Decimal.word16)
    (unbroken : Unbroken reason.toList) (fits : ∀ h ∈ hs, Fits h) (payload : Bytes) :
    Headed (ofLine (statusLine minor status reason) ++ (hs.map headerLine).flatMap ofLine ++ crlf ++
      payload) status (hs.map kept) payload := by
  have hline : Unbroken (statusLine minor status reason).toList := unbroken_statusLine unbroken
  have hlines : ∀ l ∈ hs.map headerLine, Unbroken l.toList ∧ l ≠ "" := by
    intro l hl
    obtain ⟨h, hmem, rfl⟩ := List.mem_map.1 hl
    exact unbroken_headerLine (fits h hmem)
  have hcut := Bytes.cutAt_lines payload _ _ hline hlines
  have hparts := linesFrom_joinLines _ _ hline fun l hl => (hlines l hl).1
  have hheaders : ((hs.map headerLine).map String.toList).filterMap headerOf? = hs.map kept := by
    rw [List.map_map, List.filterMap_map, ← List.filterMap_eq_map]
    exact List.filterMap_congr fun h hmem => headerOf?_headerLine (fits h hmem)
  have hheaded := Headed.intro _ _ _ status payload hcut hparts (statusOf_statusLine word)
  rwa [hheaders] at hheaded

/-- **Decoding undoes writing.** The status, the headers in order with their names in small letters,
    and the body are those that were written; so the status and the body do not depend on the way
    in which the body is carried. -/
theorem decode_of_writes (h : Writes status hs body bs) :
    Response.decode bs = .ok ⟨status, hs.map kept, body⟩ ∧
      ∀ hs' bs', Writes status hs' body bs' →
        (Response.decode bs').map (fun r => (r.status, r.body)) =
          (Response.decode bs).map fun r => (r.status, r.body) := by
  have hdecode : ∀ hs bs, Writes status hs body bs →
      Response.decode bs = .ok ⟨status, hs.map kept, body⟩ := by
    rintro hs _ ⟨minor, version, word, reason, unbroken, fits, size, payload, carried⟩
    exact decode_eq_ok.2 ⟨payload, headed_of_fits word unbroken fits payload, carried.framed size⟩
  refine ⟨hdecode hs bs h, fun hs' bs' h' => ?_⟩
  rw [hdecode hs bs h, hdecode hs' bs' h']
  rfl

set_option maxRecDepth 10000 in
/-- A body with line ends and a last chunk in it is carried in two pieces, beside a wrong length. -/
theorem decode_two_pieces :
    let hs := [("Content-Length", "7"), ("TRANSFER-encoding", "chunked"), ("X", "")]
    let body := ofText "[\r\n0\r\n\r\n1,2]"
    let bs := ofText ("HTTP/1.1 200 OK\r\nContent-Length: 7\r\nTRANSFER-encoding: chunked\r\n" ++
      "X: \r\n\r\n0A;x=1\r\n[\r\n0\r\n\r\n1,\r\n2\r\n2]\r\n0\r\n]")
    Writes 200 hs body bs ∧ Response.decode bs =
      .ok ⟨200, [("content-length", "7"), ("transfer-encoding", "chunked"), ("x", "")], body⟩ := by
  intro hs body bs
  have hlast : Pieces [] (ofText "0\r\n]") :=
    .last (.intro ['0'] [] 0 (by decide) (.inl rfl) (by decide)) (ofText "]")
  have hsecond : Pieces [ofText "2]"] (ofText "2\r\n2]\r\n0\r\n]") :=
    .piece (.intro ['2'] [] 0 (by decide) (.inl rfl) (by decide)) (by decide) hlast
  have hpieces : Pieces [ofText "[\r\n0\r\n\r\n1,", ofText "2]"]
      (ofText "0A;x=1\r\n[\r\n0\r\n\r\n1,\r\n2\r\n2]\r\n0\r\n]") :=
    .piece (.intro ['0', 'A'] [';', 'x', '=', '1'] 1 (by decide) (.inr rfl) (by decide)) (by decide)
      hsecond
  have hcarries : Carries body hs _ :=
    .pieces [("Content-Length", "7")] [("X", "")] "TRANSFER-encoding" (by decide) (by decide) _
      (by decide) _ hpieces
  have hwrites : Writes 200 hs body bs :=
    .intro 1 (.inr rfl) (by decide) "OK" (by decide) (by decide) (by decide) _ hcarries
  exact ⟨hwrites, (decode_of_writes hwrites).1⟩

/-- **What does not fit on a line is not decoded as it was written.** The size of a chunk is read as
    text up to the end of its line, so an extension of other bytes is a fault; a reason with a line
    end in it ends the status line there, and what follows is a header, here a length. -/
theorem not_decoded_as_written :
    Response.decode (ofLine (statusLine 1 200 "OK") ++
        ofLine (headerLine ("Transfer-Encoding", "chunked")) ++ crlf ++
        (ofText "2;x=\"" ++ [0xFF] ++ ofLine "\"" ++ ofLine "[]" ++ ofLine "0" ++ crlf)) =
      .error .sizeNotText ∧
    Response.decode (ofLine (statusLine 1 200 "OK\r\nContent-Length: x") ++ crlf ++ ofText "[]") =
      .error (.invalidLength "x") := by
  decide +kernel

end Responses

end RevisionWatch.Http
