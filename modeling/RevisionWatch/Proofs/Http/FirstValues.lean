import RevisionWatch.Proofs.Http.Written
import RevisionWatch.Proofs.Text.Blank
/-!
# What the headers are good for

The headers of a response are kept in the order of their lines, those without a use and those that
come twice among them. Read they are by name alone, and of the headers of a name only the first. So
what counts of the lines is the first value of each name (`FirstValue`): responses whose lines agree
in these (`SameFirst`) and that give one status and go on with the same bytes are the same to
everyone who reads them (`decode_of_sameFirst`), and so are responses whose lines differ in letters,
blanks, order, repetitions or lines that are no headers (`Edited`).
-/

namespace RevisionWatch.Http

open Bytes (CutAt crlf ofText ofLine joinLines)
open Text (Unbroken)

/-! ## 1. What a line gives -/

/-- A line gives the text in front of its first colon as a name, in small letters, and the text
    behind it as a value, both without the blanks around them. -/
inductive Gives (line : String) : String → String → Prop where
  | intro (key rest : String) (parted : line = key ++ ":" ++ rest) (first : ':' ∉ key.toList) :
      Gives line (Text.lower (Text.trim key)) (Text.trim rest)

/-- The first of the lines that gives a name gives it this value. -/
inductive FirstValue : List String → String → String → Prop where
  | here {line : String} {lines : List String} {name value : String}
      (given : Gives line name value) : FirstValue (line :: lines) name value
  | behind {line : String} {lines : List String} {name value : String}
      (other : ∀ value, ¬ Gives line name value) (rest : FirstValue lines name value) :
      FirstValue (line :: lines) name value

/-- The lines agree in the first value of every name, and in the names that have none. -/
def SameFirst (lines lines' : List String) : Prop :=
  ∀ name value, FirstValue lines name value ↔ FirstValue lines' name value

/-- The headers of some lines. -/
def headersOf (lines : List String) : Headers :=
  (lines.map String.toList).filterMap headerOf?

section Lines

variable {line : String} {lines lines' : List String} {name value : String}

/-- A text is cut at the first of a character and nowhere else. -/
theorem cut?_eq_some_iff {mark : Char} {cs front back : List Char} :
    cut? mark cs = some (front, back) ↔ cs = front ++ mark :: back ∧ mark ∉ front := by
  refine ⟨fun h => ?_, fun ⟨hcs, hfront⟩ => by rw [hcs, cut?_append hfront]⟩
  induction cs generalizing front with
  | nil => cases h
  | cons c cs ih =>
    rw [cut?] at h
    split at h
    · rename_i hc
      cases h
      exact ⟨by rw [beq_iff_eq.1 hc]; rfl, List.not_mem_nil⟩
    · rename_i hc
      obtain ⟨⟨front, back⟩, hcut, heq⟩ := Option.map_eq_some_iff.1 h
      cases heq
      obtain ⟨rfl, hfront⟩ := ih hcut
      refine ⟨rfl, fun hmem => ?_⟩
      rcases List.mem_cons.1 hmem with heq | hmem
      · exact hc (beq_iff_eq.2 heq.symm)
      · exact hfront hmem

/-- **The header of a line is what it gives.** -/
theorem headerOf?_eq_some_iff :
    headerOf? line.toList = some (name, value) ↔ Gives line name value := by
  have hname (key : List Char) : String.ofList ((Text.trimChars key).map Text.lowerChar) =
      Text.lower (Text.trim (String.ofList key)) := by
    simp only [Text.lower, Text.trim, String.toList_ofList]
  have hvalue (rest : List Char) :
      String.ofList (Text.trimChars rest) = Text.trim (String.ofList rest) := by
    simp only [Text.trim, String.toList_ofList]
  unfold headerOf?
  rw [Option.map_eq_some_iff]
  constructor
  · rintro ⟨⟨key, rest⟩, hcut, heq⟩
    obtain ⟨hline, hfirst⟩ := cut?_eq_some_iff.1 hcut
    obtain ⟨hkey, hrest⟩ := Prod.mk.inj heq
    rw [← hkey, ← hrest, hname, hvalue]
    refine .intro _ _ ?_ (by rwa [String.toList_ofList])
    rw [← String.toList_inj, hline]
    simp
  · rintro ⟨key, rest, rfl, hfirst⟩
    refine ⟨(key.toList, rest.toList), cut?_eq_some_iff.2 ⟨by simp, hfirst⟩, ?_⟩
    dsimp only
    rw [hname, hvalue, String.ofList_toList, String.ofList_toList]

/-- A line gives one header. -/
theorem Gives.unique {name' value' : String} (h : Gives line name value)
    (h' : Gives line name' value') : name = name' ∧ value = value' := by
  have heq := headerOf?_eq_some_iff.2 h
  rw [headerOf?_eq_some_iff.2 h'] at heq
  obtain ⟨hname, hvalue⟩ := Prod.mk.inj (Option.some.inj heq)
  exact ⟨hname.symm, hvalue.symm⟩

theorem headerOf?_eq_none_iff :
    headerOf? line.toList = none ↔ ∀ name value, ¬ Gives line name value := by
  rw [Option.eq_none_iff_forall_ne_some, Prod.forall]
  exact forall₂_congr fun _ _ => not_congr headerOf?_eq_some_iff

theorem headersOf_append (lines lines' : List String) :
    headersOf (lines ++ lines') = headersOf lines ++ headersOf lines' := by
  unfold headersOf
  rw [List.map_append, List.filterMap_append]

theorem headersOf_cons (line : String) (lines : List String) :
    headersOf (line :: lines) = (headerOf? line.toList).toList ++ headersOf lines := by
  unfold headersOf
  rw [List.map_cons, List.filterMap_cons]
  cases headerOf? line.toList <;> rfl

/-- What is looked up in one line is what it gives. -/
theorem lookup_headerOf? :
    (headerOf? line.toList).toList.lookup name = some value ↔ Gives line name value := by
  rw [← headerOf?_eq_some_iff]
  cases headerOf? line.toList with
  | none => exact ⟨fun h => (nomatch h), fun h => (nomatch h)⟩
  | some header =>
    obtain ⟨key, given⟩ := header
    rw [Option.toList_some, Option.some.injEq, Prod.mk.injEq]
    by_cases hkey : name = key
    · subst hkey
      rw [List.lookup_cons_self, Option.some.injEq]
      exact ⟨fun h => ⟨rfl, h⟩, And.right⟩
    · have hmissed : List.lookup name [(key, given)] = none := by
        rw [List.lookup_cons, beq_eq_false_iff_ne.2 hkey]
        rfl
      rw [hmissed]
      exact ⟨fun h => (nomatch h), fun h => absurd h.1.symm hkey⟩

/-- **What is looked up is the first value.** The induction is on the lines: what is looked up in
    one is found, or looked up in those behind it. -/
theorem lookup_headersOf :
    (headersOf lines).lookup name = some value ↔ FirstValue lines name value := by
  induction lines with
  | nil => exact ⟨fun h => (nomatch h), fun h => (nomatch h)⟩
  | cons line lines ih =>
    rw [headersOf_cons, List.lookup_append]
    cases hline : (headerOf? line.toList).toList.lookup name with
    | some given =>
      have hgiven := lookup_headerOf?.1 hline
      rw [Option.some_or, Option.some.injEq]
      constructor
      · rintro rfl
        exact .here hgiven
      · intro h
        cases h with
        | here hgiven' => exact (hgiven.unique hgiven').2
        | behind other _ => exact absurd hgiven (other given)
    | none =>
      have hother : ∀ value, ¬ Gives line name value := by
        intro value hgiven
        rw [lookup_headerOf?.2 hgiven] at hline
        cases hline
      rw [Option.none_or, ih]
      constructor
      · exact .behind hother
      · intro h
        cases h with
        | here hgiven => exact absurd hgiven (hother value)
        | behind _ rest => exact rest

/-- Lines agree in their first values if nothing that is looked up differs. -/
theorem sameFirst_iff :
    SameFirst lines lines' ↔
      ∀ name, (headersOf lines).lookup name = (headersOf lines').lookup name := by
  refine forall_congr' fun name => ?_
  rw [Option.ext_iff]
  exact forall_congr' fun value => iff_congr lookup_headersOf.symm lookup_headersOf.symm

end Lines

/-! ## 2. Lines that are edited -/

/-- A text of blanks. -/
def Blanks (s : String) : Prop :=
  ∀ c ∈ s.toList, Text.isBlank c = true

/-- **What may be done to the lines**, and undone, and done again. -/
inductive Edited : List String → List String → Prop where
  | recased (before after : List String) (key key' rest : String)
      (same : Text.lower key = Text.lower key') (first : ':' ∉ key.toList) :
      Edited (before ++ (key ++ ":" ++ rest) :: after) (before ++ (key' ++ ":" ++ rest) :: after)
  | padded (before after : List String) (key rest b₁ b₂ b₃ b₄ : String) (first : ':' ∉ key.toList)
      (blank : Blanks b₁ ∧ Blanks b₂ ∧ Blanks b₃ ∧ Blanks b₄) :
      Edited (before ++ (key ++ ":" ++ rest) :: after)
        (before ++ (b₁ ++ key ++ b₂ ++ ":" ++ (b₃ ++ rest ++ b₄)) :: after)
  | swapped (before after : List String) (line line' : String)
      (apart : ∀ name value value', Gives line name value → ¬ Gives line' name value') :
      Edited (before ++ line :: line' :: after) (before ++ line' :: line :: after)
  | repeated (before between after : List String) (line line' : String) (name value value' : String)
      (earlier : Gives line name value) (later : Gives line' name value') :
      Edited (before ++ line :: between ++ after) (before ++ line :: between ++ line' :: after)
  | inserted (before after : List String) (line : String) (none : ':' ∉ line.toList) :
      Edited (before ++ after) (before ++ line :: after)
  | refl (lines : List String) : Edited lines lines
  | symm {lines lines' : List String} (h : Edited lines lines') : Edited lines' lines
  | trans {lines lines' lines'' : List String} (h : Edited lines lines')
      (h' : Edited lines' lines'') : Edited lines lines''

section Edits

variable {line line' : String} {lines lines' : List String} {key key' rest : String}

theorem lower_trim (s : String) : Text.lower (Text.trim s) = Text.trim (Text.lower s) := by
  simp only [Text.lower, Text.trim, String.toList_ofList, Text.map_lowerChar_trimChars]

theorem trim_pad {before after : String} (hbefore : Blanks before) (hafter : Blanks after)
    (s : String) : Text.trim (before ++ s ++ after) = Text.trim s := by
  unfold Text.trim
  rw [String.toList_append, String.toList_append, Text.trimChars_pad hbefore hafter]

/-- A colon is one in letters of either case. -/
theorem colon_mem_of_lower (same : Text.lower key = Text.lower key') (h : ':' ∈ key'.toList) :
    ':' ∈ key.toList := by
  have hmap : key.toList.map Text.lowerChar = key'.toList.map Text.lowerChar :=
    String.ofList_injective same
  have hcolon : Text.lowerChar ':' = ':' := by decide
  have hmem : ':' ∈ key'.toList.map Text.lowerChar := List.mem_map.2 ⟨':', h, hcolon⟩
  rw [← hmap] at hmem
  obtain ⟨c, hc, heq⟩ := List.mem_map.1 hmem
  obtain rfl := (Text.lowerChar_eq_iff (by decide)).1 heq
  exact hc

/-- The header of a line whose name may be cut off. -/
theorem headerOf?_parted (first : ':' ∉ key.toList) :
    headerOf? (key ++ ":" ++ rest).toList =
      some (Text.lower (Text.trim key), Text.trim rest) :=
  headerOf?_eq_some_iff.2 (.intro key rest rfl first)

theorem headerOf?_recased (same : Text.lower key = Text.lower key') (first : ':' ∉ key.toList) :
    headerOf? (key ++ ":" ++ rest).toList = headerOf? (key' ++ ":" ++ rest).toList := by
  rw [headerOf?_parted first, headerOf?_parted fun h => first (colon_mem_of_lower same h),
    lower_trim, lower_trim, same]

theorem headerOf?_padded {b₁ b₂ b₃ b₄ : String} (first : ':' ∉ key.toList)
    (blank : Blanks b₁ ∧ Blanks b₂ ∧ Blanks b₃ ∧ Blanks b₄) :
    headerOf? (key ++ ":" ++ rest).toList =
      headerOf? (b₁ ++ key ++ b₂ ++ ":" ++ (b₃ ++ rest ++ b₄)).toList := by
  obtain ⟨h₁, h₂, h₃, h₄⟩ := blank
  have hblank {b : String} (h : Blanks b) : ':' ∉ b.toList := fun hmem =>
    absurd (h ':' hmem) (by decide)
  have hfirst : ':' ∉ (b₁ ++ key ++ b₂).toList := by
    simp [hblank h₁, hblank h₂, first]
  rw [headerOf?_parted first, headerOf?_parted hfirst, trim_pad h₁ h₂, trim_pad h₃ h₄]

/-- A line without a colon gives nothing. -/
theorem headerOf?_plain (none : ':' ∉ line.toList) : headerOf? line.toList = .none := by
  rw [headerOf?_eq_none_iff]
  rintro name value ⟨key, rest, rfl, first⟩
  simp at none

/-- **Edited lines agree in their first values.** One case for each of the edits. -/
theorem Edited.sameFirst (h : Edited lines lines') : SameFirst lines lines' := by
  rw [sameFirst_iff]
  intro name
  have halike {line line' : String} (heq : headerOf? line.toList = headerOf? line'.toList)
      (before after : List String) :
      headersOf (before ++ line :: after) = headersOf (before ++ line' :: after) := by
    simp only [headersOf_append, headersOf_cons, heq]
  induction h with
  | recased before after key key' rest same first =>
    rw [halike (headerOf?_recased same first)]
  | padded before after key rest b₁ b₂ b₃ b₄ first blank =>
    rw [halike (headerOf?_padded first blank)]
  | swapped before after line line' apart =>
    simp only [headersOf_append, headersOf_cons, List.lookup_append]
    cases hvalue : (headerOf? line.toList).toList.lookup name with
    | none => rw [Option.none_or, Option.none_or]
    | some value =>
      have hnone : (headerOf? line'.toList).toList.lookup name = none :=
        Option.eq_none_iff_forall_ne_some.2 fun value' hvalue' =>
          apart name value value' (lookup_headerOf?.1 hvalue) (lookup_headerOf?.1 hvalue')
      rw [hnone, Option.none_or, Option.none_or]
  | repeated before between after line line' key value value' earlier later =>
    simp only [headersOf_append, headersOf_cons, List.lookup_append]
    by_cases hkey : name = key
    · rw [hkey, lookup_headerOf?.2 earlier]
      simp
    · have hnone : (headerOf? line'.toList).toList.lookup name = none :=
        Option.eq_none_iff_forall_ne_some.2 fun value h =>
          hkey ((lookup_headerOf?.1 h).unique later).1
      rw [hnone, Option.none_or]
  | inserted before after line none =>
    rw [headersOf_append, headersOf_append, headersOf_cons, headerOf?_plain none]
    rfl
  | refl => rfl
  | symm _ ih => exact ih.symm
  | trans _ _ ih ih' => exact ih.trans ih'

end Edits

/-! ## 3. Responses that are the same to a reader -/

/-- Bytes that begin with lines of text up to the first blank line, and what stands behind it. -/
structure Opened (bs : Bytes) (line : String) (lines : List String) (rest : Bytes) : Prop where
  cut : CutAt delimiter bs (ofText (joinLines line lines)) rest
  unbroken : ∀ l ∈ line :: lines, Unbroken l.toList

/-- **The same to whoever reads status, body and headers by name**: both are responses that agree
    in these, the case of a name ignored, or both are the same fault. -/
def Alike : Except Fault Response → Except Fault Response → Prop
  | .ok r, .ok r' => r.status = r'.status ∧ r.body = r'.body ∧
      ∀ name name', Text.lower name = Text.lower name' → r.header? name = r'.header? name'
  | .error fault, .error fault' => fault = fault'
  | _, _ => False

section Responses

variable {bs bs' rest : Bytes} {line line' : String} {lines lines' : List String} {status : Nat}

/-- Lines in front of a blank line open the bytes. -/
theorem opened_of_lines (unbroken : ∀ l ∈ line :: lines, Unbroken l.toList)
    (nonempty : ∀ l ∈ lines, l ≠ "") (rest : Bytes) :
    Opened (ofLine line ++ lines.flatMap ofLine ++ crlf ++ rest) line lines rest :=
  ⟨Bytes.cutAt_lines rest lines line (unbroken line List.mem_cons_self) fun l hl =>
    ⟨unbroken l (List.mem_cons_of_mem _ hl), nonempty l hl⟩, unbroken⟩

/-- **Bytes with a head of text are opened by lines**, whatever the text is. -/
theorem exists_opened {head : String} (cut : CutAt delimiter bs (ofText head) rest) :
    ∃ line lines, Opened bs line lines rest := by
  obtain ⟨line, lines, hjoin, unbroken⟩ := Bytes.exists_joinLines head.toList
  rw [String.ofList_toList] at hjoin
  exact ⟨line, lines, hjoin ▸ cut, unbroken⟩

/-- Lines that open bytes are a head if the first is a status line. -/
theorem Opened.headed (h : Opened bs line lines rest) (code : statusOf line.toList = .ok status) :
    Headed bs status (headersOf lines) rest :=
  .intro _ _ _ status rest h.cut (linesFrom_joinLines lines line (h.unbroken line List.mem_cons_self)
    fun l hl => h.unbroken l (List.mem_cons_of_mem _ hl)) code

/-- A body is framed by what is looked up. -/
theorem frame_congr {hs hs' : Headers} (h : ∀ name, hs.lookup name = hs'.lookup name)
    (bs : Bytes) : frame hs bs = frame hs' bs := by
  have hget : Headers.get? hs = Headers.get? hs' := funext fun name => h (Text.lower name)
  unfold frame Headers.chunked
  rw [hget]

/-- **Headers count by name alone, and by the first of a name.** Bytes that open with lines of one
    status and the same first values, and go on with the same bytes, are decoded to the same status,
    body and headers by name, or to the same fault; so are bytes whose lines are edited. What a
    response says by a name is the first value of the name. -/
theorem decode_of_sameFirst (h : Opened bs line lines rest)
    (code : statusOf line.toList = .ok status) (h' : Opened bs' line' lines' rest)
    (code' : statusOf line'.toList = .ok status) :
    (SameFirst lines lines' → Alike (Response.decode bs) (Response.decode bs')) ∧
      (Edited lines lines' → Alike (Response.decode bs) (Response.decode bs')) ∧
      ∀ r, Response.decode bs = .ok r → r.status = status ∧
        ∀ name value, r.header? name = some value ↔ FirstValue lines (Text.lower name) value := by
  have hdecode := decode_of_headed (h.headed code)
  have halike (same : SameFirst lines lines') :
      Alike (Response.decode bs) (Response.decode bs') := by
    have hlookup := sameFirst_iff.1 same
    rw [hdecode, decode_of_headed (h'.headed code'), frame_congr hlookup rest]
    cases frame (headersOf lines') rest with
    | error fault => exact rfl
    | ok body =>
      refine ⟨rfl, rfl, fun name name' hname => ?_⟩
      show (headersOf lines).lookup (Text.lower name) = (headersOf lines').lookup (Text.lower name')
      rw [hlookup, hname]
  refine ⟨halike, fun edited => halike edited.sameFirst, fun r hr => ?_⟩
  rw [hdecode] at hr
  cases hbody : frame (headersOf lines) rest with
  | error fault => rw [hbody] at hr; cases hr
  | ok body =>
    rw [hbody] at hr
    cases hr
    exact ⟨rfl, fun name value => lookup_headersOf⟩

/-- A length, and the same one in other letters, among blanks and a line that is no header, with
    another behind it. -/
theorem decode_two_heads :
    let lines := ["Content-Length: 2", "X: a"]
    let lines' := ["no header", "x:a", " CONTENT-length\t:2 ", "content-length: 9"]
    let bs := ofLine "HTTP/1.1 200 OK" ++ lines.flatMap ofLine ++ crlf ++ ofText "[]!"
    let bs' := ofLine "HTTP/1.0 +200" ++ lines'.flatMap ofLine ++ crlf ++ ofText "[]!"
    SameFirst lines lines' ∧ Alike (Response.decode bs) (Response.decode bs') := by
  intro lines lines' bs bs'
  have hreturn : ∀ l ∈ "HTTP/1.1 200 OK" :: lines, '\r' ∉ l.toList := by decide
  have hreturn' : ∀ l ∈ "HTTP/1.0 +200" :: lines', '\r' ∉ l.toList := by decide
  have hopened : Opened bs "HTTP/1.1 200 OK" lines (ofText "[]!") :=
    opened_of_lines (fun l hl => Text.unbroken_of_not_mem (hreturn l hl)) (by decide) _
  have hopened' : Opened bs' "HTTP/1.0 +200" lines' (ofText "[]!") :=
    opened_of_lines (fun l hl => Text.unbroken_of_not_mem (hreturn' l hl)) (by decide) _
  have hsame : SameFirst lines lines' := by
    have hheaders : headersOf lines = [("content-length", "2"), ("x", "a")] := by decide
    have hheaders' : headersOf lines' =
        [("x", "a"), ("content-length", "2"), ("content-length", "9")] := by decide
    rw [sameFirst_iff, hheaders, hheaders']
    intro name
    by_cases hlength : name = "content-length"
    · rw [hlength]
      decide
    · by_cases hx : name = "x"
      · rw [hx]
        decide
      · simp [List.lookup_cons, beq_eq_false_iff_ne.2 hlength, beq_eq_false_iff_ne.2 hx]
  have hcode : statusOf "HTTP/1.1 200 OK".toList = .ok 200 := by decide
  have hcode' : statusOf "HTTP/1.0 +200".toList = .ok 200 := by decide
  exact ⟨hsame, (decode_of_sameFirst hopened hcode hopened' hcode').1 hsame⟩

end Responses

end RevisionWatch.Http
