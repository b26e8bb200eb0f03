import RevisionWatch.Proofs.Daemon.Agreement
import RevisionWatch.Proofs.Daemon.Ignored
import RevisionWatch.Proofs.Json.Keepable
import RevisionWatch.Proofs.Json.Members
/-!
# One odd neighbour

The revision of an entry is kept as any value until the entry is asked for, so that an entry with an
odd revision does not spoil the answer about another one. It does not, if the value can be kept: the
entries are the same but for this revision, and the answer about every other name is the same
(`Spared`). A value that cannot be kept fails the reading of the whole list, and with it every answer
(`Spoilt`), though nobody asked for the revision (`odd_neighbour_spoils`). So the values that a
neighbour may have are exactly those that can be kept (`query_beside_neighbour`).
-/

namespace RevisionWatch.Daemon

open Json (Tree IsText Takes Keepable Replaced Spells)

variable {name : String} {room place : Nat} {old new t t' : Tree} {ts ts' : List Tree}
  {ms ms' : List (Bytes × Tree)} {e e' : Entry} {es : List Entry}

/-! ## 1. Entries in a row -/

/-- In two lists that are related one by one, an item and its partner may be replaced. -/
theorem exists_middle_of_forall₂ {R : Tree → Entry → Prop} {front back : List Tree} :
    ∀ {es : List Entry}, List.Forall₂ R (front ++ t :: back) es →
      ∃ e, es[front.length]? = some e ∧ R t e ∧
        ∀ t' e', R t' e' → List.Forall₂ R (front ++ t' :: back) (es.set front.length e') := by
  induction front with
  | nil =>
    intro es h
    obtain ⟨e, es, he, hrest, rfl⟩ := List.forall₂_cons_left_iff.1 h
    exact ⟨e, rfl, he, fun t' e' he' => .cons he' hrest⟩
  | cons u front ih =>
    intro es h
    obtain ⟨e₀, es, he₀, hrest, rfl⟩ := List.forall₂_cons_left_iff.1 h
    obtain ⟨e, hplace, he, hset⟩ := ih hrest
    exact ⟨e, hplace, he, fun t' e' he' => .cons he₀ (hset t' e' he')⟩

/-- The answer about a name is that of the first entry of the name, so an entry of another name may
    be replaced by one that is not of the name either. -/
theorem find?_set (hplace : es[place]? = some e) (hne : e.name ≠ name) (hne' : e'.name ≠ name) :
    find? name (es.set place e') = find? name es := by
  have hfirst : (es.set place e').find? (·.name == name) = es.find? (·.name == name) := by
    induction es generalizing place with
    | nil => rfl
    | cons e₀ es ih =>
      cases place with
      | zero =>
        obtain rfl := Option.some.inj hplace
        rw [List.set_cons_zero, List.find?_cons_of_neg (by simpa using hne'),
          List.find?_cons_of_neg (by simpa using hne)]
      | succ place => rw [List.set_cons_succ, List.find?_cons, List.find?_cons, ih hplace]
  unfold find?
  rw [hfirst]

/-! ## 2. A revision that is replaced -/

theorem Entry.takes_replaced (ht : t.Spelled) (ht' : t'.Spelled)
    (hreplaced : Replaced Entry.layout.keys "revision" old new t t')
    (htakes : Takes (Entry.layout.read (room + 1)) t e) :
    (∃ v, Takes (Json.value room) old v) ∧ ∀ v, Takes (Json.value room) new v →
      Takes (Entry.layout.read (room + 1)) t' { e with revision := v } := by
  obtain ⟨d, v, hv, hfinish, hother⟩ := Json.Layout.takes_replaced Entry.layout_orderly (by decide)
    (.tail _ (.head _)) Json.value_steady ht ht' hreplaced htakes
  refine ⟨⟨v, hv⟩, fun v' hv' => hother v' _ hv' ?_⟩
  obtain ⟨name, revision, version, apps⟩ := d
  cases name with
  | none => cases hfinish
  | some name =>
    cases hfinish
    rfl

/-- The result of an answer is read as the entries, and another result as others. -/
theorem listing_takes_replaced (ht : (Tree.object ms).Spelled) (ht' : (Tree.object ms').Spelled)
    (hreplaced : Replaced listing.keys "result" (.list ts) (.list ts') (.object ms) (.object ms'))
    (htakes : Takes (listing.read (room + 2)) (.object ms) es) :
    List.Forall₂ (Takes (Entry.layout.read room)) ts es ∧
      ∀ es', List.Forall₂ (Takes (Entry.layout.read room)) ts' es' →
        Takes (listing.read (room + 2)) (.object ms') es' := by
  obtain ⟨d, es₀, hes, hfinish, hother⟩ := Json.Layout.takes_replaced listing_orderly (by decide)
    (.head _) entries_steady ht ht' hreplaced htakes
  obtain rfl : es₀ = es := Except.ok.inj hfinish
  obtain ⟨bs, rest, hs⟩ := hreplaced.spelled_old ht
  have hread := Json.Layout.read_steady Entry.layout_orderly
  obtain ⟨room', ts₀, hroom, hlist, hall⟩ := Json.listOf_takes hread hes hs
  cases hroom
  cases hlist
  exact ⟨hall, fun es' hes' => hother es' es' (Json.takes_listOf hes') rfl⟩

/-- The envelope does not depend on the result. -/
theorem envelopeVaries_of_replaced
    (h : Replaced listing.keys "result" old new (.object ms) (.object ms')) :
    EnvelopeVaries ms ms' := by
  cases h with
  | member before after raw named =>
    have hsame (rest : List (Bytes × Tree)) : List.Forall₂
        (Json.MemberVaries fun key t t' => key ∈ Envelope.layout.keys → t = t') rest rest :=
      List.forall₂_same.2 fun m _ => ⟨rfl, fun _ _ _ => rfl⟩
    have hresult : Json.MemberVaries (fun key t t' => key ∈ Envelope.layout.keys → t = t')
        (raw, old) (raw, new) :=
      Json.memberVaries_of_key named fun hkey => absurd hkey (by decide)
    have hvalues := List.rel_append (hsame before) (.cons hresult (hsame after))
    have horder : ([] ++ (before ++ (raw, new) :: after)).Perm (before ++ (raw, new) :: after) :=
      .refl _
    exact .intro hvalues (fun m hm => absurd hm List.not_mem_nil) horder

/-! ## 3. Neighbours -/

/-- The containers that a revision may open: the answer, its list and the entry are open already. -/
def revisionRoom : Nat :=
  Json.depthLimit - 3

/-- **The revision of a neighbour is another**: at the place among the entries of an answer stands
    one that is not of the name, and of this one the revision is replaced. -/
inductive NeighbourReplaced (name : String) (new : Tree) :
    Nat → List (Bytes × Tree) → List (Bytes × Tree) → Prop where
  | intro {ms ms' : List (Bytes × Tree)} (front back : List Tree) (entry entry' old : Tree)
      (other : ¬ NamedTree name entry)
      (revision : Replaced Entry.layout.keys "revision" old new entry entry')
      (answer : Replaced listing.keys "result" (.list (front ++ entry :: back))
        (.list (front ++ entry' :: back)) (.object ms) (.object ms')) :
      NeighbourReplaced name new front.length ms ms'

theorem NeighbourReplaced.spelled_new (h : NeighbourReplaced name new place ms ms')
    (ht' : (Tree.object ms').Spelled) : new.Spelled := by
  obtain ⟨front, back, entry, entry', old, -, revision, answer⟩ := h
  refine revision.symm.spelled_old ((answer.symm.spelled_old ht').items entry' ?_)
  exact List.mem_append_right _ List.mem_cons_self

/-- **The entries that are listed if a revision is another**: with a value that is read the entries
    are the same but for this one, and they are not read at all with any other value. -/
theorem listing_neighbour (ht : (Tree.object ms).Spelled) (ht' : (Tree.object ms').Spelled)
    (hreplaced : NeighbourReplaced name new place ms ms')
    (htakes : Takes (listing.read Json.depthLimit) (.object ms) es) :
    (∀ v, Takes (Json.value revisionRoom) new v → ∃ e, es[place]? = some e ∧ e.name ≠ name ∧
      Takes (listing.read Json.depthLimit) (.object ms') (es.set place { e with revision := v })) ∧
    ∀ es', Takes (listing.read Json.depthLimit) (.object ms') es' → Keepable revisionRoom new := by
  obtain ⟨front, back, entry, entry', old, other, revision, answer⟩ := hreplaced
  have hentry : entry.Spelled :=
    (answer.spelled_old ht).items _ (List.mem_append_right _ List.mem_cons_self)
  have hentry' : entry'.Spelled :=
    (answer.symm.spelled_old ht').items _ (List.mem_append_right _ List.mem_cons_self)
  constructor
  · intro v hv
    obtain ⟨hall, hother⟩ := listing_takes_replaced ht ht' answer htakes
    obtain ⟨e, hplace, he, hset⟩ := exists_middle_of_forall₂ hall
    obtain ⟨bs, rest, hs⟩ := hentry
    have hnamed : NamedTree e.name entry := by
      obtain ⟨t, hs', hmeans⟩ := Entry.sound _ (he hs)
      obtain ⟨rfl, -⟩ := hs.value_unique hs'
      exact hmeans.name
    refine ⟨e, hplace, fun hname => other (hname ▸ hnamed), hother _ (hset _ _ ?_)⟩
    exact (Entry.takes_replaced hs.spelled hentry' revision he).2 v hv
  · intro es' htakes'
    obtain ⟨hall, -⟩ := listing_takes_replaced ht' ht answer.symm htakes'
    obtain ⟨e', -, he', -⟩ := exists_middle_of_forall₂ hall
    obtain ⟨v, hv⟩ := (Entry.takes_replaced hentry' hentry revision.symm he').1
    exact (Json.exists_value_iff (revision.symm.spelled_old hentry')).1 ⟨v, hv⟩

theorem entries_neighbour {r r' : Http.Response} (h : entries r = .ok es)
    (hsuccess : r'.succeeded = true) (htext : IsText r.body (.object ms))
    (htext' : IsText r'.body (.object ms')) (hreplaced : NeighbourReplaced name new place ms ms') :
    (Keepable revisionRoom new → ∃ e v, es[place]? = some e ∧ e.name ≠ name ∧
      Takes (Json.value revisionRoom) new v ∧
      entries r' = .ok (es.set place { e with revision := v })) ∧
    (¬ Keepable revisionRoom new → ∃ fault, entries r' = .error (.unreadable fault)) := by
  obtain ⟨-, ⟨envelope, henvelope, hgood⟩, hlisting⟩ := entries_eq_ok.1 h
  have hvaries : EnvelopeVaries ms ms' := by
    obtain ⟨front, back, entry, entry', old, -, -, answer⟩ := hreplaced
    exact envelopeVaries_of_replaced answer
  have henvelope' := Envelope.ofJson_varied henvelope htext htext' hvaries
  have hentries' := entries_of_good hsuccess henvelope' hgood
  obtain ⟨hkept, hlost⟩ := listing_neighbour htext.spelled htext'.spelled hreplaced
    ((listingOfJson_eq_ok htext).1 hlisting)
  constructor
  · intro hkeep
    obtain ⟨v, hv⟩ := (Json.exists_value_iff (hreplaced.spelled_new htext'.spelled)).2 hkeep
    obtain ⟨e, hplace, hne, htakes'⟩ := hkept v hv
    refine ⟨e, v, hplace, hne, hv, ?_⟩
    rw [hentries', (listingOfJson_eq_ok htext').2 htakes']
    rfl
  · intro hodd
    cases hlisting' : listingOfJson r'.body with
    | ok es' => exact absurd (hlost es' ((listingOfJson_eq_ok htext').1 hlisting')) hodd
    | error fault =>
      refine ⟨fault, ?_⟩
      rw [hentries', hlisting']
      rfl

/-! ## 4. Answers -/

/-- **The answers are as before**: the name is found, and the list shows all entries, the one at the
    place, which is not of the name, with what is read as its revision. -/
structure Spared (name : String) (p : Package) (es : List Entry) (place : Nat) (new : Tree)
    (answer : Except Error Http.Response) : Prop where
  query : query name answer = .ok (some p)
  installed : installed name answer = .ok true
  list : ∃ ps e v, list answer = .ok ps ∧ es[place]? = some e ∧ e.name ≠ name ∧
    Takes (Json.value revisionRoom) new v ∧ ShowsAll (es.set place { e with revision := v }) ps ∧
    ∀ i, i ≠ place → ∀ other q, es[i]? = some other → other.package = .ok q → q ∈ ps

/-- **No question is answered**: each fails as the reading of the whole answer does. -/
def Spoilt (answer : Except Error Http.Response) : Prop :=
  ∃ fault, list answer = .error (.unreadable fault) ∧ ∀ name,
    query name answer = .error (.unreadable fault) ∧
    installed name answer = .error (.unreadable fault)

variable {answer : Except Error Http.Response} {p : Package}

theorem spared {v : Json.Value}
    (h : (answer >>= entries) = .ok (es.set place { e with revision := v }))
    (hfind : find? name es = .ok (some p)) (hplace : es[place]? = some e) (hne : e.name ≠ name)
    (hv : Takes (Json.value revisionRoom) new v) : Spared name p es place new answer := by
  have hquery : query name answer = .ok (some p) := by
    have hne' : Entry.name { e with revision := v } ≠ name := hne
    rw [query_eq, h, ok_bind, find?_set hplace hne hne']
    exact hfind
  have hlist : list answer = .ok (packages (es.set place { e with revision := v })) := by
    rw [list_eq, h]
    rfl
  refine ⟨hquery, installed_eq_ok.2 ⟨some p, hquery, rfl⟩,
    ⟨_, e, v, hlist, hplace, hne, hv, lists_packages _, fun i hi other q hother hq => ?_⟩⟩
  refine (lists_packages _).mem_iff.2 ⟨other, List.mem_iff_getElem?.2 ⟨i, ?_⟩, hq⟩
  rw [List.getElem?_set_ne hi.symm]
  exact hother

variable {s : Socket} {endpoint : Endpoint} {sent : Bytes}

/-- **Which values a neighbour may have as its revision.** A reply by which a package is found has an
    object as its body, and in every other reply whose body differs by the revision of an entry of
    another name the package is found again and every other entry is listed, if the value can be
    kept where it stands. If it cannot, no question is answered from this reply. -/
theorem query_beside_neighbour (h : query name (s.get endpoint (.closes sent)) = .ok (some p)) :
    ∃ r ms es, Http.Response.decode sent = .ok r ∧ IsText r.body (.object ms) ∧
      entries r = .ok es ∧
      ∀ sent' r' ms' new place, sent'.length ≤ s.limit → Http.Response.decode sent' = .ok r' →
        r'.succeeded = true → IsText r'.body (.object ms') →
        NeighbourReplaced name new place ms ms' →
          (Keepable revisionRoom new →
            Spared name p es place new (s.get endpoint (.closes sent'))) ∧
          (¬ Keepable revisionRoom new → Spoilt (s.get endpoint (.closes sent'))) := by
  rw [query_eq] at h
  obtain ⟨es, hes, hfind⟩ := bind_eq_ok h
  obtain ⟨r, hget, hentries⟩ := bind_eq_ok hes
  obtain ⟨ms, htext⟩ := object_of_entries hentries
  refine ⟨r, ms, es, decode_of_get hget, htext, hentries, ?_⟩
  intro sent' r' ms' new place hlen hdecode' hsuccess htext' hreplaced
  have hget' := get_of_decode hget hlen hdecode'
  obtain ⟨hkept, hlost⟩ := entries_neighbour hentries hsuccess htext htext' hreplaced
  constructor
  · intro hkeep
    obtain ⟨e, v, hplace, hother, hv, hentries'⟩ := hkept hkeep
    refine spared ?_ hfind hplace hother hv
    rw [hget']
    exact hentries'
  · intro hodd
    obtain ⟨fault, hentries'⟩ := hlost hodd
    have hanswer : (s.get endpoint (.closes sent') >>= entries) = .error (.unreadable fault) := by
      rw [hget']
      exact hentries'
    exact ⟨fault, answers_of_unread hanswer⟩

/-- A text of plain bytes as a member of a key. -/
private def textMember (key text : String) : Bytes × Tree :=
  (Bytes.ofText key, .text (Bytes.ofText text))

private def oddEntry (revision : Tree) : Tree :=
  .object [textMember "name" "odd", (Bytes.ofText "revision", revision)]

private def agentEntry : Tree :=
  .object [textMember "name" "agent", textMember "revision" "x42"]

/-- The members of an answer in which the agent has a neighbour in front. -/
private def besideOdd (revision : Tree) : List (Bytes × Tree) :=
  [(Bytes.ofText "result", .list [oddEntry revision, agentEntry])]

/-- What stands behind the neighbour in the body. -/
private def agentText : Bytes :=
  Bytes.ofText ",\x7b\"name\":\"agent\",\"revision\":\"x42\"\x7d]\x7d"

private def besideOddText (revision : String) : Bytes :=
  Bytes.ofText "\x7b\"result\":[\x7b\"name\":\"odd\",\"revision\":" ++
    (Bytes.ofText revision ++ (Json.closeObject :: agentText))

private theorem besideOdd_isText {revision : String} {t : Tree}
    (h : Spells (Bytes.ofText revision ++ (Json.closeObject :: agentText)) (.value t)
      (Json.closeObject :: agentText)) :
    IsText (besideOddText revision) (.object (besideOdd t)) := by
  have hx42 : Spells (Bytes.ofText "\"x42\"\x7d]\x7d") (.value (.text (Bytes.ofText "x42")))
      (Bytes.ofText "\x7d]\x7d") :=
    .text rfl rfl (Json.textBody_of_plain rfl)
  have hrevision : Spells (Bytes.ofText ",\"revision\":\"x42\"\x7d]\x7d")
      (.members false [textMember "revision" "x42"]) (Bytes.ofText "]\x7d") :=
    .member (.parted _ _ rfl rfl) (Json.textBody_of_plain rfl) rfl hx42 (.endMembers rfl)
  have hagent : Spells (Bytes.ofText "\"agent\",\"revision\":\"x42\"\x7d]\x7d")
      (.value (.text (Bytes.ofText "agent"))) (Bytes.ofText ",\"revision\":\"x42\"\x7d]\x7d") :=
    .text rfl rfl (Json.textBody_of_plain rfl)
  have hentry : Spells (Bytes.ofText "\x7b\"name\":\"agent\",\"revision\":\"x42\"\x7d]\x7d")
      (.value agentEntry) (Bytes.ofText "]\x7d") :=
    .object rfl rfl (.member (.opening _ rfl) (Json.textBody_of_plain rfl) rfl hagent hrevision)
  have hrest : Spells agentText (.items false [agentEntry]) (Bytes.ofText "\x7d") :=
    .item (.parted _ _ _ rfl rfl (by decide)) hentry (.endItems rfl)
  have hvalue : Spells (Bytes.ofText ",\"revision\":" ++
        (Bytes.ofText revision ++ (Json.closeObject :: agentText)))
      (.members false [(Bytes.ofText "revision", t)]) agentText :=
    .member (.parted _ _ rfl rfl) (Json.textBody_of_plain rfl) rfl h (.endMembers rfl)
  have hname : Spells (Bytes.ofText "\"odd\",\"revision\":" ++
        (Bytes.ofText revision ++ (Json.closeObject :: agentText)))
      (.value (.text (Bytes.ofText "odd")))
      (Bytes.ofText ",\"revision\":" ++
        (Bytes.ofText revision ++ (Json.closeObject :: agentText))) :=
    .text rfl rfl (Json.textBody_of_plain rfl)
  have hodd : Spells (Bytes.ofText "\x7b\"name\":\"odd\",\"revision\":" ++
        (Bytes.ofText revision ++ (Json.closeObject :: agentText)))
      (.value (oddEntry t)) agentText :=
    .object rfl rfl (.member (.opening _ rfl) (Json.textBody_of_plain rfl) rfl hname hvalue)
  have hlist : Spells (Bytes.ofText "[\x7b\"name\":\"odd\",\"revision\":" ++
        (Bytes.ofText revision ++ (Json.closeObject :: agentText)))
      (.value (.list [oddEntry t, agentEntry])) (Bytes.ofText "\x7d") :=
    .list rfl rfl (.item (.opening _ _ rfl (by decide)) hodd hrest)
  exact ⟨[], .object rfl rfl (.member (.opening _ rfl) (Json.textBody_of_plain rfl) rfl hlist
    (.endMembers rfl)), rfl⟩

private theorem besideOdd_replaced (old new : Tree) :
    NeighbourReplaced "agent" new 0 (besideOdd old) (besideOdd new) := by
  have hname : Json.rawText? (Bytes.ofText "name") = some "name" := by decide +kernel
  have hodd : NamedTree "odd" (oddEntry old) :=
    ⟨.text (Bytes.ofText "odd"), by simp [Tree.field?, oddEntry, textMember, hname],
      by decide +kernel⟩
  refine .intro [] [agentEntry] (oddEntry old) (oddEntry new) old (fun hagent => ?_) ?_ ?_
  · exact absurd (hodd.unique hagent) (by decide)
  · exact .member [textMember "name" "odd"] [] (Bytes.ofText "revision") (by decide +kernel)
  · exact .member [] [] (Bytes.ofText "result") (by decide +kernel)

private def besideSocket : Socket :=
  ⟨"/run/daemon.socket", "daemon", 1000, 200⟩

private def besideSent (revision : String) : Bytes :=
  Bytes.ofText "HTTP/1.0 200 OK\r\n\r\n" ++ besideOddText revision

private def agent42 : Package :=
  ⟨"agent", ⟨42, Nat.le_of_ble_eq_true rfl⟩, none, .notService⟩

private def seven : Tree :=
  .number ⟨false, [7], none, none⟩

/-- A number that no double reaches. -/
private def huge : Tree :=
  .number ⟨false, [1], none, some (false, [9, 9, 9])⟩

/-- A neighbour whose revision is a number may have none as well, but not such a number that cannot
    be kept. -/
theorem agent_beside_null_and_huge :
    query "agent" (besideSocket.get .listening (.closes (besideSent "7"))) = .ok (some agent42) ∧
    (∃ es, Spared "agent" agent42 es 0 .null
      (besideSocket.get .listening (.closes (besideSent "null")))) ∧
    Spoilt (besideSocket.get .listening (.closes (besideSent "1e999"))) := by
  have hseven : query "agent" (besideSocket.get .listening (.closes (besideSent "7"))) =
      .ok (some agent42) := by decide +kernel
  obtain ⟨r, ms, es, hdecode, htext, -, hbeside⟩ := query_beside_neighbour hseven
  have hr : Http.Response.decode (besideSent "7") = .ok ⟨200, [], besideOddText "7"⟩ := by
    decide +kernel
  cases hdecode.symm.trans hr
  cases htext.unique (besideOdd_isText (t := seven) (.digit rfl rfl rfl))
  have hnull : Http.Response.decode (besideSent "null") = .ok ⟨200, [], besideOddText "null"⟩ := by
    decide +kernel
  have hhuge : Http.Response.decode (besideSent "1e999") =
      .ok ⟨200, [], besideOddText "1e999"⟩ := by decide +kernel
  obtain ⟨hspared, -⟩ := hbeside _ _ _ _ 0 (by decide) hnull rfl
    (besideOdd_isText (.null rfl rfl rfl)) (besideOdd_replaced seven .null)
  obtain ⟨-, hspoilt⟩ := hbeside _ _ _ _ 0 (by decide) hhuge rfl
    (besideOdd_isText (.digit rfl rfl rfl)) (besideOdd_replaced seven huge)
  have hinfinite : (Json.Numeral.mk false [1] none (some (false, [9, 9, 9]))).value?.isNone := by
    decide +kernel
  refine ⟨hseven, ⟨es, hspared (.null _)⟩, hspoilt fun hkeep => ?_⟩
  generalize hnumber : huge = tree at hkeep
  cases hkeep with
  | number finite =>
    cases hnumber
    rw [finite] at hinfinite
    cases hinfinite
  | null | boolean | text | list | object => cases hnumber

/-- **A neighbour spoils the lookup of a package**: the two bodies differ by its revision alone, and
    the package behind it is found by the first and not by the second. -/
theorem odd_neighbour_spoils :
    IsText (besideOddText "7") (.object (besideOdd seven)) ∧
    IsText (besideOddText "1e999") (.object (besideOdd huge)) ∧
    NeighbourReplaced "agent" huge 0 (besideOdd seven) (besideOdd huge) ∧
    query "agent" (besideSocket.get .listening (.closes (besideSent "7"))) = .ok (some agent42) ∧
    query "agent" (besideSocket.get .listening (.closes (besideSent "1e999"))) =
      .error (.unreadable .malformed) :=
  ⟨besideOdd_isText (.digit rfl rfl rfl), besideOdd_isText (.digit rfl rfl rfl),
    besideOdd_replaced seven huge, by decide +kernel, by decide +kernel⟩

end RevisionWatch.Daemon
