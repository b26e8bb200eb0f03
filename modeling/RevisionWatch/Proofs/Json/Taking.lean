import RevisionWatch.Proofs.Json.Meaning
import RevisionWatch.Proofs.Json.Skipped
/-!
# What is read is a matter of the tree

Bytes spell one tree, and many bytes spell the same. A reader is steady (`Steady`) if what it reads
depends on the tree alone: wherever the bytes spell the tree of something that was read, the same is
read again (`Takes`). The readers of texts, truth values, numbers, of values of any kind and of
lists are steady, and so is the reader of a value that may be missing.
-/

namespace RevisionWatch.Json

variable {α : Type} {bs bs' rest : Bytes} {t : Tree}

/-! ## 1. Steadiness -/

/-- **Reading a tree gives a thing**, wherever the tree is spelled. -/
def Takes (read : Reader α) (t : Tree) (a : α) : Prop :=
  ∀ ⦃bs rest⦄, Spells bs (.value t) rest → read bs = .ok (a, rest)

/-- What is read is read of every bytes that spell the same tree. -/
def Steady (read : Reader α) : Prop :=
  Sound read (Takes read)

/-- What the lead of a byte says of the byte. -/
theorem byte_of_lead (b : UInt8) :
    match leadOf b with
    | .null => b = 0x6E
    | .true => b = 0x74
    | .false => b = 0x66
    | .quote => b = quote
    | .list => b = openList
    | .object => b = openObject
    | _ => True := by
  unfold leadOf
  split_ifs <;> simp_all

theorem eq_null {b : UInt8} (h : leadOf b = .null) : b = 0x6E := by
  have hb := byte_of_lead b
  rwa [h] at hb

theorem eq_true {b : UInt8} (h : leadOf b = .true) : b = 0x74 := by
  have hb := byte_of_lead b
  rwa [h] at hb

theorem eq_false {b : UInt8} (h : leadOf b = .false) : b = 0x66 := by
  have hb := byte_of_lead b
  rwa [h] at hb

theorem eq_quote {b : UInt8} (h : leadOf b = .quote) : b = quote := by
  have hb := byte_of_lead b
  rwa [h] at hb

theorem eq_openList {b : UInt8} (h : leadOf b = .list) : b = openList := by
  have hb := byte_of_lead b
  rwa [h] at hb

theorem eq_openObject {b : UInt8} (h : leadOf b = .object) : b = openObject := by
  have hb := byte_of_lead b
  rwa [h] at hb

/-! ## 2. Scalars -/

/-- A text is read from its bytes, whatever stands behind its quote. -/
theorem textBody_of_rawText? {raw : Bytes} {s : String} (hraw : TextBody raw)
    (h : rawText? raw = some s) (rest : Bytes) :
    textBody (raw ++ quote :: rest) = .ok (s, rest) := by
  unfold rawText? at h
  cases hread : textBody (raw ++ [quote]) with
  | error e =>
    rw [hread] at h
    cases h
  | ok p =>
    obtain ⟨s', rest'⟩ := p
    rw [hread] at h
    obtain rfl : s' = s := Option.some.inj h
    obtain ⟨raw', heq, hraw', -⟩ := textBody_sound hread
    obtain ⟨-, rfl⟩ := hraw.unique hraw' heq
    have hmore := textBody_closed hread rest
    rwa [List.append_assoc] at hmore

/-- A number that is read has the value of its numeral. -/
theorem numberBody_of_numeral {negative : Bool} {n : Numeral} {v : Value}
    (h : numeral .malformed negative bs = .ok (n, rest)) (hv : n.value? = some v) :
    numberBody negative bs = .ok (v, rest) := by
  obtain ⟨hneg, hshort⟩ := numeral_short h
  have hread : numeral .ended negative bs = .ok (n, rest) := by
    rw [hshort .ended negative, ← hneg]
  unfold numberBody
  rw [hread, ok_bind]
  dsimp only
  rw [hv]

/-- **A scalar is read wherever it is spelled.** -/
theorem scalar?_of_spells {v : Value} (h : Spells bs (.value t) rest) (hv : t.Scalar v) :
    ∃ b bs', dropBlanks bs = b :: bs' ∧ scalar? b bs' = some (.ok (v, rest)) := by
  obtain ⟨b, bs', hd, hat⟩ := spells_value_iff.1 h
  refine ⟨b, bs', hd, ?_⟩
  unfold ValueAt at hat
  rw [scalar?_eq]
  generalize leadOf b = lead at hat
  cases lead with
  | null =>
    obtain ⟨rfl, hw⟩ := hat
    cases (show v = .null from hv)
    exact congrArg some (map_ok hw _)
  | true =>
    obtain ⟨rfl, hw⟩ := hat
    cases (show v = .boolean true from hv)
    exact congrArg some (map_ok hw _)
  | false =>
    obtain ⟨rfl, hw⟩ := hat
    cases (show v = .boolean false from hv)
    exact congrArg some (map_ok hw _)
  | minus =>
    obtain ⟨n, rfl, hn⟩ := hat
    exact congrArg some (numberBody_of_numeral hn hv)
  | digit =>
    obtain ⟨n, rfl, hn⟩ := hat
    exact congrArg some (numberBody_of_numeral hn hv)
  | quote =>
    obtain ⟨raw, rfl, rfl, hraw⟩ := hat
    obtain ⟨s, hs, rfl⟩ := hv
    refine congrArg some ?_
    rw [textBody_of_rawText? hraw hs, ok_bind]
  | list =>
    obtain ⟨ts, rfl, -⟩ := hat
    exact hv.elim
  | object =>
    obtain ⟨ms, rfl, -⟩ := hat
    exact hv.elim
  | other => exact hat.elim

/-- A text is read of a tree that is one. -/
theorem takes_text (wanted : String) {s : String} (hs : t.text? = some s) :
    Takes (textAs wanted) t s := by
  intro bs rest ht
  cases t with
  | text raw =>
    cases ht with
    | text hd hb hraw =>
      unfold textAs
      rw [hd]
      dsimp only
      rw [if_pos (beq_iff_eq.2 (eq_quote hb))]
      exact textBody_of_rawText? hraw hs rest
  | _ => cases hs

theorem text_steady (wanted : String) : Steady (textAs wanted) := by
  intro bs s rest h
  obtain ⟨t, ht, hs⟩ := text_sound wanted h
  exact ⟨t, ht, takes_text wanted hs⟩

theorem boolean_steady : Steady boolean := by
  intro bs b rest h
  obtain ⟨t, ht, rfl⟩ := boolean_sound h
  refine ⟨.boolean b, ht, fun bs' rest' ht' => ?_⟩
  cases ht' with
  | true hd hb hw =>
    unfold boolean
    rw [hd]
    dsimp only
    rw [if_pos (beq_iff_eq.2 (eq_true hb))]
    exact map_ok hw _
  | false hd hb hw =>
    unfold boolean
    rw [hd]
    dsimp only
    rw [eq_false hb, if_neg (by decide), if_pos (by decide)]
    exact map_ok hw _

/-- A natural number is read of a tree that is one and small enough. -/
theorem takes_natural {limit n : Nat} {wanted : String} {v : Value} (hv : t.Scalar v)
    (hn : v.naturalBelow limit wanted = .ok n) : Takes (natural limit wanted) t n := by
  intro bs rest ht
  obtain ⟨b, bs₁, hd, hs⟩ := scalar?_of_spells ht hv
  unfold natural
  rw [hd]
  dsimp only
  rw [hs]
  dsimp only
  rw [hn]

theorem natural_steady (limit : Nat) (wanted : String) : Steady (natural limit wanted) := by
  intro bs n rest h
  unfold natural at h
  split at h
  · cases h
  · rename_i b bs₁ hd
    split at h
    · rename_i v bs₂ hs
      split at h
      · rename_i n' hn
        cases h
        obtain ⟨t, ht, hv⟩ := scalar?_spells hd hs
        exact ⟨t, ht, takes_natural hv hn⟩
      · cases h
    · cases h

/-- The tree of a value that does not begin as null is not null. -/
theorem leadOf_ne_null {b : UInt8} (h : Spells bs (.value t) rest) (hd : dropBlanks bs = b :: bs') :
    t ≠ .null ↔ b ≠ 0x6E := by
  obtain ⟨b', bs'', hd', hat⟩ := spells_value_iff.1 h
  rw [hd] at hd'
  obtain ⟨rfl, rfl⟩ := List.cons.inj hd'
  unfold ValueAt at hat
  have hlead : leadOf 0x6E = .null := by decide
  constructor
  · rintro ht rfl
    rw [hlead] at hat
    exact ht hat.1
  · rintro hb rfl
    have hbyte := byte_of_lead b
    generalize leadOf b = lead at hat hbyte
    cases lead with
    | null => exact hb hbyte
    | true | false => cases hat.1
    | minus | digit | quote | list | object =>
      obtain ⟨x, hx, -⟩ := hat
      cases hx
    | other => exact hat

/-- A value that may be missing is read of a tree that is not null as it is. -/
theorem takes_optional {read : Reader α} {a : α} (hnull : t ≠ .null) (h : Takes read t a) :
    Takes (optional read) t (some a) := by
  intro bs rest ht
  obtain ⟨b, bs₁, hd, -⟩ := spells_value_iff.1 ht
  have hb : b ≠ 0x6E := (leadOf_ne_null ht hd).1 hnull
  unfold optional
  rw [hd]
  dsimp only
  rw [if_neg (mt beq_iff_eq.1 hb), h ht]
  rfl

theorem optional_steady {read : Reader α} (h : Steady read) : Steady (optional read) := by
  intro bs a rest hr
  unfold optional at hr
  split at hr
  · rename_i b bs₁ hd
    split at hr
    · rename_i hb
      obtain ⟨r, hw, hr⟩ := map_eq_ok hr
      cases hr
      rw [beq_iff_eq.1 hb] at hd
      refine ⟨.null, .null hd (by decide) hw, fun bs' rest' ht' => ?_⟩
      cases ht' with
      | null hd' hb' hw' =>
        unfold optional
        rw [hd']
        dsimp only
        rw [if_pos (beq_iff_eq.2 (eq_null hb'))]
        exact map_ok hw' _
    · rename_i hb
      obtain ⟨⟨a', bs₂⟩, ha, hr⟩ := bind_eq_ok hr
      cases hr
      obtain ⟨t, ht, htakes⟩ := h ha
      have hnull : t ≠ .null := (leadOf_ne_null ht hd).2 (mt beq_iff_eq.2 hb)
      exact ⟨t, ht, takes_optional hnull htakes⟩
  · cases hr

/-! ## 3. Containers -/

/-- Items are read one by one. -/
theorem itemsFrom_takes {read : Reader α} {ts : List Tree} {as : List α}
    (h : List.Forall₂ (Takes read) ts as) :
    ∀ {first : Bool} {bs rest : Bytes}, Spells bs (.items first ts) rest →
      ∀ (fuel : Bytes) (acc : List α), bs.length ≤ fuel.length →
        itemsFrom read fuel first acc bs = .ok (acc.reverse ++ as, rest) := by
  induction h with
  | nil =>
    intro first bs rest hs fuel acc hf
    obtain ⟨f, fuel, rfl⟩ := hs.exists_fuel hf
    cases hs with
    | endItems hd =>
      rw [itemsFrom, nextItem_eq_ok.2 (.closed first rest hd), ok_bind]
      show (afterByte closeList bs >>= _) = _
      rw [afterByte_eq_ok.2 hd, ok_bind, List.append_nil]
  | @cons t a ts as htakes _ ih =>
    intro first bs rest hs fuel acc hf
    obtain ⟨f, fuel, rfl⟩ := hs.exists_fuel hf
    cases hs with
    | @item _ bs₁ bs₂ _ _ _ _ hstep ht hts =>
      have hf' : bs₂.length ≤ fuel.length :=
        Nat.le_of_lt_succ (Nat.lt_of_lt_of_le (hstep.length_lt ht) hf)
      rw [itemsFrom, nextItem_eq_ok.2 hstep, ok_bind]
      show (read bs₁ >>= _) = _
      rw [htakes ht, ok_bind]
      dsimp only
      rw [ih hts fuel (a :: acc) hf']
      simp

/-- A list is read of a list, if its items are. -/
theorem takes_listOf {read : Nested α} {room : Nat} {ts : List Tree} {as : List α}
    (h : List.Forall₂ (Takes (read room)) ts as) :
    Takes (listOf read (room + 1)) (.list ts) as := by
  intro bs rest hs
  cases hs with
  | list hd hb hts =>
    unfold listOf
    rw [hd]
    dsimp only
    rw [if_pos (beq_iff_eq.2 (eq_openList hb))]
    exact itemsFrom_takes h hts _ [] (Nat.le_refl _)

/-- What is read as a list is spelled as one, and its items are read of the trees there. -/
theorem listOf_spells {read : Nested α} (h : ∀ room, Steady (read room)) {room : Nat} {as : List α}
    (hr : listOf read room bs = .ok (as, rest)) :
    ∃ room' ts, room = room' + 1 ∧ Spells bs (.value (.list ts)) rest ∧
      List.Forall₂ (Takes (read room')) ts as := by
  unfold listOf at hr
  split at hr
  · cases hr
  · rename_i b bs₁ hd
    split at hr
    · rename_i hb
      cases room with
      | zero => cases hr
      | succ room =>
        rw [beq_iff_eq.1 hb] at hd
        obtain ⟨ts, as', hts, htakes, rfl⟩ := itemsFrom_sound (h room) hr
        exact ⟨room, ts, rfl, .list hd (by decide) hts, htakes⟩
    · cases hr

/-- **A list is a matter of its tree**, if its items are. -/
theorem listOf_steady {read : Nested α} (h : ∀ room, Steady (read room)) (room : Nat) :
    Steady (listOf read room) := by
  intro bs as rest hr
  obtain ⟨room', ts, rfl, hs, htakes⟩ := listOf_spells h hr
  exact ⟨.list ts, hs, takes_listOf htakes⟩

/-- A list is read of a list, item by item. -/
theorem listOf_takes {read : Nested α} (h : ∀ room, Steady (read room)) {room : Nat} {as : List α}
    (ht : Takes (listOf read room) t as) (hs : Spells bs (.value t) rest) :
    ∃ room' ts, room = room' + 1 ∧ t = .list ts ∧ List.Forall₂ (Takes (read room')) ts as := by
  obtain ⟨room', ts, rfl, hs', htakes⟩ := listOf_spells h (ht hs)
  obtain ⟨rfl, -⟩ := hs.value_unique hs'
  exact ⟨room', ts, rfl, rfl, htakes⟩

/-- Members are read one by one. -/
theorem membersFrom_takes {read : Reader α} {ms : List (Bytes × Tree)} {as : List (String × α)}
    (h : List.Forall₂ (MemberMeans (Takes read)) ms as) :
    ∀ {first : Bool} {bs rest : Bytes}, Spells bs (.members first ms) rest →
      ∀ (fuel : Bytes) (acc : List (String × α)), bs.length ≤ fuel.length →
        membersFrom read fuel first acc bs = .ok (acc.reverse ++ as, rest) := by
  induction h with
  | nil =>
    intro first bs rest hs fuel acc hf
    obtain ⟨f, fuel, rfl⟩ := hs.exists_fuel hf
    cases hs with
    | endMembers hd =>
      rw [membersFrom, nextKey_eq_ok.2 (.closed first rest hd), ok_bind]
      show (afterByte closeObject bs >>= _) = _
      rw [afterByte_eq_ok.2 hd, ok_bind, List.append_nil]
  | @cons m p ms as hm _ ih =>
    intro first bs rest hs fuel acc hf
    obtain ⟨f, fuel, rfl⟩ := hs.exists_fuel hf
    obtain ⟨key, a⟩ := p
    obtain ⟨hkey, htakes⟩ := hm
    cases hs with
    | @member _ raw bs₁ bs₂ bs₃ _ _ _ _ hstep hraw hc ht hms =>
      have hf' : bs₃.length ≤ fuel.length :=
        Nat.le_of_lt_succ (Nat.lt_of_lt_of_le (hstep.length_lt hc ht) hf)
      rw [membersFrom, nextKey_eq_ok.2 hstep, ok_bind]
      show (textBody (raw ++ quote :: bs₁) >>= _) = _
      rw [textBody_of_rawText? hraw hkey, ok_bind]
      show (afterByte colon bs₁ >>= _) = _
      rw [afterByte_eq_ok.2 hc, ok_bind]
      show (read bs₂ >>= _) = _
      rw [htakes ht, ok_bind]
      dsimp only
      rw [ih hms fuel ((key, a) :: acc) hf']
      simp

/-! ## 4. Values of any kind -/

/-- What begins with a bracket is no scalar. -/
theorem scalar?_eq_none {b : UInt8} (hb : (leadOf b).opens = true) (bs : Bytes) :
    scalar? b bs = none := by
  rw [scalar?_eq]
  generalize leadOf b = lead at hb
  cases lead <;> first | rfl | cases hb

/-- A scalar is read in every room. -/
theorem content_scalar {room : Nat} {v : Value} (hv : t.Scalar v) :
    Takes (content room) t (.scalar v) := by
  intro bs rest ht
  obtain ⟨b, bs₁, hd, hs⟩ := scalar?_of_spells ht hv
  unfold content
  rw [hd]
  dsimp only
  rw [hs]
  rfl

/-- A list is read in a room, if its items are in the next smaller one. -/
theorem content_list {room : Nat} {ts : List Tree} {cs : List Content}
    (h : List.Forall₂ (Takes (content room)) ts cs) :
    Takes (content (room + 1)) (.list ts) (.list cs) := by
  intro bs rest hs
  cases hs with
  | @list _ _ _ bs₁ _ hd hb hts =>
    have hitems : items (content room) bs₁ = .ok (cs, rest) :=
      itemsFrom_takes h hts bs₁ [] (Nat.le_refl _)
    unfold content
    rw [hd]
    dsimp only
    rw [scalar?_eq_none (by rw [hb]; rfl)]
    dsimp only
    rw [if_pos (beq_iff_eq.2 (eq_openList hb)), hitems]
    rfl

/-- An object is read in a room, if the values of its members are in the next smaller one. -/
theorem content_object {room : Nat} {ms : List (Bytes × Tree)} {cs : List (String × Content)}
    (h : List.Forall₂ (MemberMeans (Takes (content room))) ms cs) :
    Takes (content (room + 1)) (.object ms) (.object cs) := by
  intro bs rest hs
  cases hs with
  | @object _ _ b bs₁ _ hd hb hms =>
    have hmembers : members (content room) bs₁ = .ok (cs, rest) :=
      membersFrom_takes h hms bs₁ [] (Nat.le_refl _)
    have hlist : b ≠ openList := by
      rw [eq_openObject hb]
      decide
    unfold content
    rw [hd]
    dsimp only
    rw [scalar?_eq_none (by rw [hb]; rfl)]
    dsimp only
    rw [if_neg (mt beq_iff_eq.1 hlist), if_pos (beq_iff_eq.2 (eq_openObject hb)), hmembers]
    rfl

/-- What is read in a room is steady, if it is in the next smaller one. -/
theorem content_steady_of {room : Nat} (ih : ∀ room', room = room' + 1 → Steady (content room')) :
    Steady (content room) := by
  intro bs c rest h
  unfold content at h
  split at h
  · cases h
  · rename_i b bs₁ hd
    split at h
    · rename_i r hs
      obtain ⟨⟨v, rest'⟩, rfl, h⟩ := bind_eq_ok h
      cases h
      obtain ⟨t, ht, hv⟩ := scalar?_spells hd hs
      exact ⟨t, ht, content_scalar hv⟩
    · cases room with
      | zero => cases h
      | succ room =>
        dsimp only at h
        split at h
        · rename_i hb
          obtain ⟨⟨cs, rest'⟩, hi, h⟩ := bind_eq_ok h
          cases h
          obtain ⟨ts, cs', hts, htakes, heq⟩ := itemsFrom_sound (ih room rfl) hi
          obtain rfl : cs' = cs := heq.symm
          rw [beq_iff_eq.1 hb] at hd
          exact ⟨.list ts, .list hd (by decide) hts, content_list htakes⟩
        · split at h
          · rename_i hb
            obtain ⟨⟨ms, rest'⟩, hm, h⟩ := bind_eq_ok h
            cases h
            obtain ⟨ts, ms', hts, htakes, heq⟩ := membersFrom_sound (ih room rfl) hm
            obtain rfl : ms' = ms := heq.symm
            rw [beq_iff_eq.1 hb] at hd
            exact ⟨.object ts, .object hd (by decide) hts, content_object htakes⟩
          · cases h

theorem content_steady (room : Nat) : Steady (content room) := by
  induction room with
  | zero => exact content_steady_of fun _ h => nomatch h
  | succ room ih =>
    refine content_steady_of fun room' h => ?_
    cases h
    exact ih

/-- **A value of any kind is a matter of its tree.** -/
theorem value_steady (room : Nat) : Steady (value room) := by
  intro bs v rest h
  obtain ⟨⟨c, rest'⟩, hc, h⟩ := bind_eq_ok h
  cases h
  obtain ⟨t, ht, htakes⟩ := content_steady room hc
  refine ⟨t, ht, fun bs' rest' ht' => ?_⟩
  unfold value
  rw [htakes ht']
  rfl

/-! ## 5. Whole texts -/

/-- **The bytes are a JSON text of the tree**, blanks around it. -/
def IsText (bs : Bytes) (t : Tree) : Prop :=
  ∃ rest, Spells bs (.value t) rest ∧ dropBlanks rest = []

/-- A text is of one tree. -/
theorem IsText.unique {t' : Tree} (h : IsText bs t) (h' : IsText bs t') : t = t' := by
  obtain ⟨rest, hs, -⟩ := h
  obtain ⟨rest', hs', -⟩ := h'
  exact (hs.value_unique hs').1

/-- **A reader reads a text as it reads the tree.** -/
theorem IsText.document_eq_ok {read : Nested α} {a : α} (h : IsText bs t)
    (hread : Steady (read depthLimit)) :
    document read bs = .ok a ↔ Takes (read depthLimit) t a := by
  constructor
  · intro hr
    obtain ⟨t', rest', ht', hrest', htakes⟩ := document_sound hread hr
    obtain rfl := h.unique ⟨rest', ht', hrest'⟩
    exact htakes
  · intro htakes
    obtain ⟨rest, hs, hrest⟩ := h
    unfold document
    rw [htakes hs, ok_bind]
    dsimp only
    rw [hrest]

end RevisionWatch.Json
