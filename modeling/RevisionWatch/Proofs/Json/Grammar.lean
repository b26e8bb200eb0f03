import RevisionWatch.Proofs.Json.Texts
/-!
# JSON without its readers

A JSON text is a tree, and this file says which: a `Tree` is a value as it stands in the text, its
texts still between their quotes, and `Spells bs (.value t) rest` says that the bytes begin with the
tree, blanks in front of it, and go on with `rest`. No reader comes into this but the one that finds
the end of a number, so every reader can be measured by it; and since bytes spell one tree
(`Spells.unique`), two readers of the same bytes speak of the same.

Of an object the members are looked up by their keys, and of a list that stands for a thing with
named fields the items by the place of the field (`Tree.field?`).
-/

namespace RevisionWatch.Json

/-! ## 1. Trees -/

/-- A value as it stands in a text. Texts and keys are the bytes between their quotes. -/
inductive Tree where
  | null
  | boolean (b : Bool)
  | number (n : Numeral)
  | text (raw : Bytes)
  | list (items : List Tree)
  | object (members : List (Bytes × Tree))

namespace Tree

/-- The text that a tree stands for. -/
def text? : Tree → Option String
  | .text raw => rawText? raw
  | _ => none

/-- The field of a thing with the given keys: the first member of that name, or the item at the
    place of the key. -/
def field? (keys : List String) (key : String) : Tree → Option Tree
  | .object ms => (ms.find? fun m => rawText? m.1 == some key).map Prod.snd
  | .list ts => ts[keys.findIdx (· == key)]?
  | _ => none

end Tree

/-! ## 2. Spelling -/

/-- What bytes can begin with: a value, or what is left of a list or an object behind a bracket or
    an item. -/
inductive Part where
  | value (t : Tree)
  | items (first : Bool) (ts : List Tree)
  | members (first : Bool) (ms : List (Bytes × Tree))

/-- **Bytes begin with a part** and go on with the bytes that are left. -/
inductive Spells : Bytes → Part → Bytes → Prop where
  | null {bs rest : Bytes} {b : UInt8} {bs' : Bytes} (h : dropBlanks bs = b :: bs')
      (hb : leadOf b = .null) (hw : afterNull bs' = .ok rest) : Spells bs (.value .null) rest
  | true {bs rest : Bytes} {b : UInt8} {bs' : Bytes} (h : dropBlanks bs = b :: bs')
      (hb : leadOf b = .true) (hw : afterTrue bs' = .ok rest) :
      Spells bs (.value (.boolean Bool.true)) rest
  | false {bs rest : Bytes} {b : UInt8} {bs' : Bytes} (h : dropBlanks bs = b :: bs')
      (hb : leadOf b = .false) (hw : afterFalse bs' = .ok rest) :
      Spells bs (.value (.boolean Bool.false)) rest
  | minus {bs rest : Bytes} {b : UInt8} {bs' : Bytes} {n : Numeral} (h : dropBlanks bs = b :: bs')
      (hb : leadOf b = .minus) (hn : numeral .malformed Bool.true bs' = .ok (n, rest)) :
      Spells bs (.value (.number n)) rest
  | digit {bs rest : Bytes} {b : UInt8} {bs' : Bytes} {n : Numeral} (h : dropBlanks bs = b :: bs')
      (hb : leadOf b = .digit) (hn : numeral .malformed Bool.false (b :: bs') = .ok (n, rest)) :
      Spells bs (.value (.number n)) rest
  | text {bs rest : Bytes} {b : UInt8} {raw : Bytes}
      (h : dropBlanks bs = b :: (raw ++ quote :: rest)) (hb : leadOf b = .quote)
      (ht : TextBody raw) : Spells bs (.value (.text raw)) rest
  | list {bs rest : Bytes} {b : UInt8} {bs' : Bytes} {ts : List Tree} (h : dropBlanks bs = b :: bs')
      (hb : leadOf b = .list) (hi : Spells bs' (.items Bool.true ts) rest) :
      Spells bs (.value (.list ts)) rest
  | object {bs rest : Bytes} {b : UInt8} {bs' : Bytes} {ms : List (Bytes × Tree)}
      (h : dropBlanks bs = b :: bs') (hb : leadOf b = .object)
      (hm : Spells bs' (.members Bool.true ms) rest) : Spells bs (.value (.object ms)) rest
  | endItems {bs rest : Bytes} {first : Bool} (h : dropBlanks bs = closeList :: rest) :
      Spells bs (.items first []) rest
  | item {bs bs₁ bs₂ rest : Bytes} {first : Bool} {t : Tree} {ts : List Tree}
      (h : ItemStep bs first (some bs₁)) (ht : Spells bs₁ (.value t) bs₂)
      (hts : Spells bs₂ (.items Bool.false ts) rest) : Spells bs (.items first (t :: ts)) rest
  | endMembers {bs rest : Bytes} {first : Bool} (h : dropBlanks bs = closeObject :: rest) :
      Spells bs (.members first []) rest
  | member {bs raw bs₁ bs₂ bs₃ rest : Bytes} {first : Bool} {t : Tree} {ms : List (Bytes × Tree)}
      (h : KeyStep bs first (some (raw ++ quote :: bs₁)))
      (hk : TextBody raw) (hc : dropBlanks bs₁ = colon :: bs₂)
      (ht : Spells bs₂ (.value t) bs₃) (hms : Spells bs₃ (.members Bool.false ms) rest) :
      Spells bs (.members first ((raw, t) :: ms)) rest

/-- What stands behind the first byte of a value. -/
def ValueAt (b : UInt8) (bs : Bytes) (t : Tree) (rest : Bytes) : Prop :=
  match leadOf b with
  | .null => t = .null ∧ afterNull bs = .ok rest
  | .true => t = .boolean true ∧ afterTrue bs = .ok rest
  | .false => t = .boolean false ∧ afterFalse bs = .ok rest
  | .minus => ∃ n, t = .number n ∧ numeral .malformed true bs = .ok (n, rest)
  | .digit => ∃ n, t = .number n ∧ numeral .malformed false (b :: bs) = .ok (n, rest)
  | .quote => ∃ raw, t = .text raw ∧ bs = raw ++ quote :: rest ∧ TextBody raw
  | .list => ∃ ts, t = .list ts ∧ Spells bs (.items true ts) rest
  | .object => ∃ ms, t = .object ms ∧ Spells bs (.members true ms) rest
  | .other => False

theorem spells_value_iff {bs rest : Bytes} {t : Tree} :
    Spells bs (.value t) rest ↔ ∃ b bs', dropBlanks bs = b :: bs' ∧ ValueAt b bs' t rest := by
  constructor
  · intro h
    cases h with
    | null h hb hw => exact ⟨_, _, h, by unfold ValueAt; rw [hb]; exact ⟨rfl, hw⟩⟩
    | true h hb hw => exact ⟨_, _, h, by unfold ValueAt; rw [hb]; exact ⟨rfl, hw⟩⟩
    | false h hb hw => exact ⟨_, _, h, by unfold ValueAt; rw [hb]; exact ⟨rfl, hw⟩⟩
    | minus h hb hn => exact ⟨_, _, h, by unfold ValueAt; rw [hb]; exact ⟨_, rfl, hn⟩⟩
    | digit h hb hn => exact ⟨_, _, h, by unfold ValueAt; rw [hb]; exact ⟨_, rfl, hn⟩⟩
    | text h hb ht => exact ⟨_, _, h, by unfold ValueAt; rw [hb]; exact ⟨_, rfl, rfl, ht⟩⟩
    | list h hb hi => exact ⟨_, _, h, by unfold ValueAt; rw [hb]; exact ⟨_, rfl, hi⟩⟩
    | object h hb hm => exact ⟨_, _, h, by unfold ValueAt; rw [hb]; exact ⟨_, rfl, hm⟩⟩
  · rintro ⟨b, bs', h, hv⟩
    unfold ValueAt at hv
    cases hb : leadOf b with
    | null =>
      rw [hb] at hv
      obtain ⟨rfl, hw⟩ := hv
      exact .null h hb hw
    | true =>
      rw [hb] at hv
      obtain ⟨rfl, hw⟩ := hv
      exact .true h hb hw
    | false =>
      rw [hb] at hv
      obtain ⟨rfl, hw⟩ := hv
      exact .false h hb hw
    | minus =>
      rw [hb] at hv
      obtain ⟨n, rfl, hn⟩ := hv
      exact .minus h hb hn
    | digit =>
      rw [hb] at hv
      obtain ⟨n, rfl, hn⟩ := hv
      exact .digit h hb hn
    | quote =>
      rw [hb] at hv
      obtain ⟨raw, rfl, rfl, ht⟩ := hv
      exact .text h hb ht
    | list =>
      rw [hb] at hv
      obtain ⟨ts, rfl, hi⟩ := hv
      exact .list h hb hi
    | object =>
      rw [hb] at hv
      obtain ⟨ms, rfl, hm⟩ := hv
      exact .object h hb hm
    | other =>
      rw [hb] at hv
      exact hv.elim

/-! ## 3. One tree -/

/-- Parts of one kind, at the same place in their container. -/
def Part.Alike : Part → Part → Prop
  | .value _, .value _ => True
  | .items first _, .items first' _ => first = first'
  | .members first _, .members first' _ => first = first'
  | _, _ => False

theorem Part.alike_value (t t' : Tree) : Part.Alike (.value t) (.value t') := trivial

theorem Part.alike_items (first : Bool) (ts ts' : List Tree) :
    Part.Alike (.items first ts) (.items first ts') := rfl

theorem Part.alike_members (first : Bool) (ms ms' : List (Bytes × Tree)) :
    Part.Alike (.members first ms) (.members first ms') := rfl

/-- A value of the same bytes has the same lead, and so the same rest to be read. -/
theorem ValueAt.of_part {bs bs' rest : Bytes} {b : UInt8} {t : Tree} {p : Part}
    (hp : Part.Alike (.value t) p) (h : dropBlanks bs = b :: bs') (hs : Spells bs p rest) :
    ∃ t', p = .value t' ∧ ValueAt b bs' t' rest := by
  cases p with
  | value t' =>
    obtain ⟨b', bs'', h', hv⟩ := spells_value_iff.1 hs
    rw [h] at h'
    obtain ⟨rfl, rfl⟩ := List.cons.inj h'
    exact ⟨t', rfl, hv⟩
  | items first ts => exact hp.elim
  | members first ms => exact hp.elim

/-- The byte opens a list or an object. -/
def Lead.opens : Lead → Bool
  | .list | .object => Bool.true
  | _ => Bool.false

/-- Behind one byte stands one value, if it is no container. -/
theorem ValueAt.unique {b : UInt8} {bs rest rest' : Bytes} {t t' : Tree}
    (hb : (leadOf b).opens = false) (h : ValueAt b bs t rest) (h' : ValueAt b bs t' rest') :
    t = t' ∧ rest = rest' := by
  unfold ValueAt at h h'
  generalize leadOf b = lead at hb h h'
  cases lead with
  | null =>
    obtain ⟨rfl, hw⟩ := h
    obtain ⟨rfl, hw'⟩ := h'
    exact ⟨rfl, Except.ok.inj (hw.symm.trans hw')⟩
  | true =>
    obtain ⟨rfl, hw⟩ := h
    obtain ⟨rfl, hw'⟩ := h'
    exact ⟨rfl, Except.ok.inj (hw.symm.trans hw')⟩
  | false =>
    obtain ⟨rfl, hw⟩ := h
    obtain ⟨rfl, hw'⟩ := h'
    exact ⟨rfl, Except.ok.inj (hw.symm.trans hw')⟩
  | minus =>
    obtain ⟨n, rfl, hn⟩ := h
    obtain ⟨n', rfl, hn'⟩ := h'
    cases hn.symm.trans hn'
    exact ⟨rfl, rfl⟩
  | digit =>
    obtain ⟨n, rfl, hn⟩ := h
    obtain ⟨n', rfl, hn'⟩ := h'
    cases hn.symm.trans hn'
    exact ⟨rfl, rfl⟩
  | quote =>
    obtain ⟨raw, rfl, hraw, ht⟩ := h
    obtain ⟨raw', rfl, hraw', ht'⟩ := h'
    obtain ⟨rfl, hrest⟩ := ht.unique ht' (hraw.symm.trans hraw')
    exact ⟨rfl, hrest⟩
  | list => cases hb
  | object => cases hb
  | other => exact h.elim

/-- Bytes that begin with no container spell one tree. -/
theorem Spells.unique_leaf {bs bs' rest rest' : Bytes} {b : UInt8} {t : Tree} {p : Part}
    (h : dropBlanks bs = b :: bs') (hb : (leadOf b).opens = Bool.false)
    (hs : Spells bs (.value t) rest) (hp : Part.Alike (.value t) p) (hs' : Spells bs p rest') :
    .value t = p ∧ rest = rest' := by
  obtain ⟨t', heq, hv⟩ := ValueAt.of_part (Part.alike_value t t) h hs
  cases heq
  obtain ⟨t'', rfl, hv'⟩ := ValueAt.of_part hp h hs'
  obtain ⟨rfl, hrest⟩ := hv.unique hb hv'
  exact ⟨rfl, hrest⟩

/-- **Bytes spell one tree.** -/
theorem Spells.unique {bs rest : Bytes} {p : Part} (h : Spells bs p rest) :
    ∀ {p' : Part} {rest' : Bytes}, p.Alike p' → Spells bs p' rest' → p = p' ∧ rest = rest' := by
  induction h with
  | null h hb hw => exact Spells.unique_leaf h (by rw [hb]; rfl) (.null h hb hw)
  | true h hb hw => exact Spells.unique_leaf h (by rw [hb]; rfl) (.true h hb hw)
  | false h hb hw => exact Spells.unique_leaf h (by rw [hb]; rfl) (.false h hb hw)
  | minus h hb hn => exact Spells.unique_leaf h (by rw [hb]; rfl) (.minus h hb hn)
  | digit h hb hn => exact Spells.unique_leaf h (by rw [hb]; rfl) (.digit h hb hn)
  | text h hb ht => exact Spells.unique_leaf h (by rw [hb]; rfl) (.text h hb ht)
  | list h hb _ ih =>
    intro p' rest' hp h'
    obtain ⟨t', rfl, hv⟩ := ValueAt.of_part hp h h'
    unfold ValueAt at hv
    rw [hb] at hv
    obtain ⟨ts', rfl, hi'⟩ := hv
    obtain ⟨heq, hrest⟩ := ih (Part.alike_items _ _ _) hi'
    cases heq
    exact ⟨rfl, hrest⟩
  | object h hb _ ih =>
    intro p' rest' hp h'
    obtain ⟨t', rfl, hv⟩ := ValueAt.of_part hp h h'
    unfold ValueAt at hv
    rw [hb] at hv
    obtain ⟨ms', rfl, hm'⟩ := hv
    obtain ⟨heq, hrest⟩ := ih (Part.alike_members _ _ _) hm'
    cases heq
    exact ⟨rfl, hrest⟩
  | endItems h =>
    intro p' rest' hp h'
    cases h' with
    | endItems h' =>
      cases hp
      rw [h] at h'
      exact ⟨rfl, (List.cons.inj h').2⟩
    | item h' =>
      cases hp
      exact nomatch (ItemStep.closed _ _ h).unique h'
    | _ => exact hp.elim
  | item h _ _ iht ihts =>
    intro p' rest' hp h'
    cases h' with
    | endItems h' =>
      cases hp
      exact nomatch (ItemStep.closed _ _ h').unique h
    | item h' ht' hts' =>
      cases hp
      cases h.unique h'
      obtain ⟨heq, rfl⟩ := iht (Part.alike_value _ _) ht'
      cases heq
      obtain ⟨heq, hrest⟩ := ihts (Part.alike_items _ _ _) hts'
      cases heq
      exact ⟨rfl, hrest⟩
    | _ => exact hp.elim
  | endMembers h =>
    intro p' rest' hp h'
    cases h' with
    | endMembers h' =>
      cases hp
      rw [h] at h'
      exact ⟨rfl, (List.cons.inj h').2⟩
    | member h' =>
      cases hp
      exact nomatch (KeyStep.closed _ _ h).unique h'
    | _ => exact hp.elim
  | member h hk hc _ _ iht ihms =>
    intro p' rest' hp h'
    cases h' with
    | endMembers h' =>
      cases hp
      exact nomatch (KeyStep.closed _ _ h').unique h
    | member h' hk' hc' ht' hms' =>
      cases hp
      have hraw := Option.some.inj (h.unique h')
      obtain ⟨rfl, rfl⟩ := hk.unique hk' hraw
      rw [hc] at hc'
      cases hc'
      obtain ⟨heq, rfl⟩ := iht (Part.alike_value _ _) ht'
      cases heq
      obtain ⟨heq, hrest⟩ := ihms (Part.alike_members _ _ _) hms'
      cases heq
      exact ⟨rfl, hrest⟩
    | _ => exact hp.elim

/-- The trees that two readers of the same bytes find are the same. -/
theorem Spells.value_unique {bs rest rest' : Bytes} {t t' : Tree} (h : Spells bs (.value t) rest)
    (h' : Spells bs (.value t') rest') : t = t' ∧ rest = rest' := by
  obtain ⟨heq, hrest⟩ := h.unique (Part.alike_value _ _) h'
  cases heq
  exact ⟨rfl, hrest⟩

end RevisionWatch.Json
