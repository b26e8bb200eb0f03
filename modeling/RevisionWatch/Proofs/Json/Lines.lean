import RevisionWatch.Proofs.Json.Printed
/-!
# What is written over lines spells a tree

A value that is written one item a line spells a tree at every level (`PrintsLines`), as one that is
written without blanks does. The new lines are blanks (`dropBlanks_lineAt`), so they count nowhere
but in front of what they part; of the members of an object each is found again under its key
(`member?_written`).
-/

namespace RevisionWatch.Json

open Bytes (ofChars ofChars_append ofText ofText_append)

variable {bs rest : Bytes} {t : Tree} {v : Value}

/-! ## 1. New lines -/

theorem ofText_lineAt (level : Nat) :
    ofText (Value.lineAt level) = 0x0A :: List.replicate (2 * level) 0x20 := by
  have hspaces (n : Nat) : ofChars (List.replicate n ' ') = List.replicate n 0x20 := by
    induction n with
    | zero => rfl
    | succ n ih =>
      rw [List.replicate_succ, List.replicate_succ, ← ih]
      rfl
  have hlist : (Value.lineAt level).toList = ['\n'] ++ List.replicate (2 * level) ' ' := by
    simp [Value.lineAt]
  rw [Bytes.ofText_eq_ofChars, hlist, ofChars_append, hspaces]
  rfl

/-- **A new line is blank.** -/
theorem dropBlanks_lineAt (level : Nat) (bs : Bytes) :
    dropBlanks (ofText (Value.lineAt level) ++ bs) = dropBlanks bs := by
  have hspaces (n : Nat) : dropBlanks (List.replicate n 0x20 ++ bs) = dropBlanks bs := by
    induction n with
    | zero => rfl
    | succ n ih =>
      rw [List.replicate_succ, List.cons_append, dropBlanks_cons_of_blank (by decide)]
      exact ih
  rw [ofText_lineAt, List.cons_append, dropBlanks_cons_of_blank (by decide), hspaces]

/-- A number is at its end in front of a new line. -/
theorem apart_lineAt (level : Nat) (bs : Bytes) :
    Apart (ofText (Value.lineAt level) ++ bs) := by
  rw [ofText_lineAt]
  intro b hb
  cases hb
  rfl

/-! ## 2. Where a value begins -/

/-- Blanks in front of a value do not count. -/
theorem Spells.of_dropBlanks {bs' : Bytes} (h : Spells bs (.value t) rest)
    (hd : dropBlanks bs' = dropBlanks bs) : Spells bs' (.value t) rest := by
  rw [spells_value_iff] at h ⊢
  rwa [hd]

theorem leadOf_of_isBlank {b : UInt8} (h : isBlank b = true) : leadOf b = .other := by
  simp only [isBlank, Bool.or_eq_true, beq_iff_eq] at h
  rcases h with ((rfl | rfl) | rfl) | rfl <;> rfl

/-- **A value begins with a byte** that closes no list. -/
theorem Spells.exists_first (h : Spells bs (.value t) rest) :
    ∃ b bs', dropBlanks bs = b :: bs' ∧ b ≠ closeList ∧ Spells (b :: bs') (.value t) rest := by
  obtain ⟨b, bs', hd, hat⟩ := spells_value_iff.1 h
  have hlead : leadOf b ≠ .other := by
    intro hb
    unfold ValueAt at hat
    rwa [hb] at hat
  have hblank : isBlank b = Bool.false :=
    Bool.eq_false_iff.2 fun hb => hlead (leadOf_of_isBlank hb)
  refine ⟨b, bs', hd, fun hb => hlead (by rw [hb]; rfl), h.of_dropBlanks ?_⟩
  rw [hd, dropBlanks_cons_of_not_blank hblank]

/-! ## 3. Values over lines -/

/-- **What is written of a value at any level spells a tree**, in front of what could not continue a
    number. -/
def PrintsLines (v : Value) (t : Tree) : Prop :=
  ∀ (level : Nat) ⦃rest⦄, Apart rest → Spells (ofText (v.writeAt level) ++ rest) (.value t) rest

theorem printsLines_text (s : String) : PrintsLines (.text s) (.text (rawOf s)) :=
  fun _ _ hrest => prints_text s hrest

theorem printsLines_boolean (b : Bool) : PrintsLines (.boolean b) (.boolean b) :=
  fun _ _ hrest => prints_boolean b hrest

theorem printsLines_natural (n : Nat) : PrintsLines (.natural n) (.number (numeralOf n)) :=
  fun _ _ hrest => prints_natural n hrest

theorem printsLines_null : PrintsLines .null .null :=
  fun _ _ _ => .null rfl (by decide) (afterWord_eq_ok.2 rfl)

/-- Items that are written one below another. The comma in front of all but the first is part of
    what is spelled. -/
theorem spells_itemLines {vs : List Value} {ts : List Tree} (h : List.Forall₂ PrintsLines vs ts)
    (hne : vs ≠ []) (level : Nat) {back : Bytes} (hapart : Apart back)
    (hback : dropBlanks back = closeList :: rest) : ∀ first : Bool,
      Spells ((if first then [] else [comma]) ++ (ofText (Value.itemLines level vs) ++ back))
        (.items first ts) rest := by
  induction h with
  | nil => exact absurd rfl hne
  | @cons v t vs ts hv hvs ih =>
    intro first
    -- what stands behind the value
    obtain ⟨behind, hwritten, happart, hbehind⟩ : ∃ behind,
        ofText (Value.itemLines level (v :: vs)) ++ back =
          ofText (Value.lineAt level) ++ (ofText (v.writeAt level) ++ behind) ∧
        Apart behind ∧ Spells behind (.items false ts) rest := by
      cases hvs with
      | nil =>
        refine ⟨back, ?_, hapart, .endItems hback⟩
        rw [Value.itemLines, ofText_append, List.append_assoc]
      | @cons v' t' vs' ts' _ _ =>
        refine ⟨comma :: (ofText (Value.itemLines level (v' :: vs')) ++ back), ?_, fun b hb => ?_,
          ih (List.cons_ne_nil v' vs') false⟩
        · simp [Value.itemLines, ofText_append]
          rfl
        · cases hb
          rfl
    obtain ⟨b, bs', hd, hb, ht⟩ := (hv level happart).exists_first
    have hline : dropBlanks (ofText (Value.lineAt level) ++ (ofText (v.writeAt level) ++ behind)) =
        b :: bs' := by
      rw [dropBlanks_lineAt, hd]
    rw [hwritten]
    cases first with
    | true => exact .item (.opening b bs' hline hb) ht hbehind
    | false => exact .item (.parted _ b bs' rfl hline hb) ht hbehind

/-- **A list that is written over lines spells its items.** -/
theorem printsLines_list {vs : List Value} {ts : List Tree}
    (h : List.Forall₂ PrintsLines vs ts) : PrintsLines (.list vs) (.list ts) := by
  intro level rest _
  cases h with
  | nil => exact .list (b := openList) rfl (by decide) (.endItems rfl)
  | @cons v t vs ts hv hvs =>
    have hclose : dropBlanks (ofText (Value.lineAt level) ++ closeList :: rest) =
        closeList :: rest := by
      rw [dropBlanks_lineAt]
      rfl
    have hitems := spells_itemLines (.cons hv hvs) (List.cons_ne_nil v vs) (level + 1)
      (apart_lineAt level _) hclose true
    refine .list (b := openList) ?_ (by decide) hitems
    rw [Value.writeAt]
    · simp [ofText_append]
      rfl
    · exact List.cons_ne_nil v vs

/-- A member that is written has its key and spells a tree. -/
def PrintsMemberLines (p : String × Value) (q : String × Tree) : Prop :=
  p.1 = q.1 ∧ PrintsLines p.2 q.2

/-- Members with their keys as they are written. -/
def writtenMembers (qs : List (String × Tree)) : List (Bytes × Tree) :=
  qs.map fun q => (rawOf q.1, q.2)

/-- Members that are written one below another. The comma in front of all but the first is part of
    what is spelled. -/
theorem spells_memberLines {ps : List (String × Value)} {qs : List (String × Tree)}
    (h : List.Forall₂ PrintsMemberLines ps qs) (hne : ps ≠ []) (level : Nat) {back : Bytes}
    (hapart : Apart back) (hback : dropBlanks back = closeObject :: rest) : ∀ first : Bool,
      Spells ((if first then [] else [comma]) ++ (ofText (Value.memberLines level ps) ++ back))
        (.members first (writtenMembers qs)) rest := by
  induction h with
  | nil => exact absurd rfl hne
  | @cons p q ps qs hp hps ih =>
    intro first
    obtain ⟨key, v⟩ := p
    obtain ⟨key', t⟩ := q
    obtain ⟨hkey, hv⟩ := hp
    obtain rfl : key = key' := hkey
    -- what stands behind the value
    obtain ⟨behind, hwritten, happart, hbehind⟩ : ∃ behind,
        ofText (Value.memberLines level ((key, v) :: ps)) ++ back =
          ofText (Value.lineAt level) ++
            quote :: (rawOf key ++ quote :: colon :: 0x20 :: (ofText (v.writeAt level) ++ behind)) ∧
        Apart behind ∧ Spells behind (.members false (writtenMembers qs)) rest := by
      cases hps with
      | nil =>
        refine ⟨back, ?_, hapart, .endMembers hback⟩
        simp [Value.memberLines, ofText_append, ofText_writeText]
        rfl
      | @cons p' q' ps' qs' _ _ =>
        refine ⟨comma :: (ofText (Value.memberLines level (p' :: ps')) ++ back), ?_, fun b hb => ?_,
          ih (List.cons_ne_nil p' ps') false⟩
        · simp [Value.memberLines, ofText_append, ofText_writeText]
          rfl
        · cases hb
          rfl
    have hline (bs : Bytes) : dropBlanks (ofText (Value.lineAt level) ++ quote :: bs) =
        quote :: bs := by
      rw [dropBlanks_lineAt]
      rfl
    have ht := (hv level happart).of_dropBlanks (dropBlanks_cons_of_blank (b := 0x20) (by decide) _)
    obtain ⟨hraw, -⟩ := textBody_rawOf key
    rw [hwritten]
    cases first with
    | true => exact .member (.opening _ (hline _)) hraw rfl ht hbehind
    | false => exact .member (.parted _ _ rfl (hline _)) hraw rfl ht hbehind

/-- **An object that is written over lines spells its members**, in their order. -/
theorem printsLines_object {ps : List (String × Value)} {qs : List (String × Tree)}
    (h : List.Forall₂ PrintsMemberLines ps qs) :
    PrintsLines (.object ps) (.object (writtenMembers qs)) := by
  intro level rest _
  cases h with
  | nil => exact .object (b := openObject) rfl (by decide) (.endMembers rfl)
  | @cons p q ps qs hp hps =>
    have hclose : dropBlanks (ofText (Value.lineAt level) ++ closeObject :: rest) =
        closeObject :: rest := by
      rw [dropBlanks_lineAt]
      rfl
    have hmembers := spells_memberLines (.cons hp hps) (List.cons_ne_nil p ps) (level + 1)
      (apart_lineAt level _) hclose true
    refine .object (b := openObject) ?_ (by decide) hmembers
    rw [Value.writeAt]
    · simp [ofText_append]
      rfl
    · exact List.cons_ne_nil p ps

/-- The first member of an object under a key. -/
def Tree.member? (key : String) : Tree → Option Tree
  | .object ms => (ms.find? fun m => rawText? m.1 == some key).map Prod.snd
  | _ => none

/-- The member of a key is the first that was written under it. -/
theorem member?_written (key : String) (qs : List (String × Tree)) :
    (Tree.object (writtenMembers qs)).member? key = qs.lookup key := by
  show ((writtenMembers qs).find? fun m => rawText? m.1 == some key).map Prod.snd = _
  unfold writtenMembers
  induction qs with
  | nil => rfl
  | cons q qs ih =>
    obtain ⟨key', t⟩ := q
    rw [List.map_cons, List.lookup_cons, List.find?_cons, (textBody_rawOf key').2]
    by_cases hkey : key = key'
    · simp [hkey]
    · have hne : (some key' == some key) = false := beq_false_of_ne fun h =>
        hkey (Option.some.inj h).symm
      rw [hne, beq_false_of_ne hkey]
      exact ih

/-- **What is written over lines is a text of its tree.** -/
theorem PrintsLines.isText (h : PrintsLines v t) : IsText (ofText (v.writeLines ++ "\n")) t := by
  refine ⟨[0x0A], ?_, rfl⟩
  rw [ofText_append]
  refine h 0 fun b hb => ?_
  cases hb
  rfl

end RevisionWatch.Json
