import Mathlib.Data.List.Nodup
import RevisionWatch.Json.Fields
import RevisionWatch.Proofs.Json.Meaning
/-!
# What things with named fields mean

A thing with named fields is read into a draft, member by member or item by item.

* `Field.Gives` -- what a field makes of a draft when a tree is read for it;
* `Layout.Drafts`, `Layout.ItemDrafts` -- the drafts that the members of an object and the items of
  a list give;
* `Layout.read_sound` -- what is read is spelled by a tree, and finished from a draft of it;
* `Layout.Slot` -- a field with a place of its own in the draft; behind the reading that place says
  what the tree has at the key of the field, and nothing if it has nothing there (`Slot.drafted`).
-/

namespace RevisionWatch.Json

variable {α β δ : Type} {bs rest : Bytes}

/-! ## 1. Fields -/

namespace Field

/-- Reading a tree for the field can make the second draft of the first. -/
def Gives (f : Field δ) (t : Tree) (d d' : δ) : Prop :=
  ∃ room bs rest, f.read room d bs = .ok (d', rest) ∧ Spells bs (.value t) rest

/-- Reading for the field leaves what `get` sees of the draft. -/
def Spares (f : Field δ) (get : δ → Option β) : Prop :=
  ∀ ⦃t d d'⦄, f.Gives t d d' → get d' = get d

/-- Whatever is read for the field is spelled by a tree. -/
def Spelled (f : Field δ) : Prop :=
  ∀ ⦃room d bs d' rest⦄, f.read room d bs = .ok (d', rest) → ∃ t, Spells bs (.value t) rest

theorem Spelled.gives {f : Field δ} (h : f.Spelled) {room : Nat} {d d' : δ}
    (hr : f.read room d bs = .ok (d', rest)) : ∃ t, Spells bs (.value t) rest ∧ f.Gives t d d' := by
  obtain ⟨t, ht⟩ := h hr
  exact ⟨t, ht, room, bs, rest, hr, ht⟩

variable {key : String} {get : δ → Option α} {put : δ → α → δ} {read : Nested α}
  {means : Tree → α → Prop}

theorem of_spelled (h : ∀ room, Sound (read room) means) : (Field.of key get put read).Spelled := by
  intro room d bs d' rest hr
  obtain ⟨⟨a, rest'⟩, ha, hr⟩ := bind_eq_ok hr
  cases hr
  obtain ⟨t, ht, -⟩ := h room ha
  exact ⟨t, ht⟩

/-- A field puts into the draft what the tree means. -/
theorem of_gives (h : ∀ room, Sound (read room) means) {t : Tree} {d d' : δ}
    (hg : (Field.of key get put read).Gives t d d') : ∃ a, means t a ∧ d' = put d a := by
  obtain ⟨room, bs, rest, hr, ht⟩ := hg
  obtain ⟨⟨a, rest'⟩, ha, hr⟩ := bind_eq_ok hr
  cases hr
  obtain ⟨t', ht', hm⟩ := h room ha
  obtain ⟨rfl, -⟩ := ht.value_unique ht'
  exact ⟨a, hm, rfl⟩

theorem of_spares {get' : δ → Option β} (h : ∀ d a, get' (put d a) = get' d) :
    (Field.of key get put read).Spares get' := by
  rintro t d d' ⟨room, bs, rest, hr, -⟩
  obtain ⟨⟨a, rest'⟩, -, hr⟩ := bind_eq_ok hr
  cases hr
  exact h d a

end Field

namespace Layout

variable {l : Layout δ α}

/-! ## 2. Drafts -/

/-- **The drafts that members give**: one of a known key is read for its field, which has not been
    given yet, and any other is passed over. -/
inductive Drafts (l : Layout δ α) : List (Bytes × Tree) → δ → δ → Prop where
  | nil (d : δ) : Drafts l [] d d
  | known {raw : Bytes} {t : Tree} {ms : List (Bytes × Tree)} {d d₁ d' : δ} {key : String}
      {f : Field δ} (hk : rawText? raw = some key)
      (hf : l.fields.find? (·.key == key) = some f) (hn : f.given d = false)
      (hg : f.Gives t d d₁) (hd : Drafts l ms d₁ d') : Drafts l ((raw, t) :: ms) d d'
  | other {raw : Bytes} {t : Tree} {ms : List (Bytes × Tree)} {d d' : δ} {key : String}
      (hk : rawText? raw = some key) (hf : l.fields.find? (·.key == key) = none)
      (hd : Drafts l ms d d') : Drafts l ((raw, t) :: ms) d d'

/-- The drafts that items give, each read for the field at its place. -/
inductive ItemDrafts : List (Field δ) → List Tree → δ → δ → Prop where
  | nil (fs : List (Field δ)) (d : δ) : ItemDrafts fs [] d d
  | cons {f : Field δ} {fs : List (Field δ)} {t : Tree} {ts : List Tree} {d d₁ d' : δ}
      (hg : f.Gives t d d₁) (hd : ItemDrafts fs ts d₁ d') : ItemDrafts (f :: fs) (t :: ts) d d'

/-- The draft that a tree gives. -/
def Drafted (l : Layout δ α) (d : δ) : Tree → Prop
  | .object ms => l.Drafts ms l.blank d
  | .list ts => ItemDrafts l.fields ts l.blank d
  | _ => False

/-- All fields are spelled by trees. -/
def Spelled (l : Layout δ α) : Prop :=
  ∀ f ∈ l.fields, f.Spelled

theorem membersFrom_sound (hl : l.Spelled) {room : Nat} :
    ∀ {fuel : Bytes} {first : Bool} {d d' : δ} {bs bs' : Bytes},
      l.membersFrom room fuel first d bs = .ok (d', bs') → afterByte closeObject bs' = .ok rest →
        ∃ ms, Spells bs (.members first ms) rest ∧ l.Drafts ms d d'
  | [], _, _, _, _, _, h, _ => nomatch h
  | _ :: fuel, first, d, d', bs, bs', h, hc => by
    rw [membersFrom] at h
    obtain ⟨next, hn, h⟩ := bind_eq_ok h
    cases next with
    | none =>
      cases h
      exact ⟨[], .endMembers (afterByte_eq_ok.1 hc), .nil d⟩
    | some bs₁ =>
      obtain ⟨⟨key, bs₂⟩, hk, h⟩ := bind_eq_ok h
      dsimp only at h
      obtain ⟨raw, hbs, hraw, hkey⟩ := textBody_sound hk
      rw [hbs] at hn
      have hstep := nextKey_eq_ok.1 hn
      split at h
      · rename_i f hf
        split at h
        · cases h
        · rename_i hgiven
          obtain ⟨bs₃, hcolon, h⟩ := bind_eq_ok h
          obtain ⟨⟨d₁, bs₄⟩, hd, h⟩ := bind_eq_ok h
          obtain ⟨t, ht, hg⟩ := (hl f (List.mem_of_find?_eq_some hf)).gives hd
          obtain ⟨ms, hms, hds⟩ := membersFrom_sound hl h hc
          exact ⟨(raw, t) :: ms, .member hstep hraw (afterByte_eq_ok.1 hcolon) ht hms,
            .known hkey hf (Bool.eq_false_iff.2 hgiven) hg hds⟩
      · rename_i hf
        obtain ⟨bs₃, hcolon, h⟩ := bind_eq_ok h
        obtain ⟨bs₄, hskip, h⟩ := bind_eq_ok h
        obtain ⟨t, ht⟩ := skip_spells hskip
        obtain ⟨ms, hms, hds⟩ := membersFrom_sound hl h hc
        exact ⟨(raw, t) :: ms, .member hstep hraw (afterByte_eq_ok.1 hcolon) ht hms,
          .other hkey hf hds⟩

theorem itemsFrom_sound {room : Nat} : ∀ {fs : List (Field δ)} {first : Bool} {d d' : δ}
    {bs bs' : Bytes}, (∀ f ∈ fs, f.Spelled) → itemsFrom room fs first d bs = .ok (d', bs') →
      afterByte closeList bs' = .ok rest →
        ∃ ts, Spells bs (.items first ts) rest ∧ ItemDrafts fs ts d d'
  | [], first, d, d', bs, bs', _, h, hc => by
    cases h
    exact ⟨[], .endItems (afterByte_eq_ok.1 hc), .nil [] d⟩
  | f :: fs, first, d, d', bs, bs', hl, h, hc => by
    rw [itemsFrom] at h
    obtain ⟨next, hn, h⟩ := bind_eq_ok h
    cases next with
    | none =>
      cases h
      exact ⟨[], .endItems (afterByte_eq_ok.1 hc), .nil (f :: fs) d⟩
    | some bs₁ =>
      obtain ⟨⟨d₁, bs₂⟩, hd, h⟩ := bind_eq_ok h
      obtain ⟨t, ht, hg⟩ := (hl f (List.mem_cons_self ..)).gives hd
      obtain ⟨ts, hts, hds⟩ :=
        itemsFrom_sound (fun f hf => hl f (List.mem_cons_of_mem _ hf)) h hc
      exact ⟨t :: ts, .item (nextItem_eq_ok.1 hn) ht hts, .cons hg hds⟩

/-- **A thing is finished from a draft of the tree that spells it.** -/
theorem read_sound (hl : l.Spelled) (room : Nat) :
    Sound (l.read room) fun t a => ∃ d, l.Drafted d t ∧ l.finish d = .ok a := by
  intro bs a rest h
  unfold read at h
  split at h
  · cases h
  · rename_i b bs₁ hd
    split at h
    · rename_i hb
      rw [beq_iff_eq.1 hb] at hd
      cases room with
      | zero => cases h
      | succ room =>
        obtain ⟨⟨d, bs₂⟩, hms, h⟩ := bind_eq_ok h
        dsimp only at h
        split at h
        · cases h
        · rename_i a' hfinish
          obtain ⟨rest', hc, h⟩ := bind_eq_ok h
          cases h
          obtain ⟨ms, hms, hds⟩ := membersFrom_sound hl hms hc
          exact ⟨.object ms, .object hd (by decide) hms, d, hds, hfinish⟩
    · split at h
      · rename_i hb
        rw [beq_iff_eq.1 hb] at hd
        cases room with
        | zero => cases h
        | succ room =>
          obtain ⟨⟨d, bs₂⟩, hts, h⟩ := bind_eq_ok h
          dsimp only at h
          split at h
          · cases h
          · rename_i a' hfinish
            obtain ⟨rest', hc, h⟩ := bind_eq_ok h
            cases h
            obtain ⟨ts, hts, hds⟩ := itemsFrom_sound hl hts hc
            exact ⟨.list ts, .list hd (by decide) hts, d, hds, hfinish⟩
      · cases h

/-! ## 3. Fields with a place of their own -/

/-- The keys of the fields, in order. -/
def keys (l : Layout δ α) : List String :=
  l.fields.map Field.key

/-- **The field of a key has a place of its own in the draft**: it puts there what its tree means,
    it knows from there whether it was given, and no other field touches what is there. -/
structure Slot (l : Layout δ α) (key : String) (get : δ → Option β) (means : Tree → β → Prop) :
    Prop where
  known : ∃ f ∈ l.fields, f.key = key
  once : l.keys.Nodup
  blank : get l.blank = none
  given : ∀ f ∈ l.fields, f.key = key → ∀ d, f.given d = (get d).isSome
  puts : ∀ f ∈ l.fields, f.key = key → ∀ t d d', f.Gives t d d' → ∃ b, means t b ∧ get d' = some b
  others : ∀ f ∈ l.fields, f.key ≠ key → f.Spares get

namespace Slot

variable {key : String} {get : δ → Option β} {means : Tree → β → Prop} {d d' : δ}

/-- A field that is kept under its key has a place of its own, if the others spare it. -/
theorem of {put : δ → β → δ} {read : Nested β} (hmem : Field.of key get put read ∈ l.fields)
    (once : l.keys.Nodup) (blank : get l.blank = none) (hread : ∀ room, Sound (read room) means)
    (hput : ∀ d b, get (put d b) = some b)
    (others : ∀ f ∈ l.fields, f.key ≠ key → f.Spares get) : l.Slot key get means := by
  have hone : ∀ f ∈ l.fields, f.key = key → f = Field.of key get put read := fun f hf hkey =>
    List.inj_on_of_nodup_map once hf hmem hkey
  refine ⟨⟨_, hmem, rfl⟩, once, blank, fun f hf hkey d => ?_, fun f hf hkey t d d' hg => ?_, others⟩
  · rw [hone f hf hkey]
    rfl
  · rw [hone f hf hkey] at hg
    obtain ⟨b, hm, rfl⟩ := Field.of_gives hread hg
    exact ⟨b, hm, hput d b⟩

/-- What is in its place stays there, whatever members follow. -/
theorem drafts_kept (h : l.Slot key get means) {ms : List (Bytes × Tree)} (hd : l.Drafts ms d d') :
    ∀ {b : β}, get d = some b → get d' = some b := by
  induction hd with
  | nil d => exact fun hb => hb
  | @known raw t ms d d₁ d' key' f hk hf hn hg _ ih =>
    intro b hb
    have hmem := List.mem_of_find?_eq_some hf
    by_cases hkey : f.key = key
    · rw [h.given f hmem hkey, hb] at hn
      cases hn
    · exact ih ((h.others f hmem hkey hg).trans hb)
  | other hk hf _ ih => exact ih

/-- Behind the members, the place says what the first member of the key says. -/
theorem drafts (h : l.Slot key get means) {ms : List (Bytes × Tree)} (hd : l.Drafts ms d d') :
    get d = none → Option.Rel means ((Tree.object ms).field? l.keys key) (get d') := by
  induction hd with
  | nil d =>
    intro hb
    rw [hb]
    exact .none
  | @known raw t ms d d₁ d' key' f hk hf hn hg hd ih =>
    intro hb
    have hmem := List.mem_of_find?_eq_some hf
    have hkey' : f.key = key' :=
      beq_iff_eq.1 (List.find?_some (p := fun f : Field δ => f.key == key') hf)
    by_cases hkey : f.key = key
    · obtain ⟨b, hm, hput⟩ := h.puts f hmem hkey _ _ _ hg
      have hhead : (Tree.object ((raw, t) :: ms)).field? l.keys key = some t := by
        simp [Tree.field?, hk, ← hkey', hkey]
      rw [hhead, h.drafts_kept hd hput]
      exact .some hm
    · have hhead : (Tree.object ((raw, t) :: ms)).field? l.keys key =
          (Tree.object ms).field? l.keys key := by
        simp [Tree.field?, hk, ← hkey', hkey]
      rw [hhead]
      exact ih ((h.others f hmem hkey hg).trans hb)
  | @other raw t ms d d' key' hk hf hd ih =>
    intro hb
    have hkey : key' ≠ key := by
      rintro rfl
      obtain ⟨f, hmem, hf'⟩ := h.known
      exact List.find?_eq_none.1 hf f hmem (beq_iff_eq.2 hf')
    have hhead : (Tree.object ((raw, t) :: ms)).field? l.keys key =
        (Tree.object ms).field? l.keys key := by
      simp [Tree.field?, hk, hkey]
    rw [hhead]
    exact ih hb

/-- Items of other fields do not touch the place. -/
theorem items_kept (h : l.Slot key get means) {fs : List (Field δ)} {ts : List Tree}
    (hd : ItemDrafts fs ts d d') (hfs : ∀ f ∈ fs, f ∈ l.fields) (hkey : key ∉ fs.map Field.key) :
    get d' = get d := by
  induction hd with
  | nil fs d => rfl
  | @cons f fs t ts d d₁ d' hg _ ih =>
    rw [List.map_cons, List.mem_cons, not_or] at hkey
    have hrest := ih (fun f hf => hfs f (List.mem_cons_of_mem _ hf)) hkey.2
    exact hrest.trans (h.others f (hfs f (List.mem_cons_self ..)) (Ne.symm hkey.1) hg)

/-- Behind the items, the place says what the item at the place of the key says. -/
theorem items (h : l.Slot key get means) {fs : List (Field δ)} {ts : List Tree}
    (hd : ItemDrafts fs ts d d') (hfs : ∀ f ∈ fs, f ∈ l.fields)
    (honce : (fs.map Field.key).Nodup) :
    get d = none → Option.Rel means ((Tree.list ts).field? (fs.map Field.key) key) (get d') := by
  induction hd with
  | nil fs d =>
    intro hb
    rw [hb]
    exact .none
  | @cons f fs t ts d d₁ d' hg hd ih =>
    intro hb
    have hmem := hfs f (List.mem_cons_self ..)
    have hfs' : ∀ f ∈ fs, f ∈ l.fields := fun f hf => hfs f (List.mem_cons_of_mem _ hf)
    obtain ⟨hhead, htail⟩ := List.nodup_cons.1 honce
    by_cases hkey : f.key = key
    · obtain ⟨b, hm, hput⟩ := h.puts f hmem hkey _ _ _ hg
      have hitem : (Tree.list (t :: ts)).field? ((f :: fs).map Field.key) key = some t := by
        simp [Tree.field?, List.findIdx_cons, hkey]
      rw [hitem, h.items_kept hd hfs' (hkey ▸ hhead), hput]
      exact .some hm
    · have hplace : ((f :: fs).map Field.key).findIdx (· == key) =
          (fs.map Field.key).findIdx (· == key) + 1 := by
        rw [List.map_cons, List.findIdx_cons, beq_eq_false_iff_ne.2 hkey]
        rfl
      have hitem : (Tree.list (t :: ts)).field? ((f :: fs).map Field.key) key =
          (Tree.list ts).field? (fs.map Field.key) key := by
        show (t :: ts)[_]? = _
        rw [hplace]
        rfl
      rw [hitem]
      exact ih hfs' htail ((h.others f hmem hkey hg).trans hb)

/-- **The place in the draft says what the tree has at the key.** -/
theorem drafted (h : l.Slot key get means) {t : Tree} (hd : l.Drafted d t) :
    Option.Rel means (t.field? l.keys key) (get d) := by
  cases t with
  | object ms => exact h.drafts hd h.blank
  | list ts => exact h.items hd (fun _ hf => hf) h.once h.blank
  | null => exact hd.elim
  | boolean b => exact hd.elim
  | number n => exact hd.elim
  | text raw => exact hd.elim

end Slot

end Layout

end RevisionWatch.Json
