import Mathlib.Data.List.Pairwise
import RevisionWatch.Proofs.Json.Named
import RevisionWatch.Proofs.Json.Taking
/-!
# What may vary in a thing with named fields

A thing with named fields is read member by member, and what is read of a member goes into a draft.
The members may come in any order, and members of other keys may stand among them: the same thing is
read (`Layout.read_respects`), if the fields are orderly (`Layout.Orderly`): each is steady
(`Field.IsSteady`), and no two of them touch the same place of the draft, so it does not matter
which is read first (`Field.Apart`).

* `Layout.Fills` -- the drafts that the members of an object give, for members that may be spelled
  anywhere; `Layout.ItemFills` says the same of a list;
* `Fills.perm`, `Fills.vary`, `Fills.others` -- what may be done with the members;
* `MembersVary`, `ItemsVary`, `ListVaries` -- what it comes to for trees; `Respects` for readers.
-/

namespace RevisionWatch.Json

variable {α β δ : Type} {bs rest : Bytes} {room : Nat}

/-! ## 1. Trees that are spelled -/

/-- Some bytes spell the tree. -/
def Tree.Spelled (t : Tree) : Prop :=
  ∃ bs rest, Spells bs (.value t) rest

theorem Spells.spelled {t : Tree} (h : Spells bs (.value t) rest) : t.Spelled :=
  ⟨bs, rest, h⟩

theorem IsText.spelled {t : Tree} (h : IsText bs t) : t.Spelled := by
  obtain ⟨rest, hs, -⟩ := h
  exact hs.spelled

/-- The items of a list that is spelled are. -/
theorem spelled_items : ∀ {ts : List Tree} {first : Bool} {bs rest : Bytes},
    Spells bs (.items first ts) rest → ∀ t ∈ ts, t.Spelled
  | [], _, _, _, _, _, ht => absurd ht List.not_mem_nil
  | t :: ts, _, _, _, .item _ ht hts, t', hmem => by
    rcases List.mem_cons.1 hmem with rfl | hmem
    · exact ht.spelled
    · exact spelled_items hts t' hmem

/-- The values of the members of an object that is spelled are. -/
theorem spelled_members : ∀ {ms : List (Bytes × Tree)} {first : Bool} {bs rest : Bytes},
    Spells bs (.members first ms) rest → ∀ m ∈ ms, m.2.Spelled
  | [], _, _, _, _, _, hm => absurd hm List.not_mem_nil
  | m :: ms, _, _, _, .member _ _ _ ht hms, m', hmem => by
    rcases List.mem_cons.1 hmem with rfl | hmem
    · exact ht.spelled
    · exact spelled_members hms m' hmem

theorem Tree.Spelled.items {ts : List Tree} (h : (Tree.list ts).Spelled) : ∀ t ∈ ts, t.Spelled := by
  obtain ⟨bs, rest, hs⟩ := h
  cases hs with
  | list hd hb hts => exact spelled_items hts

theorem Tree.Spelled.members {ms : List (Bytes × Tree)} (h : (Tree.object ms).Spelled) :
    ∀ m ∈ ms, m.2.Spelled := by
  obtain ⟨bs, rest, hs⟩ := h
  cases hs with
  | object hd hb hms => exact spelled_members hms

/-! ## 2. Fields -/

namespace Field

variable {key key' : String} {get : δ → Option α} {put : δ → α → δ} {read : Nested α}
  {get' : δ → Option β} {put' : δ → β → δ} {read' : Nested β}

/-- What is read for the field is a matter of the tree and of the draft, and a draft for which it
    was read has it. -/
structure IsSteady (f : Field δ) : Prop where
  reads : ∀ room d, Steady (f.read room d)
  marks : ∀ ⦃room t d d'⦄, t.Spelled → Takes (f.read room d) t d' → f.given d' = true

/-- Reading for the first field does not give the second, and may as well come behind it. -/
structure Yields (f g : Field δ) : Prop where
  spares : ∀ ⦃room t d d'⦄, t.Spelled → Takes (f.read room d) t d' → g.given d' = g.given d
  commute : ∀ ⦃room t u d d₁ d₂⦄, t.Spelled → u.Spelled → Takes (f.read room d) t d₁ →
    Takes (g.read room d₁) u d₂ →
      ∃ e, Takes (g.read room d) u e ∧ Takes (f.read room e) t d₂

/-- **Two fields touch different places** of the draft. -/
def Apart (f g : Field δ) : Prop :=
  Yields f g ∧ Yields g f

instance : Std.Symm (@Apart δ) :=
  ⟨fun _ _ => And.symm⟩

theorem takes_of {t : Tree} {a : α} (h : Takes (read room) t a) (d : δ) :
    Takes ((Field.of key get put read).read room d) t (put d a) := by
  intro bs rest hs
  show (read room bs >>= _) = _
  rw [h hs]
  rfl

/-- What a field makes of a draft is what its reader takes, put into the draft. -/
theorem of_takes (hread : ∀ room, Steady (read room)) {t : Tree} {d d' : δ} (ht : t.Spelled)
    (h : Takes ((Field.of key get put read).read room d) t d') :
    ∃ a, Takes (read room) t a ∧ d' = put d a := by
  obtain ⟨bs, rest, hs⟩ := ht
  obtain ⟨⟨a, rest'⟩, ha, hr⟩ := bind_eq_ok (h hs)
  cases hr
  obtain ⟨t', hs', htakes⟩ := hread room ha
  obtain ⟨rfl, -⟩ := hs.value_unique hs'
  exact ⟨a, htakes, rfl⟩

theorem of_steady (hread : ∀ room, Steady (read room)) (hget : ∀ d a, get (put d a) = some a) :
    (Field.of key get put read).IsSteady where
  reads room d bs d' rest h := by
    obtain ⟨⟨a, rest'⟩, ha, h⟩ := bind_eq_ok h
    cases h
    obtain ⟨t, hs, htakes⟩ := hread room ha
    exact ⟨t, hs, takes_of htakes d⟩
  marks room t d d' ht h := by
    obtain ⟨a, -, rfl⟩ := of_takes hread ht h
    show (get (put d a)).isSome = true
    rw [hget]
    rfl

theorem of_yields (hread : ∀ room, Steady (read room)) (hread' : ∀ room, Steady (read' room))
    (hget : ∀ d a, get' (put d a) = get' d) (hput : ∀ d a b, put' (put d a) b = put (put' d b) a) :
    Yields (Field.of key get put read) (Field.of key' get' put' read') where
  spares room t d d' ht h := by
    obtain ⟨a, -, rfl⟩ := of_takes hread ht h
    exact congrArg Option.isSome (hget d a)
  commute room t u d d₁ d₂ ht hu h h' := by
    obtain ⟨a, ha, rfl⟩ := of_takes hread ht h
    obtain ⟨b, hb, rfl⟩ := of_takes hread' hu h'
    refine ⟨put' d b, takes_of hb d, ?_⟩
    rw [hput]
    exact takes_of ha (put' d b)

/-- Fields that are kept in different places are apart. -/
theorem of_apart (hread : ∀ room, Steady (read room)) (hread' : ∀ room, Steady (read' room))
    (hget : ∀ d b, get (put' d b) = get d) (hget' : ∀ d a, get' (put d a) = get' d)
    (hput : ∀ d a b, put' (put d a) b = put (put' d b) a) :
    Apart (Field.of key get put read) (Field.of key' get' put' read') :=
  ⟨of_yields hread hread' hget' hput, of_yields hread' hread hget fun d b a => (hput d a b).symm⟩

end Field

namespace Layout

variable {l : Layout δ α} {d d' : δ}

/-- **The fields are orderly**: each is steady, and any two are apart. -/
structure Orderly (l : Layout δ α) : Prop where
  steady : ∀ f ∈ l.fields, f.IsSteady
  apart : l.fields.Pairwise Field.Apart

/-! ## 3. Drafts -/

/-- **The drafts that members give**, wherever they are spelled: one of a known key is read for its
    field, which has not been given yet, and any other is passed over. -/
inductive Fills (l : Layout δ α) (room : Nat) : List (Bytes × Tree) → δ → δ → Prop where
  | nil (d : δ) : Fills l room [] d d
  | known {raw : Bytes} {t : Tree} {ms : List (Bytes × Tree)} {d d₁ d' : δ} {key : String}
      {f : Field δ} (hk : rawText? raw = some key)
      (hf : l.fields.find? (·.key == key) = some f) (hn : f.given d = false) (hs : t.Spelled)
      (ht : Takes (f.read room d) t d₁) (hd : Fills l room ms d₁ d') :
      Fills l room ((raw, t) :: ms) d d'
  | other {raw : Bytes} {t : Tree} {ms : List (Bytes × Tree)} {d d' : δ} {key : String}
      (hk : rawText? raw = some key) (hf : l.fields.find? (·.key == key) = none)
      (hd : Fills l room ms d d') : Fills l room ((raw, t) :: ms) d d'

/-- The drafts that items give, each read for the field at its place. -/
inductive ItemFills (room : Nat) : List (Field δ) → List Tree → δ → δ → Prop where
  | nil (fs : List (Field δ)) (d : δ) : ItemFills room fs [] d d
  | cons {f : Field δ} {fs : List (Field δ)} {t : Tree} {ts : List Tree} {d d₁ d' : δ}
      (ht : Takes (f.read room d) t d₁) (hd : ItemFills room fs ts d₁ d') :
      ItemFills room (f :: fs) (t :: ts) d d'

/-- The members of an object that is read fill a draft. -/
theorem fills_of_membersFrom (hl : l.Orderly) :
    ∀ {fuel : Bytes} {first : Bool} {d d' : δ} {bs bs' : Bytes},
      l.membersFrom room fuel first d bs = .ok (d', bs') → afterByte closeObject bs' = .ok rest →
        ∃ ms, Spells bs (.members first ms) rest ∧ l.Fills room ms d d'
  | [], _, _, _, _, _, h, _ => nomatch h
  | _ :: fuel, first, d, d', bs, bs', h, hc => by
    rw [membersFrom] at h
    obtain ⟨next, hn, h⟩ := bind_eq_ok h
    cases next with
    | none =>
      cases h
      exact ⟨[], .endMembers (afterByte_eq_ok.1 hc), .nil d⟩
    | some bs₁ =>
      obtain ⟨⟨key, bs₂⟩, hk, h⟩ := bind_eq_ok h
      dsimp only at h
      obtain ⟨raw, hbs, hraw, hkey⟩ := textBody_sound hk
      rw [hbs] at hn
      have hstep := nextKey_eq_ok.1 hn
      split at h
      · rename_i f hf
        split at h
        · cases h
        · rename_i hgiven
          obtain ⟨bs₃, hcolon, h⟩ := bind_eq_ok h
          obtain ⟨⟨d₁, bs₄⟩, hd, h⟩ := bind_eq_ok h
          obtain ⟨t, ht, htakes⟩ := (hl.steady f (List.mem_of_find?_eq_some hf)).reads room d hd
          obtain ⟨ms, hms, hfills⟩ := fills_of_membersFrom hl h hc
          exact ⟨(raw, t) :: ms, .member hstep hraw (afterByte_eq_ok.1 hcolon) ht hms,
            .known hkey hf (Bool.eq_false_iff.2 hgiven) ht.spelled htakes hfills⟩
      · rename_i hf
        obtain ⟨bs₃, hcolon, h⟩ := bind_eq_ok h
        obtain ⟨bs₄, hskip, h⟩ := bind_eq_ok h
        obtain ⟨t, ht⟩ := skip_eq_ok.1 hskip
        obtain ⟨ms, hms, hfills⟩ := fills_of_membersFrom hl h hc
        exact ⟨(raw, t) :: ms, .member hstep hraw (afterByte_eq_ok.1 hcolon) ht hms,
          .other hkey hf hfills⟩

/-- **Members that fill a draft are read**, wherever they are spelled. -/
theorem membersFrom_of_fills {ms : List (Bytes × Tree)} (h : l.Fills room ms d d') :
    ∀ {first : Bool} {bs rest : Bytes}, Spells bs (.members first ms) rest →
      ∀ fuel : Bytes, bs.length ≤ fuel.length →
        ∃ bs', l.membersFrom room fuel first d bs = .ok (d', bs') ∧
          afterByte closeObject bs' = .ok rest := by
  induction h with
  | nil d =>
    intro first bs rest hs fuel hf
    obtain ⟨f, fuel, rfl⟩ := hs.exists_fuel hf
    cases hs with
    | endMembers hd =>
      refine ⟨bs, ?_, afterByte_eq_ok.2 hd⟩
      rw [membersFrom, nextKey_eq_ok.2 (.closed first rest hd)]
      rfl
  | @known raw t ms d d₁ d' key f hk hf hn _ htakes _ ih =>
    intro first bs rest hs fuel hfuel
    obtain ⟨b, fuel, rfl⟩ := hs.exists_fuel hfuel
    cases hs with
    | @member _ _ bs₁ bs₂ bs₃ _ _ _ _ hstep hraw hc ht hms =>
      have hfuel' := Nat.le_of_lt_succ (Nat.lt_of_lt_of_le (hstep.length_lt hc ht) hfuel)
      obtain ⟨bs', hread, hclose⟩ := ih hms fuel hfuel'
      refine ⟨bs', ?_, hclose⟩
      rw [membersFrom, nextKey_eq_ok.2 hstep, ok_bind]
      show (textBody (raw ++ quote :: bs₁) >>= _) = _
      rw [textBody_of_rawText? hraw hk, ok_bind]
      dsimp only
      rw [hf]
      dsimp only
      rw [if_neg (Bool.eq_false_iff.1 hn), afterByte_eq_ok.2 hc, ok_bind]
      show (f.read room d bs₂ >>= _) = _
      rw [htakes ht, ok_bind]
      exact hread
  | @other raw t ms d d' key hk hf _ ih =>
    intro first bs rest hs fuel hfuel
    obtain ⟨b, fuel, rfl⟩ := hs.exists_fuel hfuel
    cases hs with
    | @member _ _ bs₁ bs₂ bs₃ _ _ _ _ hstep hraw hc ht hms =>
      have hfuel' := Nat.le_of_lt_succ (Nat.lt_of_lt_of_le (hstep.length_lt hc ht) hfuel)
      obtain ⟨bs', hread, hclose⟩ := ih hms fuel hfuel'
      refine ⟨bs', ?_, hclose⟩
      rw [membersFrom, nextKey_eq_ok.2 hstep, ok_bind]
      show (textBody (raw ++ quote :: bs₁) >>= _) = _
      rw [textBody_of_rawText? hraw hk, ok_bind]
      dsimp only
      rw [hf]
      dsimp only
      rw [afterByte_eq_ok.2 hc, ok_bind]
      show (skip bs₂ >>= _) = _
      rw [skip_eq_ok.2 ⟨t, ht⟩, ok_bind]
      exact hread

/-- The items of a list that is read fill a draft. -/
theorem itemFills_of_itemsFrom : ∀ {fs : List (Field δ)} {first : Bool} {d d' : δ}
    {bs bs' : Bytes}, (∀ f ∈ fs, f.IsSteady) → itemsFrom room fs first d bs = .ok (d', bs') →
      afterByte closeList bs' = .ok rest →
        ∃ ts, Spells bs (.items first ts) rest ∧ ItemFills room fs ts d d'
  | [], first, d, d', bs, bs', _, h, hc => by
    cases h
    exact ⟨[], .endItems (afterByte_eq_ok.1 hc), .nil [] d⟩
  | f :: fs, first, d, d', bs, bs', hl, h, hc => by
    rw [itemsFrom] at h
    obtain ⟨next, hn, h⟩ := bind_eq_ok h
    cases next with
    | none =>
      cases h
      exact ⟨[], .endItems (afterByte_eq_ok.1 hc), .nil (f :: fs) d⟩
    | some bs₁ =>
      obtain ⟨⟨d₁, bs₂⟩, hd, h⟩ := bind_eq_ok h
      obtain ⟨t, ht, htakes⟩ := (hl f List.mem_cons_self).reads room d hd
      obtain ⟨ts, hts, hfills⟩ :=
        itemFills_of_itemsFrom (fun f hf => hl f (List.mem_cons_of_mem _ hf)) h hc
      exact ⟨t :: ts, .item (nextItem_eq_ok.1 hn) ht hts, .cons htakes hfills⟩

theorem itemsFrom_of_itemFills {fs : List (Field δ)} {ts : List Tree}
    (h : ItemFills room fs ts d d') :
    ∀ {first : Bool} {bs rest : Bytes}, Spells bs (.items first ts) rest →
      ∃ bs', itemsFrom room fs first d bs = .ok (d', bs') ∧ afterByte closeList bs' = .ok rest := by
  induction h with
  | nil fs d =>
    intro first bs rest hs
    cases hs with
    | endItems hd =>
      refine ⟨bs, ?_, afterByte_eq_ok.2 hd⟩
      cases fs with
      | nil => rfl
      | cons f fs =>
        rw [itemsFrom, nextItem_eq_ok.2 (.closed first rest hd)]
        rfl
  | @cons f fs t ts d d₁ d' htakes _ ih =>
    intro first bs rest hs
    cases hs with
    | @item _ bs₁ bs₂ _ _ _ _ hstep ht hts =>
      obtain ⟨bs', hread, hclose⟩ := ih hts
      refine ⟨bs', ?_, hclose⟩
      rw [itemsFrom, nextItem_eq_ok.2 hstep, ok_bind]
      show (f.read room d bs₁ >>= _) = _
      rw [htakes ht, ok_bind]
      exact hread

/-! ## 4. Things -/

/-- A tree fills a draft. -/
def FilledBy (l : Layout δ α) (room : Nat) (d : δ) : Tree → Prop
  | .object ms => l.Fills room ms l.blank d
  | .list ts => ItemFills room l.fields ts l.blank d
  | _ => False

/-- **A thing is read of every tree that fills a draft of it.** -/
theorem takes_of_filledBy {t : Tree} {a : α} (h : l.FilledBy room d t)
    (hfinish : l.finish d = .ok a) : Takes (l.read (room + 1)) t a := by
  intro bs rest hs
  cases t with
  | object ms =>
    cases hs with
    | @object _ _ b bs₁ _ hd hb hms =>
      obtain ⟨bs', hread, hclose⟩ := membersFrom_of_fills h hms bs₁ (Nat.le_refl _)
      unfold read
      rw [hd]
      dsimp only
      rw [if_pos (beq_iff_eq.2 (eq_openObject hb))]
      unfold object
      rw [hread, ok_bind]
      dsimp only
      rw [hfinish]
      dsimp only
      rw [hclose]
      rfl
  | list ts =>
    cases hs with
    | @list _ _ b bs₁ _ hd hb hts =>
      obtain ⟨bs', hread, hclose⟩ := itemsFrom_of_itemFills h hts
      have hobject : b ≠ openObject := by
        rw [eq_openList hb]
        decide
      unfold read
      rw [hd]
      dsimp only
      rw [if_neg (mt beq_iff_eq.1 hobject), if_pos (beq_iff_eq.2 (eq_openList hb))]
      unfold list
      rw [hread, ok_bind]
      dsimp only
      rw [hfinish]
      dsimp only
      rw [hclose]
      rfl
  | null | boolean _ | number _ | text _ => exact h.elim

/-- What is read is finished from a draft that its tree fills. -/
theorem filledBy_of_read (hl : l.Orderly) {a : α} (h : l.read room bs = .ok (a, rest)) :
    ∃ room' t d, room = room' + 1 ∧ Spells bs (.value t) rest ∧ l.FilledBy room' d t ∧
      l.finish d = .ok a := by
  unfold read at h
  split at h
  · cases h
  · rename_i b bs₁ hd
    split at h
    · rename_i hb
      rw [beq_iff_eq.1 hb] at hd
      cases room with
      | zero => cases h
      | succ room =>
        obtain ⟨⟨d, bs₂⟩, hms, h⟩ := bind_eq_ok h
        dsimp only at h
        split at h
        · cases h
        · rename_i a' hfinish
          obtain ⟨rest', hc, h⟩ := bind_eq_ok h
          cases h
          obtain ⟨ms, hms, hfills⟩ := fills_of_membersFrom hl hms hc
          exact ⟨room, .object ms, d, rfl, .object hd (by decide) hms, hfills, hfinish⟩
    · split at h
      · rename_i hb
        rw [beq_iff_eq.1 hb] at hd
        cases room with
        | zero => cases h
        | succ room =>
          obtain ⟨⟨d, bs₂⟩, hts, h⟩ := bind_eq_ok h
          dsimp only at h
          split at h
          · cases h
          · rename_i a' hfinish
            obtain ⟨rest', hc, h⟩ := bind_eq_ok h
            cases h
            obtain ⟨ts, hts, hfills⟩ := itemFills_of_itemsFrom hl.steady hts hc
            exact ⟨room, .list ts, d, rfl, .list hd (by decide) hts, hfills, hfinish⟩
      · cases h

/-- **A thing with orderly fields is a matter of its tree.** -/
theorem read_steady (hl : l.Orderly) (room : Nat) : Steady (l.read room) := by
  intro bs a rest h
  obtain ⟨room', t, d, rfl, hs, hfilled, hfinish⟩ := filledBy_of_read hl h
  exact ⟨t, hs, takes_of_filledBy hfilled hfinish⟩

/-- What is read of a tree is finished from a draft that the tree fills. -/
theorem filledBy_of_takes (hl : l.Orderly) {t : Tree} {a : α} (ht : t.Spelled)
    (h : Takes (l.read room) t a) :
    ∃ room' d, room = room' + 1 ∧ l.FilledBy room' d t ∧ l.finish d = .ok a := by
  obtain ⟨bs, rest, hs⟩ := ht
  obtain ⟨room', t', d, rfl, hs', hfilled, hfinish⟩ := filledBy_of_read hl (h hs)
  obtain ⟨rfl, -⟩ := hs.value_unique hs'
  exact ⟨room', d, rfl, hfilled, hfinish⟩

/-! ## 5. Other members -/

/-- The keys of two fields that are found differ with the fields. -/
theorem apart_of_find? (hl : l.Orderly) {key key' : String} {f g : Field δ}
    (hf : l.fields.find? (·.key == key) = some f) (hg : l.fields.find? (·.key == key') = some g)
    (hne : f ≠ g) : Field.Apart f g :=
  hl.apart.forall (List.mem_of_find?_eq_some hf) (List.mem_of_find?_eq_some hg) hne

/-- Two members in front may be exchanged: what the first gives does not touch what the second
    gives, and the same key is not given twice. -/
theorem Fills.swap (hl : l.Orderly) {m m' : Bytes × Tree} {ms : List (Bytes × Tree)}
    (h : l.Fills room (m :: m' :: ms) d d') : l.Fills room (m' :: m :: ms) d d' := by
  cases h with
  | @known _ t _ _ d₁ _ _ f hk hf hn hs ht hd =>
    cases hd with
    | @known _ u _ _ d₂ _ _ g hk' hf' hn' hs' ht' hd' =>
      have hne : f ≠ g := by
        rintro rfl
        rw [(hl.steady f (List.mem_of_find?_eq_some hf)).marks hs ht] at hn'
        cases hn'
      obtain ⟨hyields, hyields'⟩ := apart_of_find? hl hf hf' hne
      obtain ⟨e, he, he'⟩ := hyields.commute hs hs' ht ht'
      refine .known hk' hf' ?_ hs' he (.known hk hf ?_ hs he' hd')
      · rw [← hyields.spares hs ht]
        exact hn'
      · rw [hyields'.spares hs' he]
        exact hn
    | other hk' hf' hd' => exact .other hk' hf' (.known hk hf hn hs ht hd')
  | other hk hf hd =>
    cases hd with
    | known hk' hf' hn' hs' ht' hd' => exact .known hk' hf' hn' hs' ht' (.other hk hf hd')
    | other hk' hf' hd' => exact .other hk' hf' (.other hk hf hd')

/-- **The order of the members does not matter.** -/
theorem Fills.perm (hl : l.Orderly) {ms ms' : List (Bytes × Tree)} (h : l.Fills room ms d d')
    (hp : ms.Perm ms') : l.Fills room ms' d d' := by
  induction hp generalizing d d' with
  | nil => exact h
  | cons m _ ih =>
    cases h with
    | known hk hf hn hs ht hd => exact .known hk hf hn hs ht (ih hd)
    | other hk hf hd => exact .other hk hf (ih hd)
  | swap m m' ms => exact h.swap hl
  | trans _ _ ih ih' => exact ih' (ih h)

/-- The member has a key that none of the keys is. -/
def Foreign (keys : List String) (m : Bytes × Tree) : Prop :=
  ∃ key, rawText? m.1 = some key ∧ key ∉ keys

theorem find?_eq_none {key : String} (h : key ∉ l.keys) :
    l.fields.find? (·.key == key) = none := by
  refine List.find?_eq_none.2 fun f hf heq => h ?_
  rw [← beq_iff_eq.1 heq]
  exact List.mem_map_of_mem hf

/-- **Members of other keys do not matter.** -/
theorem Fills.others {ms extra : List (Bytes × Tree)} (hextra : ∀ m ∈ extra, Foreign l.keys m)
    (h : l.Fills room ms d d') : l.Fills room (extra ++ ms) d d' := by
  induction extra with
  | nil => exact h
  | cons m extra ih =>
    obtain ⟨key, hkey, hnone⟩ := hextra m List.mem_cons_self
    have hrest := ih fun m hm => hextra m (List.mem_cons_of_mem _ hm)
    exact .other hkey (find?_eq_none hnone) hrest

end Layout

/-! ## 6. Variations -/

/-- Whatever is read of a tree is read of one that is related to it. -/
def Respects (read : Nested α) (R : Tree → Tree → Prop) : Prop :=
  ∀ ⦃room t t' a⦄, t.Spelled → t'.Spelled → R t t' → Takes (read room) t a → Takes (read room) t' a

theorem respects_eq (read : Nested α) : Respects read Eq := by
  rintro room t t' a - - rfl h
  exact h

/-- Lists whose items are related one by one. -/
inductive ListVaries (R : Tree → Tree → Prop) : Tree → Tree → Prop where
  | intro {ts ts' : List Tree} (h : List.Forall₂ R ts ts') : ListVaries R (.list ts) (.list ts')

theorem listOf_respects {read : Nested α} {R : Tree → Tree → Prop}
    (hread : ∀ room, Steady (read room)) (h : Respects read R) :
    Respects (listOf read) (ListVaries R) := by
  rintro room _ _ as hspelled hspelled' ⟨hvaries⟩ htakes
  rename_i ts ts'
  obtain ⟨bs, rest, hs⟩ := hspelled
  obtain ⟨room', ts₀, rfl, heq, hall⟩ := listOf_takes hread htakes hs
  cases heq
  refine takes_listOf ?_
  have hitems : ∀ t ∈ ts, t.Spelled := Tree.Spelled.items ⟨bs, rest, hs⟩
  have hitems' : ∀ t ∈ ts', t.Spelled := hspelled'.items
  clear hs htakes hspelled'
  induction hvaries generalizing as with
  | nil =>
    cases hall
    exact .nil
  | @cons t t' ts ts' hR _ ih =>
    obtain ⟨a, as', hhead, htail, rfl⟩ := List.forall₂_cons_left_iff.1 hall
    refine .cons (h (hitems t List.mem_cons_self) (hitems' t' List.mem_cons_self) hR hhead) ?_
    exact ih htail (fun t ht => hitems t (List.mem_cons_of_mem _ ht))
      fun t ht => hitems' t (List.mem_cons_of_mem _ ht)

/-- Two members of one key, whose values are related as the key says. -/
def MemberVaries (V : String → Tree → Tree → Prop) (m m' : Bytes × Tree) : Prop :=
  m'.1 = m.1 ∧ ∀ key, rawText? m.1 = some key → V key m.2 m'.2

theorem memberVaries_of_key {V : String → Tree → Tree → Prop} {raw : Bytes} {key : String}
    {t t' : Tree} (hkey : rawText? raw = some key) (h : V key t t') :
    MemberVaries V (raw, t) (raw, t') := by
  refine ⟨rfl, fun key' hkey' => ?_⟩
  cases hkey.symm.trans hkey'
  exact h

/-- **The members of an object vary**: their values do, members of other keys than the given ones
    come in, and all may change their places. -/
inductive MembersVary (keys : List String) (V : String → Tree → Tree → Prop) :
    List (Bytes × Tree) → List (Bytes × Tree) → Prop where
  | intro {ms varied extra ms' : List (Bytes × Tree)}
      (values : List.Forall₂ (MemberVaries V) ms varied)
      (foreign : ∀ m ∈ extra, Layout.Foreign keys m) (order : (extra ++ varied).Perm ms') :
      MembersVary keys V ms ms'

theorem MembersVary.mono {keys keys' : List String} {V V' : String → Tree → Tree → Prop}
    {ms ms' : List (Bytes × Tree)} (hkeys : ∀ key ∈ keys', key ∈ keys)
    (hV : ∀ key t t', V key t t' → V' key t t') (h : MembersVary keys V ms ms') :
    MembersVary keys' V' ms ms' := by
  obtain ⟨values, foreign, order⟩ := h
  refine .intro (values.imp fun m m' hm => ?_) (fun m hm => ?_) order
  · exact ⟨hm.1, fun key hkey => hV key _ _ (hm.2 key hkey)⟩
  · exact (foreign m hm).imp fun key ⟨hkey, hnone⟩ => ⟨hkey, fun hmem => hnone (hkeys key hmem)⟩

/-- The items of a list vary, each as the key at its place says. -/
inductive ItemsVary (V : String → Tree → Tree → Prop) :
    List String → List Tree → List Tree → Prop where
  | nil (keys : List String) : ItemsVary V keys [] []
  | cons {key : String} {keys : List String} {t t' : Tree} {ts ts' : List Tree} (h : V key t t')
      (rest : ItemsVary V keys ts ts') : ItemsVary V (key :: keys) (t :: ts) (t' :: ts')

/-- A thing with named fields varies, in the form that it has. -/
inductive ThingVaries (keys : List String) (V : String → Tree → Tree → Prop) :
    Tree → Tree → Prop where
  | object {ms ms' : List (Bytes × Tree)} (h : MembersVary keys V ms ms') :
      ThingVaries keys V (.object ms) (.object ms')
  | list {ts ts' : List Tree} (h : ItemsVary V keys ts ts') :
      ThingVaries keys V (.list ts) (.list ts')

/-- What is read for the field is read of values that are related. -/
def Field.Respects (f : Field δ) (R : Tree → Tree → Prop) : Prop :=
  ∀ ⦃room t t' d d'⦄, t.Spelled → t'.Spelled → R t t' → Takes (f.read room d) t d' →
    Takes (f.read room d) t' d'

theorem Field.of_respects {key : String} {get : δ → Option α} {put : δ → α → δ} {read : Nested α}
    {R : Tree → Tree → Prop} (hread : ∀ room, Steady (read room)) (h : Json.Respects read R) :
    (Field.of key get put read).Respects R := by
  intro room t t' d d' ht ht' hR htakes
  obtain ⟨a, ha, rfl⟩ := Field.of_takes hread ht htakes
  exact Field.takes_of (h ht ht' hR ha) d

namespace Layout

variable {l : Layout δ α} {d d' : δ} {V : String → Tree → Tree → Prop}

/-- Values that the fields do not tell apart may vary. -/
theorem Fills.vary (hV : ∀ f ∈ l.fields, f.Respects (V f.key)) {ms ms' : List (Bytes × Tree)}
    (h : l.Fills room ms d d') (hvaries : List.Forall₂ (MemberVaries V) ms ms')
    (hspelled : ∀ m ∈ ms', m.2.Spelled) : l.Fills room ms' d d' := by
  induction h generalizing ms' with
  | nil d =>
    cases hvaries
    exact .nil d
  | @known raw t ms d d₁ d' key f hk hf hn hs ht _ ih =>
    obtain ⟨⟨raw', t'⟩, ms₁, ⟨rfl, hvalue⟩, hrest, rfl⟩ := List.forall₂_cons_left_iff.1 hvaries
    have hkey : f.key = key :=
      beq_iff_eq.1 (List.find?_some (p := fun f : Field δ => f.key == key) hf)
    have hs' := hspelled _ List.mem_cons_self
    refine .known hk hf hn hs' ?_ (ih hrest fun m hm => hspelled m (List.mem_cons_of_mem _ hm))
    exact hV f (List.mem_of_find?_eq_some hf) hs hs' (hkey ▸ hvalue key hk) ht
  | @other raw t ms d d' key hk hf _ ih =>
    obtain ⟨⟨raw', t'⟩, ms₁, ⟨rfl, -⟩, hrest, rfl⟩ := List.forall₂_cons_left_iff.1 hvaries
    exact .other hk hf (ih hrest fun m hm => hspelled m (List.mem_cons_of_mem _ hm))

/-- **An object that varies fills the same draft.** -/
theorem Fills.membersVary (hl : l.Orderly) (hV : ∀ f ∈ l.fields, f.Respects (V f.key))
    {ms ms' : List (Bytes × Tree)} (h : l.Fills room ms d d')
    (hvaries : MembersVary l.keys V ms ms') (hspelled : ∀ m ∈ ms', m.2.Spelled) :
    l.Fills room ms' d d' := by
  obtain ⟨values, foreign, order⟩ := hvaries
  rename_i varied extra
  have hvaried : l.Fills room varied d d' := h.vary hV values fun m hm =>
    hspelled m (order.subset (List.mem_append_right _ hm))
  exact (hvaried.others foreign).perm hl order

theorem ItemFills.itemsVary {fs : List (Field δ)} (hV : ∀ f ∈ fs, f.Respects (V f.key))
    {ts ts' : List Tree} (h : ItemFills room fs ts d d')
    (hvaries : ItemsVary V (fs.map Field.key) ts ts') (hspelled : ∀ t ∈ ts, t.Spelled)
    (hspelled' : ∀ t ∈ ts', t.Spelled) : ItemFills room fs ts' d d' := by
  induction h generalizing ts' with
  | nil fs d =>
    generalize fs.map Field.key = keys at hvaries
    cases hvaries
    exact .nil fs d
  | @cons f fs t ts d d₁ d' ht _ ih =>
    cases hvaries with
    | @cons _ _ _ t' _ ts₁ hvalue hrest =>
      refine .cons (hV f List.mem_cons_self (hspelled t List.mem_cons_self)
        (hspelled' t' List.mem_cons_self) hvalue ht) ?_
      exact ih (fun f hf => hV f (List.mem_cons_of_mem _ hf)) hrest
        (fun t ht => hspelled t (List.mem_cons_of_mem _ ht))
        fun t ht => hspelled' t (List.mem_cons_of_mem _ ht)

/-- **An object is read alike when it varies.** -/
theorem object_respects (hl : l.Orderly) (hV : ∀ f ∈ l.fields, f.Respects (V f.key))
    {ms ms' : List (Bytes × Tree)} {a : α} (hspelled : (Tree.object ms).Spelled)
    (hspelled' : (Tree.object ms').Spelled) (hvaries : MembersVary l.keys V ms ms')
    (h : Takes (l.read room) (.object ms) a) :
    Takes (l.read room) (.object ms') a := by
  obtain ⟨room', d, rfl, hfilled, hfinish⟩ := filledBy_of_takes hl hspelled h
  have hfills : l.Fills room' ms l.blank d := hfilled
  exact takes_of_filledBy (hfills.membersVary hl hV hvaries hspelled'.members) hfinish

/-- **A thing with orderly fields is read alike when it varies**, in either form. -/
theorem read_respects (hl : l.Orderly) (hV : ∀ f ∈ l.fields, f.Respects (V f.key)) :
    Respects l.read (ThingVaries l.keys V) := by
  intro room t t' a hspelled hspelled' hvaries h
  cases hvaries with
  | object hvaries =>
    exact object_respects hl hV hspelled hspelled' hvaries h
  | list hvaries =>
    obtain ⟨room', d, rfl, hfilled, hfinish⟩ := filledBy_of_takes hl hspelled h
    exact takes_of_filledBy (ItemFills.itemsVary hV hfilled hvaries hspelled.items hspelled'.items)
      hfinish

end Layout

end RevisionWatch.Json
