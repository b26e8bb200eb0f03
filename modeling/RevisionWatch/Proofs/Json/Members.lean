import RevisionWatch.Proofs.Json.Varying
/-!
# One member among others

What a thing with named fields is given by one of its members: as the order does not matter, the
member may as well be read last (`Layout.fills_member`), and so may an item of a list
(`Layout.itemFills_cons`). If its value is replaced (`Replaced`), the thing is read with the other
value in that place, if this is read at all (`Layout.takes_replaced`).

Of a thing with one field alone it can be said outright when it is read and as what: the member of
the key, which may be missing, among members of other keys, or the only item of a list (`Sole`,
`Layout.Single.takes_iff`).
-/

namespace RevisionWatch.Json

/-- **What there is for the only field of a thing**: the value of the only member of its key, or
    nothing if no member has the key; of a list, the only item, or nothing. -/
inductive Sole (key : String) : Tree → Option Tree → Prop where
  | member (before after : List (Bytes × Tree)) (raw : Bytes) (t : Tree)
      (named : rawText? raw = some key)
      (others : ∀ m ∈ before ++ after, Layout.Foreign [key] m) :
      Sole key (.object (before ++ (raw, t) :: after)) (some t)
  | missing (ms : List (Bytes × Tree)) (others : ∀ m ∈ ms, Layout.Foreign [key] m) :
      Sole key (.object ms) none
  | item (t : Tree) : Sole key (.list [t]) (some t)
  | empty : Sole key (.list []) none

theorem Sole.spelled {key : String} {t u : Tree} (h : Sole key t (some u)) (ht : t.Spelled) :
    u.Spelled := by
  cases h with
  | member before after raw _ named others =>
    exact ht.members (raw, u) (List.mem_append_right _ List.mem_cons_self)
  | item => exact ht.items u List.mem_cons_self

/-- What there is for the field of an object is the value of a member. -/
theorem Sole.exists_member {key : String} {ms : List (Bytes × Tree)} {u : Tree}
    (h : Sole key (.object ms) (some u)) : ∃ m ∈ ms, rawText? m.1 = some key ∧ m.2 = u := by
  cases h with
  | member before after raw _ named others =>
    exact ⟨(raw, u), List.mem_append_right _ List.mem_cons_self, named, rfl⟩

/-- **The value of a field is another**: that of a member of its key, or the item at its place. -/
inductive Replaced (keys : List String) (key : String) (old new : Tree) : Tree → Tree → Prop where
  | member (before after : List (Bytes × Tree)) (raw : Bytes) (named : rawText? raw = some key) :
      Replaced keys key old new (.object (before ++ (raw, old) :: after))
        (.object (before ++ (raw, new) :: after))
  | item (front back : List Tree) (place : keys[front.length]? = some key) :
      Replaced keys key old new (.list (front ++ old :: back)) (.list (front ++ new :: back))

theorem Replaced.symm {keys : List String} {key : String} {old new t t' : Tree}
    (h : Replaced keys key old new t t') : Replaced keys key new old t' t := by
  cases h with
  | member before after raw named => exact .member before after raw named
  | item front back place => exact .item front back place

theorem Replaced.spelled_old {keys : List String} {key : String} {old new t t' : Tree}
    (h : Replaced keys key old new t t') (ht : t.Spelled) : old.Spelled := by
  cases h with
  | member before after raw named =>
    exact ht.members (raw, old) (List.mem_append_right _ List.mem_cons_self)
  | item front back place => exact ht.items old (List.mem_append_right _ List.mem_cons_self)

namespace Layout

variable {α β δ : Type} {l : Layout δ α} {room : Nat} {d d' : δ} {key : String} {raw : Bytes}
  {t : Tree} {ms ms' before after : List (Bytes × Tree)}

/-! ## 1. Any number of fields -/

theorem fills_append : l.Fills room (ms ++ ms') d d' ↔
    ∃ d₁, l.Fills room ms d d₁ ∧ l.Fills room ms' d₁ d' := by
  constructor
  · intro h
    induction ms generalizing d with
    | nil => exact ⟨d, .nil d, h⟩
    | cons m ms ih =>
      cases h with
      | known hk hf hn hs ht hd =>
        obtain ⟨d₁, hfront, hback⟩ := ih hd
        exact ⟨d₁, .known hk hf hn hs ht hfront, hback⟩
      | other hk hf hd =>
        obtain ⟨d₁, hfront, hback⟩ := ih hd
        exact ⟨d₁, .other hk hf hfront, hback⟩
  · rintro ⟨d₁, hfront, hback⟩
    induction hfront with
    | nil d => exact hback
    | known hk hf hn hs ht _ ih => exact .known hk hf hn hs ht (ih hback)
    | other hk hf _ ih => exact .other hk hf (ih hback)

theorem fills_singleton {f : Field δ} (hkey : rawText? raw = some key)
    (hf : l.fields.find? (·.key == key) = some f) : l.Fills room [(raw, t)] d d' ↔
      f.given d = false ∧ t.Spelled ∧ Takes (f.read room d) t d' := by
  constructor
  · intro h
    cases h with
    | known hk hf' hn hs ht hd =>
      cases hkey.symm.trans hk
      cases hf.symm.trans hf'
      cases hd
      exact ⟨hn, hs, ht⟩
    | other hk hf' _ =>
      cases hkey.symm.trans hk
      cases hf.symm.trans hf'
  · rintro ⟨hn, hs, ht⟩
    exact .known hkey hf hn hs ht (.nil d')

/-- **A member may be read behind all others.** -/
theorem fills_member (hl : l.Orderly) {f : Field δ} (hkey : rawText? raw = some key)
    (hf : l.fields.find? (·.key == key) = some f) :
    l.Fills room (before ++ (raw, t) :: after) d d' ↔
      ∃ d₁, l.Fills room (before ++ after) d d₁ ∧ f.given d₁ = false ∧ t.Spelled ∧
        Takes (f.read room d₁) t d' := by
  have hperm : (before ++ (raw, t) :: after).Perm (before ++ after ++ [(raw, t)]) :=
    List.perm_middle.trans (List.perm_append_singleton _ _).symm
  have hlast : l.Fills room (before ++ (raw, t) :: after) d d' ↔
      l.Fills room (before ++ after ++ [(raw, t)]) d d' :=
    ⟨fun h => h.perm hl hperm, fun h => h.perm hl hperm.symm⟩
  rw [hlast, fills_append]
  exact exists_congr fun d₁ => and_congr_right fun _ => fills_singleton hkey hf

theorem itemFills_append {fs : List (Field δ)} {ts ts' : List Tree} :
    ItemFills room fs (ts ++ ts') d d' ↔ ∃ fs₁ fs₂ d₁, fs = fs₁ ++ fs₂ ∧
      fs₁.length = ts.length ∧ ItemFills room fs₁ ts d d₁ ∧ ItemFills room fs₂ ts' d₁ d' := by
  constructor
  · intro h
    induction ts generalizing fs d with
    | nil => exact ⟨[], fs, d, rfl, rfl, .nil [] d, h⟩
    | cons t ts ih =>
      cases h with
      | cons ht hd =>
        obtain ⟨fs₁, fs₂, d₁, rfl, hlen, hfront, hback⟩ := ih hd
        exact ⟨_ :: fs₁, fs₂, d₁, rfl, congrArg Nat.succ hlen, .cons ht hfront, hback⟩
  · rintro ⟨fs₁, fs₂, d₁, rfl, hlen, hfront, hback⟩
    induction hfront with
    | nil fs d =>
      obtain rfl := List.eq_nil_of_length_eq_zero hlen
      exact hback
    | cons ht _ ih => exact .cons ht (ih (Nat.succ.inj hlen) hback)

/-- **An item may be read behind those that follow it**, if its field is apart from theirs. -/
theorem itemFills_cons {f : Field δ} {fs : List (Field δ)} {ts : List Tree}
    (hapart : ∀ g ∈ fs, Field.Apart f g) (ht : t.Spelled) (hts : ∀ u ∈ ts, u.Spelled) :
    ItemFills room (f :: fs) (t :: ts) d d' ↔
      ∃ d₁, ItemFills room fs ts d d₁ ∧ Takes (f.read room d₁) t d' := by
  constructor
  · intro h
    cases h with
    | cons htake hd =>
      induction hd generalizing d with
      | nil fs d₁ => exact ⟨d, .nil fs d, htake⟩
      | @cons g fs u us d₁ d₂ d₃ hu hrest ih =>
        obtain ⟨hg, hfs⟩ := List.forall_mem_cons.1 hapart
        obtain ⟨hu', hus⟩ := List.forall_mem_cons.1 hts
        obtain ⟨e, he, he'⟩ := hg.1.commute ht hu' htake hu
        obtain ⟨d₄, hfills, hlast⟩ := ih hfs hus he'
        exact ⟨d₄, .cons he hfills, hlast⟩
  · rintro ⟨d₁, hfills, hlast⟩
    induction hfills with
    | nil fs d => exact .cons hlast (.nil fs d')
    | @cons g fs u us d₁ d₂ d₃ hu hrest ih =>
      obtain ⟨hg, hfs⟩ := List.forall_mem_cons.1 hapart
      obtain ⟨hu', hus⟩ := List.forall_mem_cons.1 hts
      cases ih hfs hus hlast with
      | cons htake hd =>
        obtain ⟨e, he, he'⟩ := hg.2.commute hu' ht hu htake
        exact .cons he (.cons he' hd)

/-- Members of other keys leave a draft as it is. -/
theorem fills_of_foreign (h : ∀ m ∈ ms, Foreign l.keys m) (d : δ) : l.Fills room ms d d := by
  have hnil : l.Fills room [] d d := .nil d
  have hfills := hnil.others h
  rwa [List.append_nil] at hfills

/-! ## 2. A value that is replaced -/

section Replacing

variable {get : δ → Option β} {put : δ → β → δ} {read : Nested β} {a : α} {old new t' : Tree}

/-- A field is found by its key. -/
theorem find?_of_mem (hone : l.keys.Nodup) {f : Field δ} (hmem : f ∈ l.fields) :
    l.fields.find? (·.key == f.key) = some f := by
  cases hfind : l.fields.find? (·.key == f.key) with
  | none => exact absurd (beq_self_eq_true f.key) (List.find?_eq_none.1 hfind f hmem)
  | some g =>
    have hkey := List.find?_some hfind
    rw [List.inj_on_of_nodup_map hone (List.mem_of_find?_eq_some hfind) hmem (beq_iff_eq.1 hkey)]

/-- The field at the place of a key is that of the key. -/
theorem field_of_place (hone : l.keys.Nodup) {f g : Field δ} {fs gs : List (Field δ)}
    (hfields : l.fields = fs ++ g :: gs) (hmem : f ∈ l.fields)
    (hplace : l.keys[fs.length]? = some f.key) : g = f := by
  have hkey : g.key = f.key := by
    rw [Layout.keys, hfields, List.map_append, List.map_cons] at hplace
    rw [List.getElem?_append_right (by simp)] at hplace
    simpa using hplace
  refine List.inj_on_of_nodup_map hone ?_ hmem hkey
  rw [hfields]
  exact List.mem_append_right _ List.mem_cons_self

/-- **A thing of which a value is replaced.** What was read of the value is in its place of the
    draft; what is read of the other value comes there instead. -/
theorem takes_replaced (hl : l.Orderly) (hone : l.keys.Nodup)
    (hmem : Field.of key get put read ∈ l.fields) (hread : ∀ room, Steady (read room))
    (ht : t.Spelled) (ht' : t'.Spelled) (hreplaced : Replaced l.keys key old new t t')
    (htakes : Takes (l.read (room + 1)) t a) :
    ∃ d b, Takes (read room) old b ∧ l.finish (put d b) = .ok a ∧
      ∀ b' a', Takes (read room) new b' → l.finish (put d b') = .ok a' →
        Takes (l.read (room + 1)) t' a' := by
  obtain ⟨room', d', hroom, hfilled, hfinish⟩ := filledBy_of_takes hl ht htakes
  obtain rfl := Nat.succ.inj hroom
  have hold := hreplaced.spelled_old ht
  have hnew := hreplaced.symm.spelled_old ht'
  cases hreplaced with
  | member before after raw named =>
    have hfind : l.fields.find? (·.key == key) = some (.of key get put read) :=
      find?_of_mem hone hmem
    obtain ⟨d, hfills, hnone, -, hlast⟩ := (fills_member hl named hfind).1 hfilled
    obtain ⟨b, hb, rfl⟩ := Field.of_takes hread hold hlast
    refine ⟨d, b, hb, hfinish, fun b' a' hb' hfinish' => takes_of_filledBy ?_ hfinish'⟩
    exact (fills_member hl named hfind).2 ⟨d, hfills, hnone, hnew, Field.takes_of hb' d⟩
  | item front back place =>
    obtain ⟨fs, gs, d₁, hfields, hlen, hfront, hback⟩ := itemFills_append.1 hfilled
    cases hback with
    | @cons g gs _ _ _ _ _ htake hrest =>
      have hplace : l.keys[fs.length]? = some key := by rwa [hlen]
      obtain rfl := field_of_place hone hfields hmem hplace
      have hapart : ∀ g ∈ gs, Field.Apart (.of key get put read) g := by
        have hpairs := hl.apart
        rw [hfields] at hpairs
        exact (List.pairwise_cons.1 (List.pairwise_append.1 hpairs).2.1).1
      have hbacks : ∀ u ∈ back, u.Spelled := fun u hu =>
        ht.items u (List.mem_append_right _ (List.mem_cons_of_mem _ hu))
      obtain ⟨d, hfills, hlast⟩ := (itemFills_cons hapart hold hbacks).1 (.cons htake hrest)
      obtain ⟨b, hb, rfl⟩ := Field.of_takes hread hold hlast
      refine ⟨d, b, hb, hfinish, fun b' a' hb' hfinish' => takes_of_filledBy ?_ hfinish'⟩
      refine itemFills_append.2 ⟨fs, _, d₁, hfields, hlen, hfront, ?_⟩
      exact (itemFills_cons hapart hnew hbacks).2 ⟨d, hfills, Field.takes_of hb' d⟩

end Replacing

/-! ## 3. One field -/

/-- The thing has one field. -/
structure Single (l : Layout (Option β) α) (key : String) (read : Nested β) : Prop where
  fields : l.fields = [.of key id (fun _ b => some b) read]
  blank : l.blank = none
  steady : ∀ room, Steady (read room)

namespace Single

variable {l : Layout (Option β) α} {read : Nested β} {b : β} {b? : Option β}

theorem orderly (h : l.Single key read) : l.Orderly where
  steady := by
    intro f hf
    rw [h.fields, List.mem_singleton] at hf
    subst hf
    exact Field.of_steady h.steady fun _ _ => rfl
  apart := by
    rw [h.fields]
    exact List.pairwise_singleton _ _

theorem keys (h : l.Single key read) : l.keys = [key] := by
  rw [Layout.keys, h.fields]
  rfl

theorem find? (h : l.Single key read) :
    l.fields.find? (·.key == key) = some (.of key id (fun _ b => some b) read) := by
  rw [h.fields, List.find?_singleton]
  exact if_pos (beq_self_eq_true key)

/-- A member is of the key, or of another. -/
theorem foreign_of_find? {key' : String} (h : l.Single key read) (hkey : rawText? raw = some key')
    (hf : l.fields.find? (·.key == key') = none) : Foreign [key] (raw, t) := by
  refine ⟨key', hkey, fun hmem => ?_⟩
  rw [List.mem_singleton.1 hmem, h.find?] at hf
  cases hf

/-- Behind the member of the key there is no other of it. -/
theorem fills_some (h : l.Single key read) (hd : l.Fills room ms (some b) b?) :
    (∀ m ∈ ms, Foreign [key] m) ∧ b? = some b := by
  generalize hfull : some b = d at hd
  induction hd with
  | nil d => exact ⟨fun m hm => absurd hm List.not_mem_nil, rfl⟩
  | known hk hf hn hs ht _ _ =>
    have hmem := List.mem_of_find?_eq_some hf
    rw [h.fields, List.mem_singleton] at hmem
    rw [hmem, ← hfull] at hn
    cases hn
  | other hk hf _ ih =>
    obtain ⟨hforeign, hb⟩ := ih hfull
    exact ⟨List.forall_mem_cons.2 ⟨h.foreign_of_find? hk hf, hforeign⟩, hb⟩

/-- The members of an object give the only field what the one of its key gives. -/
theorem sole_of_fills (h : l.Single key read) (hd : l.Fills room ms none b?) :
    ∃ t?, Sole key (.object ms) t? ∧ Option.Rel (Takes (read room)) t? b? := by
  generalize hempty : (none : Option β) = d at hd
  induction hd with
  | nil d =>
    subst hempty
    exact ⟨none, .missing [] fun m hm => absurd hm List.not_mem_nil, .none⟩
  | @known raw t ms d d₁ d' key' f hk hf hn hs ht hd _ =>
    have hmem := List.mem_of_find?_eq_some hf
    rw [h.fields, List.mem_singleton] at hmem
    subst hmem
    have hkey : key = key' :=
      beq_iff_eq.1 (List.find?_some (p := fun f : Field (Option β) => f.key == key') hf)
    obtain ⟨b, hb, rfl⟩ := Field.of_takes h.steady hs ht
    obtain ⟨hforeign, rfl⟩ := h.fills_some hd
    exact ⟨some t, .member [] ms raw t (hkey ▸ hk) hforeign, .some hb⟩
  | @other raw t ms d d' key' hk hf _ ih =>
    have hforeign : Foreign [key] (raw, t) := h.foreign_of_find? hk hf
    obtain ⟨t?, hsole, hrel⟩ := ih hempty
    refine ⟨t?, ?_, hrel⟩
    generalize hobject : Tree.object ms = tree at hsole
    cases hsole with
    | member before after raw' t' named others =>
      cases hobject
      exact .member ((raw, t) :: before) after raw' t' named
        (List.forall_mem_cons.2 ⟨hforeign, others⟩)
    | missing ms' others =>
      cases hobject
      exact .missing _ (List.forall_mem_cons.2 ⟨hforeign, others⟩)
    | item | empty => cases hobject

theorem fills_of_sole (h : l.Single key read) {t? : Option Tree} (hms : ∀ m ∈ ms, m.2.Spelled)
    (hsole : Sole key (.object ms) t?) (hrel : Option.Rel (Takes (read room)) t? b?) :
    l.Fills room ms none b? := by
  cases hsole with
  | member before after raw t named others =>
    have hspelled : t.Spelled := hms (raw, t) (List.mem_append_right _ List.mem_cons_self)
    rw [← h.keys] at others
    cases hrel with
    | some htakes =>
      exact (fills_member h.orderly named h.find?).2
        ⟨none, fills_of_foreign others none, rfl, hspelled, Field.takes_of htakes none⟩
  | missing _ others =>
    rw [← h.keys] at others
    cases hrel
    exact fills_of_foreign others none

/-- **When a thing with one field is read of a tree, and as what.** -/
theorem takes_iff (h : l.Single key read) {a : α} (ht : t.Spelled) :
    Takes (l.read room) t a ↔
      ∃ room' t? b?, room = room' + 1 ∧ Sole key t t? ∧ Option.Rel (Takes (read room')) t? b? ∧
        l.finish b? = .ok a := by
  constructor
  · intro htakes
    obtain ⟨room', b?, rfl, hfilled, hfinish⟩ := filledBy_of_takes h.orderly ht htakes
    have hgiven : ∃ t?, Sole key t t? ∧ Option.Rel (Takes (read room')) t? b? := by
      cases t with
      | object ms =>
        have hfills : l.Fills room' ms l.blank b? := hfilled
        rw [h.blank] at hfills
        exact h.sole_of_fills hfills
      | list ts =>
        have hfills : ItemFills room' l.fields ts l.blank b? := hfilled
        rw [h.blank, h.fields] at hfills
        cases hfills with
        | nil => exact ⟨none, .empty, .none⟩
        | @cons _ _ t _ _ _ _ htake hrest =>
          cases hrest
          obtain ⟨b, hb, rfl⟩ := Field.of_takes h.steady (ht.items _ List.mem_cons_self) htake
          exact ⟨some t, .item t, .some hb⟩
      | null | boolean _ | number _ | text _ => exact hfilled.elim
    obtain ⟨t?, hsole, hrel⟩ := hgiven
    exact ⟨room', t?, b?, rfl, hsole, hrel, hfinish⟩
  · rintro ⟨room', t?, b?, rfl, hsole, hrel, hfinish⟩
    refine takes_of_filledBy ?_ hfinish
    cases t with
    | object ms =>
      show l.Fills room' ms l.blank b?
      rw [h.blank]
      exact h.fills_of_sole ht.members hsole hrel
    | list ts =>
      show ItemFills room' l.fields ts l.blank b?
      rw [h.blank, h.fields]
      cases hsole with
      | item t =>
        cases hrel with
        | some htakes => exact .cons (Field.takes_of htakes none) (.nil _ _)
      | empty =>
        cases hrel
        exact .nil _ _
    | null | boolean _ | number _ | text _ => cases hsole

end Single

end Layout

end RevisionWatch.Json
