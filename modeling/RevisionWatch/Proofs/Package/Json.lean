import Mathlib.Data.List.Perm.Basic
import RevisionWatch.Package.Json
import RevisionWatch.Proofs.Json.Printed
import RevisionWatch.Proofs.Json.Varying
/-!
# Packages come back from JSON

A package that is written as a compact JSON text is read from it again, whatever characters its name
and its version are made of, and it is read from every text that differs in the order of the members
(`Package.ofJson_toJson`). The members of the package are those of a thing with named fields; the
members of the state are gathered until its kind is known (`Gathers`), and as all but the kind are
kept in any case, what comes of them does not depend on where the kind stands (`Gathers.perm`).
-/

namespace RevisionWatch

open Json (Tree Spells IsText Takes Steady Content MemberMeans)

/-! ## 1. The service state -/

namespace ServiceState

variable {room : Nat} {bs rest : Bytes} {ms ms' : List (Bytes × Tree)} {k k' : Option Kind}
  {cs cs' : List (String × Content)} {s : ServiceState} {t : Tree}

theorem readKind_steady : Steady readKind := by
  intro bs k rest h
  unfold readKind at h
  obtain ⟨⟨name, rest'⟩, hname, h⟩ := bind_eq_ok h
  obtain ⟨t, ht, htakes⟩ := Json.text_steady _ hname
  dsimp only at h
  split at h
  · rename_i k' hk
    cases h
    refine ⟨t, ht, fun bs' rest' ht' => ?_⟩
    unfold readKind
    rw [htakes ht', ok_bind]
    dsimp only
    rw [hk]
  · cases h

/-- The kind that a name is read as. -/
theorem takes_readKind {name : String} {kind : Kind} (ht : t.text? = some name)
    (hk : kind? name = .ok kind) : Takes readKind t kind := by
  intro bs rest hs
  unfold readKind
  rw [Json.takes_text _ ht hs, ok_bind]
  dsimp only
  rw [hk]

/-- **What the members of a state give**: the kind, which is given once at most, and the others as
    they stand. -/
inductive Gathers (room : Nat) : List (Bytes × Tree) → Option Kind → Option Kind →
    List (String × Content) → Prop where
  | nil (k : Option Kind) : Gathers room [] k k []
  | kind {raw : Bytes} {t : Tree} {ms : List (Bytes × Tree)} {kind : Kind} {k : Option Kind}
      {cs : List (String × Content)} (hk : Json.rawText? raw = some "kind")
      (ht : Takes readKind t kind) (rest : Gathers room ms (some kind) k cs) :
      Gathers room ((raw, t) :: ms) none k cs
  | other {raw : Bytes} {t : Tree} {ms : List (Bytes × Tree)} {key : String} {c : Content}
      {k k' : Option Kind} {cs : List (String × Content)} (hk : Json.rawText? raw = some key)
      (hne : key ≠ "kind") (ht : Takes (Json.content room) t c) (rest : Gathers room ms k k' cs) :
      Gathers room ((raw, t) :: ms) k k' ((key, c) :: cs)

/-- The members of an object that is read are gathered. -/
theorem gathers_of_membersFrom : ∀ {fuel : Bytes} {first : Bool} {k k' : Option Kind}
    {acc out : List (String × Content)} {bs bs' : Bytes},
      membersFrom room fuel first k acc bs = .ok ((k', out), bs') →
        Json.afterByte Json.closeObject bs' = .ok rest →
          ∃ ms cs, Spells bs (.members first ms) rest ∧ Gathers room ms k k' cs ∧
            out = acc.reverse ++ cs
  | [], _, _, _, _, _, _, _, h, _ => nomatch h
  | _ :: fuel, first, k, k', acc, out, bs, bs', h, hc => by
    rw [membersFrom] at h
    obtain ⟨next, hn, hnext⟩ := bind_eq_ok h
    clear h
    cases next with
    | none =>
      cases hnext
      exact ⟨[], [], .endMembers (Json.afterByte_eq_ok.1 hc), .nil k, (List.append_nil _).symm⟩
    | some bs₁ =>
      obtain ⟨⟨key, bs₂⟩, hkey, h⟩ := bind_eq_ok hnext
      clear hnext
      dsimp only at h
      obtain ⟨raw, hbs, hraw, hname⟩ := Json.textBody_sound hkey
      rw [hbs] at hn
      have hstep := Json.nextKey_eq_ok.1 hn
      split at h
      · rename_i heq
        subst heq
        split at h
        · cases h
        · rename_i hnone
          obtain rfl : k = none := Option.not_isSome_iff_eq_none.1 hnone
          obtain ⟨bs₃, hcolon, h⟩ := bind_eq_ok h
          obtain ⟨⟨kind, bs₄⟩, hkind, h⟩ := bind_eq_ok h
          obtain ⟨t, ht, htakes⟩ := readKind_steady hkind
          obtain ⟨ms, cs, hms, hgathers, rfl⟩ := gathers_of_membersFrom h hc
          exact ⟨(raw, t) :: ms, cs, .member hstep hraw (Json.afterByte_eq_ok.1 hcolon) ht hms,
            .kind hname htakes hgathers, rfl⟩
      · rename_i hne
        obtain ⟨bs₃, hcolon, h⟩ := bind_eq_ok h
        obtain ⟨⟨c, bs₄⟩, hcontent, h⟩ := bind_eq_ok h
        obtain ⟨t, ht, htakes⟩ := Json.content_steady room hcontent
        obtain ⟨ms, cs, hms, hgathers, rfl⟩ := gathers_of_membersFrom h hc
        exact ⟨(raw, t) :: ms, (key, c) :: cs,
          .member hstep hraw (Json.afterByte_eq_ok.1 hcolon) ht hms,
          .other hname hne htakes hgathers, by simp⟩

/-- **Members that can be gathered are**, wherever they are spelled. -/
theorem membersFrom_of_gathers (h : Gathers room ms k k' cs) :
    ∀ {first : Bool} {bs rest : Bytes}, Spells bs (.members first ms) rest →
      ∀ (fuel : Bytes) (acc : List (String × Content)), bs.length ≤ fuel.length →
        ∃ bs', membersFrom room fuel first k acc bs = .ok ((k', acc.reverse ++ cs), bs') ∧
          Json.afterByte Json.closeObject bs' = .ok rest := by
  induction h with
  | nil k =>
    intro first bs rest hs fuel acc hf
    obtain ⟨f, fuel, rfl⟩ := hs.exists_fuel hf
    cases hs with
    | endMembers hd =>
      refine ⟨bs, ?_, Json.afterByte_eq_ok.2 hd⟩
      rw [membersFrom, Json.nextKey_eq_ok.2 (.closed first rest hd), List.append_nil]
      rfl
  | @kind raw t ms kind k cs hk htakes _ ih =>
    intro first bs rest hs fuel acc hfuel
    obtain ⟨b, fuel, rfl⟩ := hs.exists_fuel hfuel
    cases hs with
    | @member _ _ bs₁ bs₂ bs₃ _ _ _ _ hstep hraw hc ht hms =>
      have hfuel' := Nat.le_of_lt_succ (Nat.lt_of_lt_of_le (hstep.length_lt hc ht) hfuel)
      obtain ⟨bs', hread, hclose⟩ := ih hms fuel acc hfuel'
      refine ⟨bs', ?_, hclose⟩
      rw [membersFrom, Json.nextKey_eq_ok.2 hstep, ok_bind]
      show (Json.textBody (raw ++ Json.quote :: bs₁) >>= _) = _
      rw [Json.textBody_of_rawText? hraw hk, ok_bind]
      dsimp only
      rw [if_pos rfl, if_neg (by decide), Json.afterByte_eq_ok.2 hc, ok_bind]
      show (readKind bs₂ >>= _) = _
      rw [htakes ht, ok_bind]
      exact hread
  | @other raw t ms key c k k' cs hk hne htakes _ ih =>
    intro first bs rest hs fuel acc hfuel
    obtain ⟨b, fuel, rfl⟩ := hs.exists_fuel hfuel
    cases hs with
    | @member _ _ bs₁ bs₂ bs₃ _ _ _ _ hstep hraw hc ht hms =>
      have hfuel' := Nat.le_of_lt_succ (Nat.lt_of_lt_of_le (hstep.length_lt hc ht) hfuel)
      obtain ⟨bs', hread, hclose⟩ := ih hms fuel ((key, c) :: acc) hfuel'
      refine ⟨bs', ?_, hclose⟩
      rw [membersFrom, Json.nextKey_eq_ok.2 hstep, ok_bind]
      show (Json.textBody (raw ++ Json.quote :: bs₁) >>= _) = _
      rw [Json.textBody_of_rawText? hraw hk, ok_bind]
      dsimp only
      rw [if_neg hne, Json.afterByte_eq_ok.2 hc, ok_bind]
      show (Json.content room bs₂ >>= _) = _
      rw [htakes ht, ok_bind]
      dsimp only
      rw [hread]
      simp

/-- **The order of the members does not matter**: the kind may stand anywhere, and the others come in
    their order. -/
theorem Gathers.perm (h : Gathers room ms k k' cs) (hp : ms.Perm ms') :
    ∃ cs', Gathers room ms' k k' cs' ∧ cs.Perm cs' := by
  induction hp generalizing k cs with
  | nil => exact ⟨cs, h, .refl cs⟩
  | cons m _ ih =>
    cases h with
    | kind hk ht hrest =>
      obtain ⟨cs', hgathers, hperm⟩ := ih hrest
      exact ⟨cs', .kind hk ht hgathers, hperm⟩
    | other hk hne ht hrest =>
      obtain ⟨cs', hgathers, hperm⟩ := ih hrest
      exact ⟨_, .other hk hne ht hgathers, hperm.cons _⟩
  | swap m m' ms =>
    cases h with
    | kind hk ht hrest =>
      cases hrest with
      | other hk' hne' ht' hrest => exact ⟨_, .other hk' hne' ht' (.kind hk ht hrest), .refl _⟩
    | other hk hne ht hrest =>
      cases hrest with
      | kind hk' ht' hrest => exact ⟨_, .kind hk' ht' (.other hk hne ht hrest), .refl _⟩
      | other hk' hne' ht' hrest =>
        exact ⟨_, .other hk' hne' ht' (.other hk hne ht hrest), .swap _ _ _⟩
  | trans _ _ ih ih' =>
    obtain ⟨cs', hgathers, hperm⟩ := ih h
    obtain ⟨cs'', hgathers', hperm'⟩ := ih' hgathers
    exact ⟨cs'', hgathers', hperm.trans hperm'⟩

/-- The members that say whether a service is active. -/
def actives (cs : List (String × Content)) : List (String × Content) :=
  cs.filter (·.1 == "active")

theorem activeOf_some {b : Bool} {x : Option Bool} :
    activeOf (some b) cs = .ok x ↔ actives cs = [] ∧ x = some b := by
  induction cs with
  | nil => exact ⟨fun h => ⟨rfl, (Except.ok.inj h).symm⟩, fun h => congrArg _ h.2.symm⟩
  | cons m cs ih =>
    obtain ⟨key, c⟩ := m
    rw [activeOf]
    unfold actives
    by_cases hkey : key = "active"
    · rw [if_pos hkey, List.filter_cons_of_pos (by simpa using hkey)]
      exact ⟨fun h => (nomatch h), fun h => (nomatch h.1)⟩
    · rw [if_neg hkey, List.filter_cons_of_neg (by simpa using hkey)]
      exact ih

/-- **Whether a service is active** is said by one member, or by none. -/
theorem activeOf_none {x : Option Bool} : activeOf none cs = .ok x ↔
    (actives cs = [] ∧ x = none) ∨
      ∃ m b, actives cs = [m] ∧ active? m.2 = .ok b ∧ x = some b := by
  induction cs with
  | nil =>
    constructor
    · intro h
      exact .inl ⟨rfl, (Except.ok.inj h).symm⟩
    · rintro (⟨-, rfl⟩ | ⟨m, b, hm, -⟩)
      · rfl
      · cases hm
  | cons m cs ih =>
    obtain ⟨key, c⟩ := m
    rw [activeOf]
    unfold actives at ih ⊢
    by_cases hkey : key = "active"
    · rw [if_pos hkey, List.filter_cons_of_pos (by simpa using hkey)]
      constructor
      · intro h
        obtain ⟨b, hb, h⟩ := bind_eq_ok h
        obtain ⟨hnil, rfl⟩ := activeOf_some.1 h
        exact .inr ⟨(key, c), b, congrArg _ hnil, hb, rfl⟩
      · rintro (⟨hnil, -⟩ | ⟨m, b, hm, hb, rfl⟩)
        · cases hnil
        · obtain ⟨rfl, hnil⟩ := List.cons.inj hm
          show (active? c >>= _) = _
          rw [hb, ok_bind]
          exact activeOf_some.2 ⟨hnil, rfl⟩
    · rw [if_neg hkey, List.filter_cons_of_neg (by simpa using hkey)]
      exact ih

theorem activeOf_perm {x : Option Bool} (h : activeOf none cs = .ok x) (hp : cs.Perm cs') :
    activeOf none cs' = .ok x := by
  have hactives : (actives cs').Perm (actives cs) := hp.symm.filter _
  rw [activeOf_none] at h ⊢
  rcases h with ⟨hnil, rfl⟩ | ⟨m, b, hm, hb⟩
  · rw [hnil] at hactives
    exact .inl ⟨hactives.eq_nil, rfl⟩
  · rw [hm] at hactives
    exact .inr ⟨m, b, hactives.eq_singleton, hb⟩

theorem ofMembers_perm {kind : Kind} (h : ofMembers kind cs = .ok s) (hp : cs.Perm cs') :
    ofMembers kind cs' = .ok s := by
  cases kind with
  | notService => exact h
  | service =>
    obtain ⟨found, hfound, h⟩ := bind_eq_ok h
    show (activeOf none cs' >>= _) = _
    rw [activeOf_perm hfound hp]
    exact h

/-- **The state that a tree gives**, in either form. -/
inductive Gives (room : Nat) : Tree → ServiceState → Prop where
  | object {ms : List (Bytes × Tree)} {kind : Kind} {cs : List (String × Content)}
      {s : ServiceState} (members : Gathers room ms none (some kind) cs)
      (state : ofMembers kind cs = .ok s) : Gives room (.object ms) s
  | list {t : Tree} {ts : List Tree} {kind : Kind} {cs : List Content} {s : ServiceState}
      (first : Takes readKind t kind) (others : List.Forall₂ (Takes (Json.content room)) ts cs)
      (state : ofItems kind cs = .ok s) : Gives room (.list (t :: ts)) s

/-- **A state is read of every tree that gives it.** -/
theorem takes_of_gives (h : Gives room t s) : Takes (read (room + 1)) t s := by
  intro bs rest hs
  cases h with
  | @object ms kind cs _ members state =>
    cases hs with
    | @object _ _ b bs₁ _ hd hb hms =>
      obtain ⟨bs', hread, hclose⟩ := membersFrom_of_gathers members hms bs₁ [] (Nat.le_refl _)
      unfold read
      rw [hd]
      dsimp only
      rw [if_pos (beq_iff_eq.2 (Json.eq_openObject hb))]
      unfold object
      rw [hread, ok_bind]
      dsimp only
      rw [hclose, ok_bind, List.reverse_nil, List.nil_append, state]
  | @list t ts kind cs _ first others state =>
    cases hs with
    | @list _ _ b bs₁ _ hd hb hts =>
      cases hts with
      | @item _ bs₂ bs₃ _ _ _ _ hstep ht hts =>
        have hobject : b ≠ Json.openObject := by
          rw [Json.eq_openList hb]
          decide
        have hitems := Json.itemsFrom_takes others hts bs₃ [] (Nat.le_refl _)
        unfold read
        rw [hd]
        dsimp only
        rw [if_neg (mt beq_iff_eq.1 hobject), if_pos (beq_iff_eq.2 (Json.eq_openList hb))]
        unfold list
        rw [Json.nextItem_eq_ok.2 hstep, ok_bind]
        show (readKind bs₂ >>= _) = _
        rw [first ht, ok_bind]
        show (Json.itemsFrom (Json.content room) bs₃ false [] bs₃ >>= _) = _
        rw [hitems, ok_bind, List.reverse_nil, List.nil_append]
        dsimp only
        rw [state]

/-- What is read is given by a tree. -/
theorem gives_of_read (h : read room bs = .ok (s, rest)) :
    ∃ room' t, room = room' + 1 ∧ Spells bs (.value t) rest ∧ Gives room' t s := by
  unfold read at h
  split at h
  · cases h
  · rename_i b bs₁ hd
    split at h
    · rename_i hb
      rw [beq_iff_eq.1 hb] at hd
      cases room with
      | zero => cases h
      | succ room =>
        obtain ⟨⟨⟨k, cs⟩, bs₂⟩, hms, h⟩ := bind_eq_ok h
        dsimp only at h
        split at h
        · cases h
        · rename_i kind
          obtain ⟨rest', hc, h⟩ := bind_eq_ok h
          split at h
          · rename_i s' hstate
            cases h
            obtain ⟨ms, cs', hms, hgathers, heq⟩ := gathers_of_membersFrom hms hc
            obtain rfl : cs = cs' := heq
            exact ⟨room, .object ms, rfl, .object hd (by decide) hms, .object hgathers hstate⟩
          · cases h
    · split at h
      · rename_i hb
        rw [beq_iff_eq.1 hb] at hd
        cases room with
        | zero => cases h
        | succ room =>
          obtain ⟨next, hn, h⟩ := bind_eq_ok h
          cases next with
          | none => cases h
          | some start =>
            obtain ⟨⟨kind, bs₂⟩, hkind, h⟩ := bind_eq_ok h
            obtain ⟨⟨cs, bs₃⟩, hitems, h⟩ := bind_eq_ok h
            dsimp only at h
            split at h
            · rename_i s' hstate
              cases h
              obtain ⟨t, ht, hfirst⟩ := readKind_steady hkind
              obtain ⟨ts, cs', hts, hothers, heq⟩ :=
                Json.itemsFrom_sound (Json.content_steady room) hitems
              obtain rfl : cs = cs' := heq
              exact ⟨room, .list (t :: ts), rfl,
                .list hd (by decide) (.item (Json.nextItem_eq_ok.1 hn) ht hts),
                .list hfirst hothers hstate⟩
            · cases h
      · cases h

/-- **A state is a matter of its tree.** -/
theorem read_steady (room : Nat) : Steady (read room) := by
  intro bs s rest h
  obtain ⟨room', t, rfl, hs, hgives⟩ := gives_of_read h
  exact ⟨t, hs, takes_of_gives hgives⟩

/-- Two states that are told apart by the order of their members only. -/
inductive Reordered : Tree → Tree → Prop where
  | same (t : Tree) : Reordered t t
  | members {ms ms' : List (Bytes × Tree)} (order : ms.Perm ms') :
      Reordered (.object ms) (.object ms')

theorem Reordered.symm {t t' : Tree} (h : Reordered t t') : Reordered t' t := by
  cases h with
  | same => exact .same _
  | members order => exact .members order.symm

theorem read_respects : Json.Respects read Reordered := by
  intro room t t' s hspelled _ hvaries htakes
  cases hvaries with
  | same => exact htakes
  | members order =>
    obtain ⟨bs, rest, hs⟩ := hspelled
    obtain ⟨room', t', rfl, hs', hgives⟩ := gives_of_read (htakes hs)
    obtain ⟨rfl, -⟩ := hs.value_unique hs'
    cases hgives with
    | object members state =>
      obtain ⟨cs', hgathers, hperm⟩ := members.perm order
      exact takes_of_gives (.object hgathers (ofMembers_perm state hperm))

end ServiceState

/-! ## 2. The package -/

namespace Package

variable {room : Nat} {bs bs' : Bytes} {t t' : Tree}

theorem readRevision_steady : Steady readRevision := by
  intro bs r rest h
  unfold readRevision at h
  obtain ⟨⟨n, rest'⟩, hn, h⟩ := bind_eq_ok h
  obtain ⟨t, ht, htakes⟩ := Json.natural_steady _ _ hn
  dsimp only at h
  split at h
  · rename_i r' hr
    cases h
    refine ⟨t, ht, fun bs' rest' ht' => ?_⟩
    unfold readRevision
    rw [htakes ht', ok_bind]
    dsimp only
    rw [hr]
  · cases h

theorem version_steady : Steady (Json.optional Json.text) :=
  Json.optional_steady (Json.text_steady _)

theorem layout_orderly : layout.Orderly where
  steady := by
    intro f hf
    simp only [layout, List.mem_cons, List.not_mem_nil, or_false] at hf
    rcases hf with rfl | rfl | rfl | rfl
    · exact Json.Field.of_steady (fun _ => Json.text_steady _) fun _ _ => rfl
    · exact Json.Field.of_steady (fun _ => readRevision_steady) fun _ _ => rfl
    · exact Json.Field.of_steady (fun _ => version_steady) fun _ _ => rfl
    · exact Json.Field.of_steady ServiceState.read_steady fun _ _ => rfl
  apart := by
    refine .cons (fun g hg => ?_) (.cons (fun g hg => ?_) (List.pairwise_pair.2 ?_))
    · simp only [List.mem_cons, List.not_mem_nil, or_false] at hg
      rcases hg with rfl | rfl | rfl
      · exact Json.Field.of_apart (fun _ => Json.text_steady _) (fun _ => readRevision_steady)
          (fun _ _ => rfl) (fun _ _ => rfl) fun _ _ _ => rfl
      · exact Json.Field.of_apart (fun _ => Json.text_steady _) (fun _ => version_steady)
          (fun _ _ => rfl) (fun _ _ => rfl) fun _ _ _ => rfl
      · exact Json.Field.of_apart (fun _ => Json.text_steady _) ServiceState.read_steady
          (fun _ _ => rfl) (fun _ _ => rfl) fun _ _ _ => rfl
    · simp only [List.mem_cons, List.not_mem_nil, or_false] at hg
      rcases hg with rfl | rfl
      · exact Json.Field.of_apart (fun _ => readRevision_steady) (fun _ => version_steady)
          (fun _ _ => rfl) (fun _ _ => rfl) fun _ _ _ => rfl
      · exact Json.Field.of_apart (fun _ => readRevision_steady) ServiceState.read_steady
          (fun _ _ => rfl) (fun _ _ => rfl) fun _ _ _ => rfl
    · exact Json.Field.of_apart (fun _ => version_steady) ServiceState.read_steady
        (fun _ _ => rfl) (fun _ _ => rfl) fun _ _ _ => rfl

/-- How the values of a member may differ: that of the state in the order of its members. -/
def ValueReordered (key : String) : Tree → Tree → Prop :=
  if key = "service" then ServiceState.Reordered else Eq

theorem ValueReordered.symm {key : String} (h : ValueReordered key t t') :
    ValueReordered key t' t := by
  unfold ValueReordered at h ⊢
  split at h
  · rename_i hkey
    rw [if_pos hkey]
    exact h.symm
  · rename_i hkey
    rw [if_neg hkey]
    exact h.symm

/-- **Two packages that are told apart by the order of members only**, of their own and of those of
    the state. -/
inductive Reordered : Tree → Tree → Prop where
  | intro {ms varied ms' : List (Bytes × Tree)}
      (values : List.Forall₂ (Json.MemberVaries ValueReordered) ms varied)
      (order : varied.Perm ms') : Reordered (.object ms) (.object ms')

theorem Reordered.symm (h : Reordered t t') : Reordered t' t := by
  obtain ⟨values, order⟩ := h
  have hvalues := values.flip.imp fun m m' hm =>
    (⟨hm.1.symm, fun key hkey => (hm.2 key (hm.1 ▸ hkey)).symm⟩ :
      Json.MemberVaries ValueReordered m m')
  obtain ⟨varied', hvaried, hperm⟩ := List.perm_comp_forall₂ order.symm hvalues
  exact .intro hvaried hperm

theorem read_respects : Json.Respects layout.read Reordered := by
  rintro room _ _ p hspelled hspelled' ⟨values, order⟩ htakes
  have hforeign : ∀ m ∈ ([] : List (Bytes × Tree)), Json.Layout.Foreign layout.keys m :=
    fun m hm => nomatch hm
  refine Json.Layout.object_respects layout_orderly (fun f hf => ?_) hspelled hspelled'
    (.intro values hforeign order) htakes
  simp only [layout, List.mem_cons, List.not_mem_nil, or_false] at hf
  rcases hf with rfl | rfl | rfl | rfl
  · exact Json.Field.of_respects (fun _ => Json.text_steady _) (Json.respects_eq _)
  · exact Json.Field.of_respects (fun _ => readRevision_steady) (Json.respects_eq _)
  · exact Json.Field.of_respects (fun _ => version_steady) (Json.respects_eq _)
  · exact Json.Field.of_respects ServiceState.read_steady ServiceState.read_respects

/-- A package is read of a text as of its tree. -/
theorem ofJson_eq_ok (h : IsText bs t) {p : Package} :
    ofJson bs = .ok p ↔ Takes (layout.read Json.depthLimit) t p :=
  h.document_eq_ok (Json.Layout.read_steady layout_orderly _)

/-- The order of the members does not matter. -/
theorem ofJson_reordered (h : IsText bs t) (h' : IsText bs' t') (hvaries : Reordered t t')
    {p : Package} : ofJson bs = .ok p ↔ ofJson bs' = .ok p := by
  rw [ofJson_eq_ok h, ofJson_eq_ok h']
  exact ⟨read_respects h.spelled h'.spelled hvaries, read_respects h'.spelled h.spelled hvaries.symm⟩

end Package

/-! ## 3. What is written -/

/-- The tree of a state that is written. -/
def ServiceState.tree : ServiceState → Tree
  | .notService => .object [(Json.rawOf "kind", .text (Json.rawOf "not_service"))]
  | .service active => .object [(Json.rawOf "kind", .text (Json.rawOf "service")),
      (Json.rawOf "active", .boolean active)]

theorem ServiceState.prints_toJson (s : ServiceState) : Json.Prints s.toJson s.tree := by
  cases s with
  | notService =>
    exact Json.prints_object (.cons ⟨rfl, Json.prints_text _⟩ .nil) (List.cons_ne_nil _ _)
  | service active =>
    exact Json.prints_object
      (.cons ⟨rfl, Json.prints_text _⟩ (.cons ⟨rfl, Json.prints_boolean _⟩ .nil))
      (List.cons_ne_nil _ _)

/-- A state is read of the tree that is written. -/
theorem ServiceState.takes_tree (s : ServiceState) (room : Nat) :
    Takes (read (room + 1)) s.tree s := by
  have hkind (name : String) : Json.rawText? (Json.rawOf name) = some name :=
    (Json.textBody_rawOf name).2
  cases s with
  | notService =>
    have hgathers : Gathers room [(Json.rawOf "kind", .text (Json.rawOf "not_service"))] none
        (some .notService) [] :=
      .kind (hkind "kind") (takes_readKind (hkind "not_service") rfl) (.nil _)
    exact takes_of_gives (.object hgathers rfl)
  | service active =>
    have hactive : Takes (Json.content room) (.boolean active) (.scalar (.boolean active)) :=
      Json.content_scalar rfl
    have hgathers : Gathers room [(Json.rawOf "kind", .text (Json.rawOf "service")),
        (Json.rawOf "active", .boolean active)] none (some .service)
          [("active", .scalar (.boolean active))] :=
      .kind (hkind "kind") (takes_readKind (hkind "service") rfl)
        (.other (hkind "active") (by decide) hactive (.nil _))
    exact takes_of_gives (.object hgathers rfl)

namespace Package

variable {room : Nat}

/-- The members of a version that is given. -/
def versionTree : Option String → List (Bytes × Tree)
  | none => []
  | some v => [(Json.rawOf "version", .text (Json.rawOf v))]

/-- The tree of a package that is written. -/
def tree (p : Package) : Tree :=
  .object ([(Json.rawOf "name", .text (Json.rawOf p.name)),
    (Json.rawOf "revision", .number (Json.numeralOf p.revision.number))] ++
      versionTree p.version ++ [(Json.rawOf "service", p.service.tree)])

theorem prints_toJson (p : Package) : Json.Prints p.toJson p.tree := by
  have hservice : Json.PrintsMember ("service", p.service.toJson)
      (Json.rawOf "service", p.service.tree) := ⟨rfl, p.service.prints_toJson⟩
  refine Json.prints_object ?_ (List.cons_ne_nil _ _)
  refine .cons ⟨rfl, Json.prints_text _⟩ (.cons ⟨rfl, Json.prints_natural _⟩ ?_)
  cases p.version with
  | none => exact .cons hservice .nil
  | some v => exact .cons ⟨rfl, Json.prints_text v⟩ (.cons hservice .nil)

theorem takes_readRevision (r : Revision) :
    Takes readRevision (.number (Json.numeralOf r.number)) r := by
  have hvalue : (Tree.number (Json.numeralOf r.number)).Scalar (.integer r.number) :=
    Json.value?_numeralOf r.fits
  have hbelow : (Json.Value.integer r.number).naturalBelow Decimal.word64 "u64" = .ok r.number := by
    have hfits : (r.number : Int) < Decimal.word64 := Int.ofNat_lt.2 r.fits
    unfold Json.Value.naturalBelow
    dsimp only
    rw [if_pos ⟨Int.natCast_nonneg _, hfits⟩, Int.toNat_natCast]
  intro bs rest hs
  unfold readRevision
  rw [Json.takes_natural hvalue hbelow hs, ok_bind]
  dsimp only
  rw [show Revision.ofNat? r.number = some r from dif_pos r.fits]

/-- **A package is read of the tree that is written**, field by field. -/
theorem takes_tree (p : Package) (room : Nat) : Takes (layout.read (room + 2)) p.tree p := by
  have htext (s : String) : (Tree.text (Json.rawOf s)).text? = some s := (Json.textBody_rawOf s).2
  have hservice (d : Draft) (hd : d.service = none) :
      layout.Fills (room + 1) [(Json.rawOf "service", p.service.tree)] d
        { d with service := some p.service } := by
    refine .known (htext "service") rfl ?_ p.service.prints_toJson.isText.spelled
      (Json.Field.takes_of (p.service.takes_tree room) d) (.nil _)
    show d.service.isSome = false
    rw [hd]
    rfl
  refine Json.Layout.takes_of_filledBy
    (d := ⟨some p.name, some p.revision, p.version.map some, some p.service⟩) ?_ ?_
  · refine .known (htext "name") rfl rfl (Json.prints_text p.name).isText.spelled
      (Json.Field.takes_of (Json.takes_text _ (htext p.name)) _) ?_
    refine .known (htext "revision") rfl rfl (Json.prints_natural _).isText.spelled
      (Json.Field.takes_of (takes_readRevision p.revision) _) ?_
    cases p.version with
    | none => exact hservice _ rfl
    | some v =>
      have hversion : Takes (Json.optional Json.text) (.text (Json.rawOf v)) (some v) :=
        Json.takes_optional (fun h => nomatch h) (Json.takes_text _ (htext v))
      exact .known (htext "version") rfl rfl (Json.prints_text v).isText.spelled
        (Json.Field.takes_of hversion _) (hservice _ rfl)
  · obtain ⟨name, revision, version, service⟩ := p
    cases version <;> rfl

/-- **A package comes back from JSON**: it is read of the text that is written of it, and of every
    text that differs in the order of the members of the package or of its state. -/
theorem ofJson_toJson : (∀ p : Package, ofJson (Bytes.ofText p.toJson.write) = .ok p) ∧
    ∀ ⦃bs bs' t t'⦄, IsText bs t → IsText bs' t' → Reordered t t' →
      ∀ p : Package, ofJson bs = .ok p ↔ ofJson bs' = .ok p :=
  ⟨fun p => (ofJson_eq_ok p.prints_toJson.isText).2 (p.takes_tree _),
    fun _ _ _ _ h h' hvaries _ => ofJson_reordered h h' hvaries⟩

/-- A name of a quote, a backslash, controls and a character beyond 16 bits, the greatest revision, and
    a text with all members the other way round. -/
theorem ofJson_reversed :
    let p : Package := ⟨"\"\\\n\x01𝄞", .last, none, .service false⟩
    ofJson (Bytes.ofText p.toJson.write) = .ok p ∧
      ofJson (Bytes.ofText ("\x7b\"service\":\x7b\"active\":false,\"kind\":\"service\"\x7d," ++
        "\"revision\":18446744073709551615," ++
        "\"name\":\"\\\"\\\\\\n\\u0001𝄞\"\x7d")) = .ok p := by
  intro p
  let reversed : Json.Value := .object [
    ("service", .object [("active", .boolean false), ("kind", .text "service")]),
    ("revision", .natural p.revision.number), ("name", .text p.name)]
  let state : Tree := .object [(Json.rawOf "active", .boolean false),
    (Json.rawOf "kind", .text (Json.rawOf "service"))]
  let back : List (Bytes × Tree) := [(Json.rawOf "service", state),
    (Json.rawOf "revision", .number (Json.numeralOf p.revision.number)),
    (Json.rawOf "name", .text (Json.rawOf p.name))]
  have hstate : Json.PrintsMember
      ("service", .object [("active", .boolean false), ("kind", .text "service")])
      (Json.rawOf "service", state) :=
    ⟨rfl, Json.prints_object
      (.cons ⟨rfl, Json.prints_boolean _⟩ (.cons ⟨rfl, Json.prints_text _⟩ .nil))
      (List.cons_ne_nil _ _)⟩
  have hprints : Json.Prints reversed (.object back) :=
    Json.prints_object
      (.cons hstate (.cons ⟨rfl, Json.prints_natural _⟩ (.cons ⟨rfl, Json.prints_text _⟩ .nil)))
      (List.cons_ne_nil _ _)
  have hvalues : List.Forall₂ (Json.MemberVaries ValueReordered)
      [(Json.rawOf "name", .text (Json.rawOf p.name)),
        (Json.rawOf "revision", .number (Json.numeralOf p.revision.number)),
        (Json.rawOf "service", p.service.tree)] back.reverse := by
    refine .cons (Json.memberVaries_of_key (Json.textBody_rawOf "name").2 rfl)
      (.cons (Json.memberVaries_of_key (Json.textBody_rawOf "revision").2 rfl) (.cons ?_ .nil))
    exact Json.memberVaries_of_key (Json.textBody_rawOf "service").2 (.members (.swap _ _ _))
  have hvaries : Reordered p.tree (.object back) := .intro hvalues (List.reverse_perm back)
  obtain ⟨hwritten, hreordered⟩ := ofJson_toJson
  refine ⟨hwritten p, ?_⟩
  have hbytes : Bytes.ofText reversed.write =
      Bytes.ofText ("\x7b\"service\":\x7b\"active\":false,\"kind\":\"service\"\x7d," ++
        "\"revision\":18446744073709551615," ++
        "\"name\":\"\\\"\\\\\\n\\u0001𝄞\"\x7d") := by
    simp only [reversed, Json.Value.write, Json.Value.writeMembers, Json.Value.writeScalar,
      Json.Value.natural, Bytes.ofText_append, Json.ofText_writeText]
    decide +kernel
  rw [← hbytes]
  exact (hreordered p.prints_toJson.isText hprints.isText hvaries p).1 (hwritten p)

end Package

end RevisionWatch
