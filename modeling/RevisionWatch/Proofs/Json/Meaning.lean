import Mathlib.Data.List.Forall2
import RevisionWatch.Json.Document
import RevisionWatch.Proofs.Json.Reading
/-!
# What values mean

A text, a truth value, a number or a list of things is read from a tree that means it, and so is a
value that may be missing. Of a value of any kind it is enough here that it is a text only if its
tree is (`Tree.MaySay`).
-/

namespace RevisionWatch.Json

variable {α : Type} {bs rest : Bytes}

/-! ## 1. Values of a known kind -/

theorem text_sound (wanted : String) : Sound (textAs wanted) fun t s => t.text? = some s := by
  intro bs s rest h
  unfold textAs at h
  split at h
  · cases h
  · rename_i b bs₁ hd
    split at h
    · rename_i hq
      obtain ⟨raw, rfl, hraw, hs⟩ := textBody_sound h
      rw [beq_iff_eq.1 hq] at hd
      exact ⟨.text raw, .text hd (by decide) hraw, hs⟩
    · cases h

theorem boolean_sound : Sound boolean fun t b => t = .boolean b := by
  intro bs b rest h
  unfold boolean at h
  split at h
  · cases h
  · rename_i c bs₁ hd
    split at h
    · rename_i hc
      obtain ⟨r, hw, h⟩ := map_eq_ok h
      cases h
      rw [beq_iff_eq.1 hc] at hd
      exact ⟨.boolean true, .true hd (by decide) hw, rfl⟩
    · split at h
      · rename_i hc
        obtain ⟨r, hw, h⟩ := map_eq_ok h
        cases h
        rw [beq_iff_eq.1 hc] at hd
        exact ⟨.boolean false, .false hd (by decide) hw, rfl⟩
      · cases h

/-- The number that a tree stands for. -/
def Tree.natural? : Tree → Option Nat
  | .number n =>
    match n.value? with
    | some (.integer i) => some i.toNat
    | _ => none
  | _ => none

theorem natural_sound (limit : Nat) (wanted : String) :
    Sound (natural limit wanted) fun t n => t.natural? = some n := by
  intro bs n rest h
  unfold natural at h
  split at h
  · cases h
  · rename_i b bs₁ hd
    split at h
    · rename_i v bs₂ hs
      obtain ⟨t, ht, hv⟩ := scalar?_spells hd hs
      split at h
      · rename_i n' hn
        cases h
        refine ⟨t, ht, ?_⟩
        unfold Value.naturalBelow at hn
        split at hn
        · rename_i i
          split at hn
          · cases hn
            cases t with
            | number m =>
              have hm : m.value? = some (.integer i) := hv
              show (match m.value? with
                | some (.integer i) => some i.toNat
                | _ => none) = _
              rw [hm]
            | null => cases hv
            | boolean _ => cases hv
            | text _ =>
              obtain ⟨s, -, hv⟩ := hv
              cases hv
            | list _ => exact hv.elim
            | object _ => exact hv.elim
          · cases hn
        · cases hn
      · cases h
    · cases h

/-- A tree means a value that may be missing: null means that it is. -/
def MayMean (means : Tree → α → Prop) (t : Tree) : Option α → Prop
  | none => t = .null
  | some a => means t a

theorem optional_sound {read : Reader α} {means : Tree → α → Prop} (h : Sound read means) :
    Sound (optional read) (MayMean means) := by
  intro bs a rest hr
  unfold optional at hr
  split at hr
  · rename_i b bs₁ hd
    split at hr
    · rename_i hb
      obtain ⟨r, hw, hr⟩ := map_eq_ok hr
      cases hr
      rw [beq_iff_eq.1 hb] at hd
      exact ⟨.null, .null hd (by decide) hw, rfl⟩
    · obtain ⟨⟨a', bs₂⟩, ha, hr⟩ := bind_eq_ok hr
      cases hr
      obtain ⟨t, ht, hm⟩ := h ha
      exact ⟨t, ht, hm⟩
  · cases hr

theorem itemsFrom_sound {read : Reader α} {means : Tree → α → Prop} (h : Sound read means) :
    ∀ {fuel : Bytes} {first : Bool} {acc as : List α} {bs rest : Bytes},
      itemsFrom read fuel first acc bs = .ok (as, rest) →
        ∃ ts as', Spells bs (.items first ts) rest ∧ List.Forall₂ means ts as' ∧
          as = acc.reverse ++ as'
  | [], _, _, _, _, _, hr => nomatch hr
  | _ :: fuel, first, acc, as, bs, rest, hr => by
    rw [itemsFrom] at hr
    obtain ⟨next, hn, hr⟩ := bind_eq_ok hr
    cases next with
    | none =>
      obtain ⟨rest', hc, hr⟩ := bind_eq_ok hr
      cases hr
      exact ⟨[], [], .endItems (afterByte_eq_ok.1 hc), .nil, (List.append_nil _).symm⟩
    | some bs₁ =>
      obtain ⟨⟨a, bs₂⟩, ha, hr⟩ := bind_eq_ok hr
      obtain ⟨t, ht, hm⟩ := h ha
      obtain ⟨ts, as', hts, hms, rfl⟩ := itemsFrom_sound h hr
      exact ⟨t :: ts, a :: as', .item (nextItem_eq_ok.1 hn) ht hts, .cons hm hms, by simp⟩

/-- A tree means a list of things, item by item. -/
def ListMeans (means : Tree → α → Prop) (t : Tree) (as : List α) : Prop :=
  ∃ ts, t = .list ts ∧ List.Forall₂ means ts as

theorem listOf_sound {read : Nested α} {means : Tree → α → Prop}
    (h : ∀ room, Sound (read room) means) (room : Nat) :
    Sound (listOf read room) (ListMeans means) := by
  intro bs as rest hr
  unfold listOf at hr
  split at hr
  · cases hr
  · rename_i b bs₁ hd
    split at hr
    · rename_i hb
      cases room with
      | zero => cases hr
      | succ room =>
        rw [beq_iff_eq.1 hb] at hd
        obtain ⟨ts, as', hts, hms, rfl⟩ := itemsFrom_sound (h room) hr
        exact ⟨.list ts, .list hd (by decide) hts, ts, rfl, hms⟩
    · cases hr

theorem exists_of_forall₂ {β : Type} {R : β → α → Prop} {ts : List β} {as : List α}
    (h : List.Forall₂ R ts as) : ∀ t ∈ ts, ∃ a ∈ as, R t a := by
  induction h with
  | nil => exact fun t ht => (nomatch ht)
  | cons hr _ ih =>
    intro t ht
    rcases List.mem_cons.1 ht with rfl | ht
    · exact ⟨_, List.mem_cons_self .., hr⟩
    · obtain ⟨a, ha, hra⟩ := ih t ht
      exact ⟨a, List.mem_cons_of_mem _ ha, hra⟩

/-- One of several things comes of one of the trees, those in front of it of the trees in front, and
    those behind it of the trees behind. -/
theorem exists_split_of_forall₂ {R : Tree → α → Prop} {a : α} {bs : List α} :
    ∀ {as : List α} {ts : List Tree}, List.Forall₂ R ts (as ++ a :: bs) →
      ∃ front t back, ts = front ++ t :: back ∧ R t a ∧ (∀ t' ∈ front, ∃ a' ∈ as, R t' a') ∧
        ∀ t' ∈ back, ∃ a' ∈ bs, R t' a'
  | [], ts, h => by
    obtain ⟨t, back, hr, hback, rfl⟩ := List.forall₂_cons_right_iff.1 h
    exact ⟨[], t, back, rfl, hr, fun t' ht => (nomatch ht), exists_of_forall₂ hback⟩
  | a₁ :: as, ts, h => by
    obtain ⟨t₁, ts', hr₁, hts, rfl⟩ := List.forall₂_cons_right_iff.1 h
    obtain ⟨front, t, back, rfl, hr, hfront, hback⟩ := exists_split_of_forall₂ hts
    refine ⟨t₁ :: front, t, back, rfl, hr, fun t' ht => ?_, hback⟩
    rcases List.mem_cons.1 ht with rfl | ht
    · exact ⟨a₁, List.mem_cons_self .., hr₁⟩
    · obtain ⟨a', ha, hra⟩ := hfront t' ht
      exact ⟨a', List.mem_cons_of_mem _ ha, hra⟩

/-! ## 2. Values of any kind -/

/-- A member has the key of the thing, and its value means what the thing is. -/
def MemberMeans (means : Tree → α → Prop) (m : Bytes × Tree) (p : String × α) : Prop :=
  rawText? m.1 = some p.1 ∧ means m.2 p.2

theorem membersFrom_sound {read : Reader α} {means : Tree → α → Prop} (h : Sound read means) :
    ∀ {fuel : Bytes} {first : Bool} {acc as : List (String × α)} {bs rest : Bytes},
      membersFrom read fuel first acc bs = .ok (as, rest) →
        ∃ ms as', Spells bs (.members first ms) rest ∧ List.Forall₂ (MemberMeans means) ms as' ∧
          as = acc.reverse ++ as'
  | [], _, _, _, _, _, hr => nomatch hr
  | _ :: fuel, first, acc, as, bs, rest, hr => by
    rw [membersFrom] at hr
    obtain ⟨next, hn, hr⟩ := bind_eq_ok hr
    cases next with
    | none =>
      obtain ⟨rest', hc, hr⟩ := bind_eq_ok hr
      cases hr
      exact ⟨[], [], .endMembers (afterByte_eq_ok.1 hc), .nil, (List.append_nil _).symm⟩
    | some bs₁ =>
      obtain ⟨⟨key, bs₂⟩, hk, hr₁⟩ := bind_eq_ok hr
      obtain ⟨bs₃, hc, hr₂⟩ := bind_eq_ok hr₁
      obtain ⟨⟨a, bs₄⟩, ha, hr₃⟩ := bind_eq_ok hr₂
      obtain ⟨raw, rfl, hraw, hkey⟩ := textBody_sound hk
      obtain ⟨t, ht, hm⟩ := h ha
      obtain ⟨ms, as', hms, hall, rfl⟩ := membersFrom_sound h hr₃
      exact ⟨(raw, t) :: ms, (key, a) :: as',
        .member (nextKey_eq_ok.1 hn) hraw (afterByte_eq_ok.1 hc) ht hms,
        .cons ⟨hkey, hm⟩ hall, by simp⟩

/-- If the value is a text, the tree is that text. -/
def Tree.MaySay (t : Tree) (v : Value) : Prop :=
  ∀ s, v = .text s → t.text? = some s

theorem Tree.Scalar.maySay {t : Tree} {v : Value} (h : t.Scalar v) : t.MaySay v := by
  rintro s rfl
  cases t with
  | null => cases h
  | boolean b => cases h
  | number n =>
    -- no number is a text, be it whole or not
    have hv : n.value? = some (.text s) := h
    unfold Numeral.value? at hv
    split at hv
    · split at hv
      · cases hv
      · split at hv <;> cases hv
    · obtain ⟨x, -, hx⟩ := Option.map_eq_some_iff.1 hv
      cases hx
  | text raw =>
    obtain ⟨s', hs, heq⟩ := h
    cases heq
    exact hs
  | list ts => exact h.elim
  | object ms => exact h.elim

theorem content_sound : ∀ room : Nat, Sound (content room) fun t c => t.MaySay c.value := by
  intro room
  induction room with
  | zero =>
    intro bs c rest h
    unfold content at h
    split at h
    · cases h
    · rename_i b bs₁ hd
      split at h
      · rename_i r hs
        obtain ⟨⟨v, rest'⟩, rfl, h⟩ := bind_eq_ok h
        cases h
        obtain ⟨t, ht, hv⟩ := scalar?_spells hd hs
        exact ⟨t, ht, hv.maySay⟩
      · cases h
  | succ room ih =>
    intro bs c rest h
    unfold content at h
    split at h
    · cases h
    · rename_i b bs₁ hd
      split at h
      · rename_i r hs
        obtain ⟨⟨v, rest'⟩, rfl, h⟩ := bind_eq_ok h
        cases h
        obtain ⟨t, ht, hv⟩ := scalar?_spells hd hs
        exact ⟨t, ht, hv.maySay⟩
      · dsimp only at h
        split at h
        · rename_i hb
          obtain ⟨⟨cs, rest'⟩, hi, h⟩ := bind_eq_ok h
          cases h
          obtain ⟨ts, cs', hts, -, -⟩ := itemsFrom_sound ih hi
          rw [beq_iff_eq.1 hb] at hd
          exact ⟨.list ts, .list hd (by decide) hts, fun _ hv => (nomatch hv)⟩
        · split at h
          · rename_i hb
            obtain ⟨⟨ms, rest'⟩, hm, h⟩ := bind_eq_ok h
            cases h
            obtain ⟨ms', -, hms, -⟩ := membersFrom_sound ih hm
            rw [beq_iff_eq.1 hb] at hd
            exact ⟨.object ms', .object hd (by decide) hms, fun _ hv => (nomatch hv)⟩
          · cases h

/-- **A value that is a text is spelled by that text.** -/
theorem value_sound (room : Nat) : Sound (value room) Tree.MaySay := by
  intro bs v rest h
  obtain ⟨⟨c, rest'⟩, hc, h⟩ := bind_eq_ok h
  cases h
  exact content_sound room hc

/-! ## 3. Documents -/

/-- **A whole text is spelled by a tree**, and nothing but blanks is behind it. -/
theorem document_sound {read : Nested α} {means : Tree → α → Prop}
    (h : Sound (read depthLimit) means) {a : α} (hr : document read bs = .ok a) :
    ∃ t rest, Spells bs (.value t) rest ∧ dropBlanks rest = [] ∧ means t a := by
  obtain ⟨⟨a', rest⟩, ha, hr⟩ := bind_eq_ok hr
  obtain ⟨t, ht, hm⟩ := h ha
  dsimp only at hr
  split at hr
  · rename_i hd
    cases hr
    exact ⟨t, rest, ht, hd, hm⟩
  · cases hr

end RevisionWatch.Json
