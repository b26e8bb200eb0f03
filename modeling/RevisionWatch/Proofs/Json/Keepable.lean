import RevisionWatch.Proofs.Json.Varying
/-!
# Values that can be kept

A value that is skipped may be anything the grammar spells, but one that is kept has to fit what
values are kept in (`Keepable`): its numbers have to be finite as doubles, its texts and keys have to
be texts, with no half of a surrogate pair alone, and no more containers may be open at a time than
there is room for. These values are read whole, and no others (`exists_value_iff`).
-/

namespace RevisionWatch.Json

variable {α : Type} {room : Nat} {t : Tree}

/-- **A value can be kept in a room.** -/
inductive Keepable : Nat → Tree → Prop where
  | null (room : Nat) : Keepable room .null
  | boolean (room : Nat) (b : Bool) : Keepable room (.boolean b)
  | number {room : Nat} {n : Numeral} {v : Value} (finite : n.value? = some v) :
      Keepable room (.number n)
  | text {room : Nat} {raw : Bytes} {s : String} (text : rawText? raw = some s) :
      Keepable room (.text raw)
  | list {room : Nat} {ts : List Tree} (items : ∀ t ∈ ts, Keepable room t) :
      Keepable (room + 1) (.list ts)
  | object {room : Nat} {ms : List (Bytes × Tree)} (keys : ∀ m ∈ ms, ∃ key, rawText? m.1 = some key)
      (values : ∀ m ∈ ms, Keepable room m.2) : Keepable (room + 1) (.object ms)

/-- A scalar that has a value can be kept anywhere. -/
theorem Tree.Scalar.keepable {v : Value} (h : t.Scalar v) (room : Nat) : Keepable room t := by
  cases t with
  | null => exact .null room
  | boolean b => exact .boolean room b
  | number n => exact .number h
  | text raw =>
    obtain ⟨s, hs, -⟩ := h
    exact .text hs
  | list ts => exact h.elim
  | object ms => exact h.elim

/-- Things that are each related to one are related one by one. -/
theorem exists_forall₂ {β γ : Type} {R : β → γ → Prop} {bs : List β} (h : ∀ b ∈ bs, ∃ c, R b c) :
    ∃ cs, List.Forall₂ R bs cs := by
  induction bs with
  | nil => exact ⟨[], .nil⟩
  | cons b bs ih =>
    obtain ⟨⟨c, hc⟩, hrest⟩ := List.forall_mem_cons.1 h
    obtain ⟨cs, hcs⟩ := ih hrest
    exact ⟨c :: cs, .cons hc hcs⟩

/-- What is read in a room can be kept there, if it can in the next smaller one. -/
theorem keepable_of_content {room : Nat} (ih : ∀ room', room = room' + 1 →
    Sound (content room') fun t _ => Keepable room' t) :
    Sound (content room) fun t _ => Keepable room t := by
  intro bs c rest h
  unfold content at h
  split at h
  · cases h
  · rename_i b bs₁ hd
    split at h
    · rename_i r hs
      obtain ⟨⟨v, rest'⟩, rfl, h⟩ := bind_eq_ok h
      cases h
      obtain ⟨t, ht, hv⟩ := scalar?_spells hd hs
      exact ⟨t, ht, hv.keepable room⟩
    · cases room with
      | zero => cases h
      | succ room =>
        dsimp only at h
        split at h
        · rename_i hb
          obtain ⟨⟨cs, rest'⟩, hi, h⟩ := bind_eq_ok h
          cases h
          obtain ⟨ts, cs', hts, hall, -⟩ := itemsFrom_sound (ih room rfl) hi
          rw [beq_iff_eq.1 hb] at hd
          refine ⟨.list ts, .list hd (by decide) hts, .list fun t ht => ?_⟩
          obtain ⟨-, -, hkeep⟩ := exists_of_forall₂ hall t ht
          exact hkeep
        · split at h
          · rename_i hb
            obtain ⟨⟨ms, rest'⟩, hm, h⟩ := bind_eq_ok h
            cases h
            obtain ⟨ts, ms', hts, hall, -⟩ := membersFrom_sound (ih room rfl) hm
            rw [beq_iff_eq.1 hb] at hd
            have hmeans := exists_of_forall₂ hall
            refine ⟨.object ts, .object hd (by decide) hts, .object (fun m hm => ?_) fun m hm => ?_⟩
            · obtain ⟨p, -, hkey, -⟩ := hmeans m hm
              exact ⟨p.1, hkey⟩
            · obtain ⟨-, -, -, hkeep⟩ := hmeans m hm
              exact hkeep
          · cases h

theorem content_keepable (room : Nat) : Sound (content room) fun t _ => Keepable room t := by
  induction room with
  | zero => exact keepable_of_content fun _ h => nomatch h
  | succ room ih =>
    refine keepable_of_content fun room' h => ?_
    cases h
    exact ih

/-- **What can be kept is read.** One case for each kind of value. -/
theorem Keepable.exists_content (h : Keepable room t) : ∃ c, Takes (content room) t c := by
  induction h with
  | null room => exact ⟨_, content_scalar (v := .null) rfl⟩
  | boolean room b => exact ⟨_, content_scalar (v := .boolean b) rfl⟩
  | number finite => exact ⟨_, content_scalar finite⟩
  | text text => exact ⟨_, content_scalar ⟨_, text, rfl⟩⟩
  | list _ ih =>
    obtain ⟨cs, hcs⟩ := exists_forall₂ ih
    exact ⟨.list cs, content_list hcs⟩
  | object keys _ ih =>
    obtain ⟨cs, hcs⟩ := exists_forall₂ (R := MemberMeans (Takes (content _))) fun m hm => by
      obtain ⟨key, hkey⟩ := keys m hm
      obtain ⟨c, hc⟩ := ih m hm
      exact ⟨(key, c), hkey, hc⟩
    exact ⟨.object cs, content_object hcs⟩

/-- **The values that are read whole are those that can be kept.** -/
theorem exists_value_iff (ht : t.Spelled) : (∃ v, Takes (value room) t v) ↔ Keepable room t := by
  constructor
  · rintro ⟨v, htakes⟩
    obtain ⟨bs, rest, hs⟩ := ht
    obtain ⟨⟨c, rest'⟩, hc, -⟩ := bind_eq_ok (htakes hs)
    obtain ⟨t', hs', hkeep⟩ := content_keepable room hc
    obtain ⟨rfl, -⟩ := hs.value_unique hs'
    exact hkeep
  · intro h
    obtain ⟨c, hc⟩ := h.exists_content
    refine ⟨c.value, fun bs rest hs => ?_⟩
    unfold value
    rw [hc hs]
    rfl

end RevisionWatch.Json
