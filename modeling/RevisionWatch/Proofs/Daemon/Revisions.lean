import RevisionWatch.Proofs.Daemon.Classified
/-!
# Revisions as the daemon spells them

The text of a revision is one marker and digits behind it, and nothing else is one: what the digits
are worth is the revision, if it fits its word, and any other text is refused as it stands
(`revisions_exact`). So a revision that is written in decimal behind a marker is read again, and what
was read is in the order of the numbers that were spelled.
-/

namespace RevisionWatch.Daemon

open Revision (Spelled parse?)

variable {e : Entry} {raw : String}

/-- A text is refused, and the refusal carries it, if it spells no number that fits its word. -/
theorem Entry.readRevision_eq_malformed (he : e.revision = .text raw) :
    e.readRevision = .error (.malformedRevision raw) ↔
      ¬ ∃ n < Decimal.word64, Spelled raw n := by
  have hspelled (n : Nat) : Revised e.revision n ↔ n < Decimal.word64 ∧ Spelled raw n := by
    unfold Revised
    rw [he]
    refine and_congr_right fun _ => ⟨?_, fun h => ⟨raw, rfl, h⟩⟩
    rintro ⟨raw', heq, h⟩
    cases heq
    exact h
  constructor
  · rintro herr ⟨n, hn⟩
    obtain ⟨r, hr⟩ := Entry.exists_readRevision.2 ⟨n, (hspelled n).2 hn⟩
    rw [hr] at herr
    cases herr
  · intro hnone
    exact (Entry.readRevision_of_bad fun n hn => hnone ⟨n, (hspelled n).1 hn⟩).1 raw he

/-- **Revisions are read exactly, and in their order.** A text is read as the number that it spells,
    if the number fits its word, and every other text is refused by an error that carries it. The
    decimal text of a revision is read behind every marker. Of two revisions that were read, the one
    that was spelled by the smaller number is the smaller, whatever the digits in front; and the one
    is the next of the other if it is one more, or if both are the last. -/
theorem revisions_exact :
    (∀ raw r, parse? raw = some r ↔ Spelled raw r.number) ∧
    (∀ (e : Entry) raw, e.revision = .text raw →
      (∀ r, e.readRevision = .ok r ↔ Spelled raw r.number) ∧
      (e.readRevision = .error (.malformedRevision raw) ↔
        ¬ ∃ n < 2 ^ 64, Spelled raw n)) ∧
    (∀ marker r, parse? (String.singleton marker ++ r.text) = some r) ∧
    (∀ raw raw' a b n m, parse? raw = some a → parse? raw' = some b → Spelled raw n →
      Spelled raw' m → compare a b = compare n m ∧ (a < b ↔ n < m) ∧ (a = b ↔ n = m)) ∧
    ∀ a b : Revision, a.next = b ↔
      b.number = a.number + 1 ∨ a.number = 2 ^ 64 - 1 ∧ b.number = 2 ^ 64 - 1 := by
  refine ⟨fun raw r => Revision.parse?_eq_some_iff, fun e raw he => ⟨fun r => ?_, ?_⟩,
    fun marker r => Revision.parse?_eq_some_iff.2 (Revision.spelled_text marker r),
    fun raw raw' a b n m => Revision.compare_of_spelled, fun a b => ?_⟩
  · rw [Entry.readRevision_eq_ok, he]
    refine ⟨?_, fun h => ⟨r.fits, raw, rfl, h⟩⟩
    rintro ⟨-, raw', heq, h⟩
    cases heq
    exact h
  · exact Entry.readRevision_eq_malformed he
  · have hnumber : Revision.last.number = 2 ^ 64 - 1 := rfl
    have hlast (r : Revision) : r = .last ↔ r.number = 2 ^ 64 - 1 := by
      rw [← hnumber]
      exact ⟨congrArg Revision.number, Revision.ext_number⟩
    rw [Revision.next_eq_iff, hlast, hlast]

/-- A digit for a marker and zeros in front, beside a marker of two bytes; the largest revision and
    one digit more; and a sign, which is no digit. -/
theorem revisions_at_the_edges :
    let zeros := "9000018446744073709551615"
    let wide := "é18446744073709551616"
    let entry raw : Entry := ⟨"agent", .text raw, none, []⟩
    parse? zeros = some .last ∧ Spelled zeros (2 ^ 64 - 1) ∧
    (entry zeros).readRevision = .ok .last ∧
    (entry wide).readRevision = .error (.malformedRevision wide) ∧
    (entry "x+1").readRevision = .error (.malformedRevision "x+1") ∧
    (∃ a, parse? "é7" = some a ∧ Spelled "é7" 7 ∧ a < .last) ∧
    Revision.next .last = .last := by
  intro zeros wide entry
  obtain ⟨hread, hentry, -, horder, hnext⟩ := revisions_exact
  have hzeros : Spelled zeros (2 ^ 64 - 1) :=
    ⟨'9', "000018446744073709551615".toList, by decide, by decide, List.all_eq_true.1 (by decide),
      by decide⟩
  have hseven : Spelled "é7" 7 := ⟨'é', ['7'], by decide, by decide, List.all_eq_true.1 rfl, rfl⟩
  have hlast : parse? zeros = some .last := (hread zeros .last).2 hzeros
  have hsmall : parse? "é7" = some ⟨7, by decide⟩ := (hread "é7" ⟨7, by decide⟩).2 hseven
  have hwide : ¬ ∃ n < 2 ^ 64, Spelled wide n := by
    rintro ⟨n, hn, hspelled⟩
    have hvalue : Spelled wide (2 ^ 64) :=
      ⟨'é', "18446744073709551616".toList, by decide, by decide, List.all_eq_true.1 (by decide),
        by decide⟩
    exact Nat.ne_of_lt hn (hspelled.unique hvalue)
  have hsigned : ¬ ∃ n < 2 ^ 64, Spelled "x+1" n := by
    rintro ⟨n, -, marker, digits, hraw, -, hdigits, -⟩
    have hplus : '+' ∈ digits := by
      obtain ⟨-, rfl⟩ := List.cons.inj ((by decide : "x+1".toList = ['x', '+', '1']).symm.trans hraw)
      exact List.mem_cons_self
    exact absurd (hdigits '+' hplus) (by decide)
  refine ⟨hlast, hzeros, ((hentry (entry zeros) zeros rfl).1 .last).2 hzeros,
    (hentry (entry wide) wide rfl).2.2 hwide, (hentry (entry "x+1") "x+1" rfl).2.2 hsigned,
    ⟨_, hsmall, hseven, ?_⟩, (hnext _ _).2 (.inr ⟨rfl, rfl⟩)⟩
  exact (horder _ _ _ _ _ _ hsmall hlast hseven hzeros).2.1.2 (by decide)

end RevisionWatch.Daemon
