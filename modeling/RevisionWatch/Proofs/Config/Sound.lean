import RevisionWatch.Config
/-!
# Sound configurations

A configuration can be watched with if it names a package, no time is zero and no bound, and the
agent's address is one of plain HTTP (`Sound`). The check, which looks for the first defect, accepts
these and returns them as they are (`check_eq_ok`).
-/

namespace RevisionWatch.Config

/-- **A configuration that can be watched with.** -/
structure Sound (c : Config) : Prop where
  package : ∃ ch ∈ c.package.toList, Text.isBlank ch = false
  interval : 0 < c.pollIntervalSecs
  timeout : 0 < c.timeoutSecs
  ioTimeout : 0 < c.ioTimeoutSecs
  maxPolls : c.maxPolls ≠ some 0
  triggerUrl : ∃ rest, c.triggerUrl = "http://" ++ rest

theorem isBlankText_eq_false {s : String} :
    Text.isBlankText s = false ↔ ∃ ch ∈ s.toList, Text.isBlank ch = false :=
  List.all_eq_false.trans (by simp only [Bool.not_eq_true])

theorem isPrefixOf_scheme {url : String} :
    scheme.isPrefixOf url.toList = true ↔ ∃ rest, url = "http://" ++ rest := by
  rw [List.isPrefixOf_iff_prefix]
  constructor
  · rintro ⟨rest, hrest⟩
    have hurl : url.toList = "http://".toList ++ (String.ofList rest).toList :=
      hrest.symm.trans (congrArg _ String.toList_ofList.symm)
    exact ⟨String.ofList rest, String.toList_inj.1 (hurl.trans String.toList_append.symm)⟩
  · rintro ⟨rest, rfl⟩
    exact ⟨rest.toList, String.toList_append.symm⟩

/-- A configuration is sound if it has no defect. -/
theorem defect?_eq_none {c : Config} : c.defect? = none ↔ c.Sound := by
  unfold defect?
  constructor
  · intro h
    split at h
    · cases h
    rename_i hpackage
    split at h
    · cases h
    rename_i hinterval
    split at h
    · cases h
    rename_i htimeout
    split at h
    · cases h
    rename_i hio
    split at h
    · cases h
    rename_i hpolls
    split at h
    · cases h
    rename_i hurl
    exact ⟨isBlankText_eq_false.1 (Bool.eq_false_iff.2 hpackage), Nat.pos_of_ne_zero hinterval,
      Nat.pos_of_ne_zero htimeout, Nat.pos_of_ne_zero hio, hpolls,
      isPrefixOf_scheme.1 (by simpa using hurl)⟩
  · intro h
    rw [isBlankText_eq_false.2 h.package, isPrefixOf_scheme.2 h.triggerUrl,
      if_neg Bool.false_ne_true, if_neg (Nat.ne_of_gt h.interval), if_neg (Nat.ne_of_gt h.timeout),
      if_neg (Nat.ne_of_gt h.ioTimeout), if_neg h.maxPolls]
    rfl

theorem check_eq_ok {c c' : Config} : c.check = .ok c' ↔ c' = c ∧ c.Sound := by
  rw [← defect?_eq_none]
  unfold check
  cases c.defect? with
  | some d => exact ⟨(fun h => nomatch h), fun h => nomatch h.2⟩
  | none => exact ⟨fun h => ⟨(Except.ok.inj h).symm, rfl⟩, fun h => congrArg _ h.1.symm⟩

end RevisionWatch.Config
