import RevisionWatch.Config.Load
import RevisionWatch.Proofs.Config.Fields
import RevisionWatch.Proofs.Config.Sound
import RevisionWatch.Proofs.Json.Steps
/-!
# What a configuration file says

A file gives values for some of the fields: none if it is blank, and else those that its document
says (`FileSays`). Laid over the defaults they are the configuration of the file, if that is sound
(`loadAt_eq_ok`). A file of which this cannot be said is spoilt (`Spoilt`), and a spoilt file is an
error and never the defaults (`loadAt_eq_error`).

The keys of the document count, and not their order (`Reordered.textSays`).
-/

namespace RevisionWatch.Config

open Yaml (Node Document)

/-! ## 1. Documents -/

/-- Nodes that are no references. -/
def nodeSource : Source Node where
  text wanted n := n.text wanted
  natural limit wanted n := n.natural limit wanted
  isAbsent n := n.isAbsent

/-- The keys of a mapping and their values, references followed. -/
def entries (d : Document) (pairs : List (Node × Node)) : List (Node × Node) :=
  pairs.map fun (k, v) => (k.meant d, v.meant d)

/-- An entry as a member: its key has to be a text. -/
def memberOf (entry : Node × Node) : Member Node :=
  (entry.1.text "field identifier", none, entry.2)

/-- **What a document says**: nothing if it is empty, or what the entries of its mapping say. -/
inductive DocumentSays (d : Document) : Given → Prop where
  | empty (h : d.root = none) : DocumentSays d .nothing
  | blank (tag : Option String) (h : d.root = some (.scalar .plain tag "")) :
      DocumentSays d .nothing
  | mapping (pairs : List (Node × Node)) (g : Given) (h : d.root = some (.mapping pairs))
      (hg : Says nodeSource ((entries d pairs).map memberOf) g) : DocumentSays d g

theorem documentSays_of_mapping {d : Document} {pairs : List (Node × Node)} {g : Given}
    (hroot : d.root = some (.mapping pairs)) :
    DocumentSays d g ↔ Says nodeSource ((entries d pairs).map memberOf) g := by
  constructor
  · intro h
    cases h with
    | empty h => rw [hroot] at h; cases h
    | blank tag h => rw [hroot] at h; cases h
    | mapping pairs' g h hg =>
      rw [hroot] at h
      cases h
      exact hg
  · exact .mapping pairs g hroot

theorem read_yamlSource (d : Document) (f : Field) (v : Node) :
    f.read (yamlSource d) v = f.read nodeSource (v.meant d) := by
  cases f <;> rfl

/-- The members that are set are the entries. -/
theorem says_entries {d : Document} {pairs : List (Node × Node)} {g : Given} :
    Says (yamlSource d)
        (pairs.map fun (k, v) => ((k.meant d).text "field identifier", placeOf k, v)) g ↔
      Says nodeSource ((entries d pairs).map memberOf) g := by
  let follow (m : Member Node) : Member Node := (m.1, none, m.2.2.meant d)
  have hmap : (entries d pairs).map memberOf =
      (pairs.map fun (k, v) => ((k.meant d).text "field identifier", placeOf k, v)).map follow := by
    unfold entries
    rw [List.map_map, List.map_map]
    rfl
  have hread (f : Field) (m : Member Node) :
      f.read nodeSource (follow m).2.2 = f.read (yamlSource d) m.2.2 :=
    (read_yamlSource d f m.2.2).symm
  rw [hmap]
  exact Iff.symm (says_map (fun _ => rfl) hread)

/-- **A document is a configuration** if it says something. -/
theorem ofYaml_eq_ok {d : Document} {c : Config} :
    ofYaml d = .ok c ↔ ∃ g, DocumentSays d g ∧ c = g.over {} := by
  constructor
  · intro h
    unfold ofYaml at h
    split at h
    · rename_i hroot
      cases h
      exact ⟨.nothing, .empty hroot, rfl⟩
    · rename_i tag hroot
      cases h
      exact ⟨.nothing, .blank tag hroot, rfl⟩
    · rename_i pairs hroot
      obtain ⟨g, hsaid, -, rfl⟩ := setAll_eq_ok.1 h
      exact ⟨g, .mapping pairs g hroot (says_entries.1 hsaid), rfl⟩
    · cases h
  · rintro ⟨g, hsaid, rfl⟩
    unfold ofYaml
    cases hsaid with
    | empty hroot =>
      rw [hroot]
      rfl
    | blank tag hroot =>
      rw [hroot]
      rfl
    | mapping pairs g hroot hg =>
      rw [hroot]
      exact setAll_eq_ok.2 ⟨g, says_entries.2 hg, fun _ _ hmem => (nomatch hmem), rfl⟩

/-- A document with a key that names no field says nothing. -/
theorem not_documentSays_of_key {d : Document} {pairs : List (Node × Node)} {style : Yaml.Style}
    {tag : Option String} {key : String} {v : Node} (hroot : d.root = some (.mapping pairs))
    (hentry : (.scalar style tag key, v) ∈ entries d pairs) (hkey : ∀ f : Field, f.name ≠ key)
    (g : Given) : ¬DocumentSays d g := by
  intro hg
  obtain ⟨f, x, hname, -, -⟩ :=
    ((documentSays_of_mapping hroot).1 hg).known _ (List.mem_map_of_mem hentry)
  exact hkey f (Except.ok.inj hname).symm

/-! ## 2. Texts -/

variable {s s' : String} {g : Given}

/-- **What a text says**: nothing if it is blank, or what its document says. -/
inductive TextSays (s : String) : Given → Prop where
  | blank (h : Text.isBlankText s = true) : TextSays s .nothing
  | document (d : Document) (g : Given) (h : Text.isBlankText s = false)
      (hd : Document.of? s = some d) (hg : DocumentSays d g) : TextSays s g

theorem textSays_of_blank (h : Text.isBlankText s = true) : TextSays s g ↔ g = .nothing := by
  constructor
  · intro hg
    cases hg with
    | blank => rfl
    | document d g h' => rw [h] at h'; cases h'
  · rintro rfl
    exact .blank h

theorem textSays_of_document {d : Document} (h : Text.isBlankText s = false)
    (hd : Document.of? s = some d) : TextSays s g ↔ DocumentSays d g := by
  constructor
  · intro hg
    cases hg with
    | blank h' => rw [h] at h'; cases h'
    | document d' g h' hd' hg =>
      rw [hd] at hd'
      cases hd'
      exact hg
  · exact .document d g h hd

theorem not_textSays (h : Text.isBlankText s = false) (hd : Document.of? s = none) :
    ¬TextSays s g := by
  intro hg
  cases hg with
  | blank h' => rw [h] at h'; cases h'
  | document d g h' hd' => rw [hd] at hd'; cases hd'

/-- **A text is a configuration** if it says something. -/
theorem ofText_eq_ok {c : Config} : ofText s = .ok c ↔ ∃ g, TextSays s g ∧ c = g.over {} := by
  unfold ofText
  cases hblank : Text.isBlankText s with
  | true =>
    simp only [textSays_of_blank hblank]
    exact ⟨fun h => ⟨.nothing, rfl, (Except.ok.inj h).symm⟩, fun ⟨g, hg, hc⟩ => by
      rw [hc, hg]
      rfl⟩
  | false =>
    rw [if_neg Bool.false_ne_true]
    cases hd : Document.of? s with
    | none => exact ⟨(fun h => nomatch h), fun ⟨g, hg, _⟩ => absurd hg (not_textSays hblank hd)⟩
    | some d =>
      simp only [textSays_of_document hblank hd]
      exact mapError_eq_ok.trans ofYaml_eq_ok

/-- Two texts give the same keys the same values, in another order. -/
inductive Reordered (s s' : String) : Prop where
  | mk (d d' : Document) (pairs pairs' : List (Node × Node))
      (h : Text.isBlankText s = false) (hd : Document.of? s = some d)
      (hroot : d.root = some (.mapping pairs))
      (h' : Text.isBlankText s' = false) (hd' : Document.of? s' = some d')
      (hroot' : d'.root = some (.mapping pairs'))
      (hentries : (entries d pairs).Perm (entries d' pairs'))

theorem Reordered.symm (h : Reordered s s') : Reordered s' s := by
  obtain ⟨d, d', pairs, pairs', hblank, hd, hroot, hblank', hd', hroot', hentries⟩ := h
  exact ⟨d', d, pairs', pairs, hblank', hd', hroot', hblank, hd, hroot, hentries.symm⟩

/-- **The order of the keys does not matter.** -/
theorem Reordered.textSays (h : Reordered s s') (hg : TextSays s g) : TextSays s' g := by
  obtain ⟨d, d', pairs, pairs', hblank, hd, hroot, hblank', hd', hroot', hentries⟩ := h
  have hsaid : Says nodeSource ((entries d pairs).map memberOf) g :=
    (documentSays_of_mapping hroot).1 ((textSays_of_document hblank hd).1 hg)
  exact .document d' g hblank' hd' (.mapping pairs' g hroot' (hsaid.perm (hentries.map memberOf)))

/-! ## 3. Files -/

variable {places : Places} {path : String}

/-- **What a file says**: it is there, it is a text, and that says it. -/
def FileSays (places : Places) (path : String) (g : Given) : Prop :=
  ∃ s, places path = .file (Bytes.ofText s) ∧ TextSays s g

theorem textAt_eq_ok :
    textAt places path = .ok s ↔ places path = .file (Bytes.ofText s) := by
  unfold textAt
  cases places path with
  | file bytes =>
    dsimp only
    rw [Place.file.injEq, ← Bytes.toText?_eq_some_iff]
    cases Bytes.toText? bytes with
    | none => exact ⟨(fun h => nomatch h), (fun h => nomatch h)⟩
    | some s' =>
      exact ⟨fun h => congrArg some (Except.ok.inj h), fun h => congrArg _ (Option.some.inj h)⟩
  | _ => exact ⟨(fun h => nomatch h), (fun h => nomatch h)⟩

/-- **A file gives a configuration** if what it says is sound, and then it gives that. -/
theorem loadAt_eq_ok {c : Config} :
    loadAt places path = .ok c ↔
      ∃ g, FileSays places path g ∧ (g.over {}).Sound ∧ c = g.over {} := by
  constructor
  · intro h
    obtain ⟨s, hs, h⟩ := bind_eq_ok h
    obtain ⟨c', hc', h⟩ := bind_eq_ok h
    obtain ⟨g, hg, rfl⟩ := ofText_eq_ok.1 (mapError_eq_ok.1 hc')
    obtain ⟨rfl, hsound⟩ := check_eq_ok.1 (mapError_eq_ok.1 h)
    exact ⟨g, ⟨s, textAt_eq_ok.1 hs, hg⟩, hsound, rfl⟩
  · rintro ⟨g, ⟨s, hs, hg⟩, hsound, rfl⟩
    unfold loadAt
    rw [textAt_eq_ok.2 hs, ok_bind, mapError_eq_ok.2 (ofText_eq_ok.2 ⟨g, hg, rfl⟩), ok_bind]
    exact mapError_eq_ok.2 (check_eq_ok.2 ⟨rfl, hsound⟩)

/-- **A spoilt file**: it is not seen, it cannot be read, it is no text, its text is no document,
    has a key that names no field or says nothing for another reason, or what it says is not
    sound. -/
inductive Spoilt (places : Places) (path : String) : Prop where
  | unseen (h : (places path).isSeen = false)
  | unreadable (hseen : (places path).isSeen = true) (h : ∀ bytes, places path ≠ .file bytes)
  | notText (bytes : Bytes) (h : places path = .file bytes) (hbytes : ∀ s, bytes ≠ Bytes.ofText s)
  | notYaml (s : String) (h : places path = .file (Bytes.ofText s))
      (hs : Text.isBlankText s = false) (hd : Document.of? s = none)
  | unknownKey (s : String) (h : places path = .file (Bytes.ofText s))
      (hs : Text.isBlankText s = false) (d : Document) (hd : Document.of? s = some d)
      (pairs : List (Node × Node)) (hroot : d.root = some (.mapping pairs)) (style : Yaml.Style)
      (tag : Option String) (key : String) (v : Node)
      (hentry : (.scalar style tag key, v) ∈ entries d pairs) (hkey : ∀ f : Field, f.name ≠ key)
  | unlike (s : String) (h : places path = .file (Bytes.ofText s)) (hs : ∀ g, ¬TextSays s g)
  | rejected (g : Given) (h : FileSays places path g) (hg : ¬(g.over {}).Sound)

/-- **A spoilt file is an error**, and no other file is. -/
theorem loadAt_eq_error :
    (∃ err, loadAt places path = .error err) ↔ Spoilt places path := by
  constructor
  · rintro ⟨err, herr⟩
    cases hplace : places path with
    | file bytes =>
      cases htext : Bytes.toText? bytes with
      | none =>
        refine .notText bytes hplace fun s hs => ?_
        rw [Bytes.toText?_eq_some_iff.2 hs] at htext
        cases htext
      | some s =>
        rw [Bytes.toText?_eq_some_iff.1 htext] at hplace
        by_cases hsaid : ∃ g, TextSays s g
        · obtain ⟨g, hg⟩ := hsaid
          refine .rejected g ⟨s, hplace, hg⟩ fun hsound => ?_
          rw [loadAt_eq_ok.2 ⟨g, ⟨s, hplace, hg⟩, hsound, rfl⟩] at herr
          cases herr
        · exact .unlike s hplace fun g hg => hsaid ⟨g, hg⟩
    | missing | hidden => exact .unseen (by rw [hplace]; rfl)
    | _ =>
      exact .unreadable (by rw [hplace]; rfl) (by rw [hplace]; exact fun _ h => nomatch h)
  · intro h
    cases hload : loadAt places path with
    | error err => exact ⟨err, rfl⟩
    | ok c =>
      obtain ⟨g, ⟨s, hs, hg⟩, hsound, hc⟩ := loadAt_eq_ok.1 hload
      -- the file has one text
      have hunique {s' : String} (h : places path = .file (Bytes.ofText s')) : s' = s :=
        Bytes.ofText_injective (Place.file.inj (h.symm.trans hs))
      exfalso
      cases h with
      | unseen h => rw [hs] at h; cases h
      | unreadable _ h => exact h _ hs
      | notText bytes h hbytes => exact hbytes s (Place.file.inj (h.symm.trans hs))
      | notYaml s' h hs' hd =>
        obtain rfl := hunique h
        exact not_textSays hs' hd hg
      | unknownKey s' h hs' d hd pairs hroot style tag key v hentry hkey =>
        obtain rfl := hunique h
        exact not_documentSays_of_key hroot hentry hkey g ((textSays_of_document hs' hd).1 hg)
      | unlike s' h hs' =>
        obtain rfl := hunique h
        exact hs' g hg
      | rejected g' h hg' =>
        obtain ⟨s', h, hsaid'⟩ := h
        obtain rfl := hunique h
        have hsame : g'.over {} = g.over {} :=
          Except.ok.inj ((ofText_eq_ok.2 ⟨g', hsaid', rfl⟩).symm.trans
            (ofText_eq_ok.2 ⟨g, hg, rfl⟩))
        exact hg' (hsame ▸ hsound)

end RevisionWatch.Config
