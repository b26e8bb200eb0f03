import RevisionWatch.Proofs.Config.Files
import RevisionWatch.Proofs.Yaml.Mapping
/-!
# Configurations come back from YAML

A configuration that is written as a YAML text is read from it again, whatever characters its texts
are made of: each field is written as a scalar (`Field.entry`), and the scalar is read as the value
of the field (`Field.read_node`). So a file with this text gives the configuration, if that has no
defect, and else its first defect (`loadAt_toYaml`).
-/

namespace RevisionWatch.Config

open Yaml (Document Entry Node)

variable {c : Config}

/-- **The numbers of a configuration fit their words.** -/
structure Fits (c : Config) : Prop where
  interval : c.pollIntervalSecs < Decimal.word64
  timeout : c.timeoutSecs < Decimal.word64
  ioTimeout : c.ioTimeoutSecs < Decimal.word64
  polls : ∀ n ∈ c.maxPolls, n < Decimal.word32

/-! ## 1. Fields -/

namespace Field

/-- The fields, in order. -/
def all : List Field :=
  [socketPath, package, triggerUrl, pollIntervalSecs, timeoutSecs, maxPolls, ioTimeoutSecs]

/-- A number of polls as it is written. -/
def pollsEntry : Option Nat → Entry
  | some n => .number n
  | none => .nothing

/-- The value of a field as it is written. -/
def entry (c : Config) : Field → Entry
  | socketPath => .text c.socketPath
  | package => .text c.package
  | triggerUrl => .text c.triggerUrl
  | pollIntervalSecs => .number c.pollIntervalSecs
  | timeoutSecs => .number c.timeoutSecs
  | maxPolls => pollsEntry c.maxPolls
  | ioTimeoutSecs => .number c.ioTimeoutSecs

theorem mem_all (f : Field) : f ∈ all := by
  cases f <;> decide

theorem isKey_name (f : Field) : Yaml.Lexer.IsKey f.name.toList := by
  cases f <;> exact ⟨by decide, List.all_eq_true.1 (by decide), by decide, by decide⟩

theorem isScalar_entry (c : Config) (f : Field) : (f.entry c).IsScalar := by
  cases f with
  | maxPolls =>
    show (pollsEntry c.maxPolls).IsScalar
    cases c.maxPolls <;> trivial
  | _ => trivial

theorem word_number {n : Nat} (hn : n < Decimal.word64) :
    nodeSource.word (Entry.number n).node = .ok n :=
  Entry.natural_number hn (Nat.le_refl _)

theorem bound_pollsEntry {polls : Option Nat} (h : ∀ n ∈ polls, n < Decimal.word32) :
    nodeSource.bound (pollsEntry polls).node = .ok polls := by
  cases polls with
  | none => rfl
  | some n =>
    have hword : Decimal.word32 ≤ Decimal.word64 := by decide
    have habsent : nodeSource.isAbsent (Entry.number n).node = .ok false := Entry.isAbsent_number n
    have hnumber : nodeSource.natural Decimal.word32 "u32" (Entry.number n).node = .ok n :=
      Entry.natural_number (h n rfl) hword
    unfold Source.bound pollsEntry
    rw [habsent, ok_bind, if_neg Bool.false_ne_true, hnumber]
    rfl

/-- **A field is read as it was written.** -/
theorem read_node (h : c.Fits) (f : Field) :
    f.read nodeSource (f.entry c).node = .ok (f.get c) := by
  cases f with
  | socketPath => rfl
  | package => rfl
  | triggerUrl => rfl
  | pollIntervalSecs => exact word_number h.interval
  | timeoutSecs => exact word_number h.timeout
  | ioTimeoutSecs => exact word_number h.ioTimeout
  | maxPolls => exact bound_pollsEntry h.polls

end Field

/-! ## 2. The document -/

/-- A configuration is written field by field. -/
theorem toYaml_eq (c : Config) :
    c.toYaml = Yaml.writeMapping (Field.all.map fun f => (f.name, f.entry c)) := rfl

/-- Every field is given its value. -/
def given (c : Config) : Given :=
  fun f => some (f.get c)

theorem given_over (c c' : Config) : c.given.over c' = c :=
  ext_get fun f => Given.get_over c.given c' f

/-- The members of a configuration that is written. -/
def nodes (c : Config) : List (Node × Node) :=
  Field.all.map fun f => (.scalar .plain none f.name, (f.entry c).node)

/-- The members of a configuration are those that are written. -/
theorem of?_toYaml (c : Config) :
    Document.of? c.toYaml = some ⟨some (.mapping c.nodes), []⟩ := by
  let members : List (String × Entry) := Field.all.map fun f => (f.name, f.entry c)
  have hkeys : ∀ m ∈ members, Yaml.Lexer.IsKey m.1.toList := by
    intro m hm
    obtain ⟨f, -, rfl⟩ := List.mem_map.1 hm
    exact f.isKey_name
  have hscalars : ∀ m ∈ members, m.2.IsScalar := by
    intro m hm
    obtain ⟨f, -, rfl⟩ := List.mem_map.1 hm
    exact f.isScalar_entry c
  have hne : members ≠ [] := List.cons_ne_nil _ _
  exact Yaml.of?_writeMapping hne hkeys hscalars

/-- **The document that is written says every field.** -/
theorem says_nodes (h : c.Fits) (d : Document) :
    Says nodeSource ((entries d c.nodes).map memberOf) c.given := by
  have hmembers : (entries d c.nodes).map memberOf =
      Field.all.map fun f => (.ok f.name, none, (f.entry c).node) := by
    unfold entries nodes
    rw [List.map_map, List.map_map]
    rfl
  rw [hmembers]
  refine ⟨fun m hm => ?_, ?_, fun f _ => ?_⟩
  · obtain ⟨f, -, rfl⟩ := List.mem_map.1 hm
    exact ⟨f, f.get c, rfl, f.read_node h, rfl⟩
  · have hapart : Field.all.Pairwise (· ≠ ·) := by decide
    exact List.pairwise_map.2 (hapart.imp fun hne hname =>
      hne (Field.name_injective (Except.ok.inj hname)))
  · exact ⟨_, List.mem_map_of_mem f.mem_all, rfl⟩

theorem documentSays_toYaml (h : c.Fits) :
    DocumentSays ⟨some (.mapping c.nodes), []⟩ c.given :=
  .mapping c.nodes c.given rfl (says_nodes h _)

theorem isBlankText_toYaml (c : Config) : Text.isBlankText c.toYaml = false := by
  have hfirst : 's' ∈ c.toYaml.toList := by
    rw [toYaml_eq, Yaml.writeMapping, String.toList_ofList]
    exact List.mem_cons_self
  exact isBlankText_eq_false.2 ⟨'s', hfirst, by decide⟩

/-- What is written is what is said. -/
theorem textSays_toYaml (h : c.Fits) : TextSays c.toYaml c.given :=
  .document _ _ c.isBlankText_toYaml c.of?_toYaml (documentSays_toYaml h)

/-! ## 3. The file -/

theorem ofText_toYaml (h : c.Fits) : ofText c.toYaml = .ok c :=
  ofText_eq_ok.2 ⟨c.given, textSays_toYaml h, (given_over c {}).symm⟩

/-- **A configuration comes back from YAML**: it is read from the document that is written of it,
    and a file with that text gives it if it has no defect, and else its first defect; the file is
    never one that says something else. -/
theorem loadAt_toYaml (h : c.Fits) :
    (Document.of? c.toYaml).map ofYaml = some (.ok c) ∧
      ∀ (places : Places) (path : String), places path = .file (Bytes.ofText c.toYaml) →
        loadAt places path =
            (match c.defect? with
            | none => .ok c
            | some d => .error (.unusable d)) ∧
          ∀ (path' : String) (fault : TextFault),
            loadAt places path ≠ .error (.unlike path' fault) := by
  constructor
  · rw [of?_toYaml, Option.map_some,
      ofYaml_eq_ok.2 ⟨c.given, documentSays_toYaml h, (given_over c {}).symm⟩]
  · intro places path hplace
    have hload : loadAt places path = c.check.mapError .unusable := by
      unfold loadAt
      rw [textAt_eq_ok.2 hplace, ok_bind, ofText_toYaml h]
      rfl
    rw [hload, check]
    cases c.defect? with
    | none => exact ⟨rfl, fun _ _ hfault => nomatch hfault⟩
    | some d => exact ⟨rfl, fun _ _ hfault => nomatch hfault⟩

/-- The greatest numbers, and texts of no character, of lines with spaces around them, and of quotes,
    controls and marks; and the same with a number for an address. -/
theorem loadAt_odd_texts :
    let c : Config :=
      { socketPath := "", package := "  true\n - null\n\n", triggerUrl := "http://\x00'\"\\ #: 𝄞 ",
        pollIntervalSecs := 18446744073709551615, maxPolls := some 4294967295 }
    let unusable : Config := { c with triggerUrl := "0x10" }
    let places (c : Config) : Places := fun _ => .file (Bytes.ofText c.toYaml)
    c.Fits ∧ loadAt (places c) "config.yaml" = .ok c ∧ unusable.Fits ∧
      loadAt (places unusable) "config.yaml" = .error (.unusable (.foreignUrl "0x10")) := by
  intro c unusable places
  have hpolls : ∀ n ∈ some 4294967295, n < Decimal.word32 := by
    rintro n ⟨⟩
    decide
  have hfits : c.Fits := ⟨by decide, by decide, by decide, hpolls⟩
  have hfits' : unusable.Fits := ⟨by decide, by decide, by decide, hpolls⟩
  have hdefect : c.defect? = none := by decide
  have hdefect' : unusable.defect? = some (.foreignUrl "0x10") := by decide
  have hload := ((loadAt_toYaml hfits).2 (places c) "config.yaml" rfl).1
  have hload' := ((loadAt_toYaml hfits').2 (places unusable) "config.yaml" rfl).1
  rw [hdefect] at hload
  rw [hdefect'] at hload'
  exact ⟨hfits, hload, hfits', hload'⟩

end RevisionWatch.Config
