import RevisionWatch.Json.Document
/-!
# Objects with known fields

A thing with named fields is an object whose members come in any order, each field at most once
and every other member skipped, or a list that gives the fields in their declared order, where
optional ones may be missing at the end. What has been read so far is a draft; a field says how
it is read into the draft, and the layout how a draft becomes the thing or which field it lacks.
-/

namespace RevisionWatch.Json

/-- A field of a thing whose drafts are `δ`. -/
structure Field (δ : Type) where
  key : String
  given : δ → Bool
  read : Nat → δ → Reader δ

/-- A thing with named fields. -/
structure Layout (δ α : Type) where
  title : String
  fields : List (Field δ)
  blank : δ
  finish : δ → Except String α

namespace Field

/-- A field whose value is read by `read` and kept by `put`. -/
def of {δ α : Type} (key : String) (get : δ → Option α) (put : δ → α → δ) (read : Nested α) :
    Field δ :=
  ⟨key, fun d => (get d).isSome, fun room d bs => do
    let (a, bs) ← read room bs
    .ok (put d a, bs)⟩

end Field

namespace Layout

variable {δ α : Type}

/-- The members of an object behind its brace. -/
def membersFrom (l : Layout δ α) (room : Nat) :
    Bytes → Bool → δ → Bytes → Except Fault (δ × Bytes)
  | [], _, _, _ => .error .ended
  | _ :: fuel, first, d, bs => do
    match ← nextKey first bs with
    | none => .ok (d, bs)
    | some bs =>
      let (key, bs) ← textBody bs
      match l.fields.find? (·.key == key) with
      | some f =>
        if f.given d then .error (.unlike (.repeatedField key))
        else
          let bs ← afterByte colon bs
          let (d, bs) ← f.read room d bs
          membersFrom l room fuel false d bs
      | none =>
        let bs ← afterByte colon bs
        let bs ← skip bs
        membersFrom l room fuel false d bs

/-- The thing as an object, behind its brace. -/
def object (l : Layout δ α) (room : Nat) : Reader α := fun bs => do
  let (d, bs) ← l.membersFrom room bs true l.blank bs
  match l.finish d with
  | .error key => .error (.unlike (.missingField key))
  | .ok a =>
    let rest ← afterByte closeObject bs
    .ok (a, rest)

/-- The number of fields, in words. -/
def arity (l : Layout δ α) : String :=
  l.title ++ " with " ++ Decimal.text l.fields.length ++
    (if l.fields.length == 1 then " element" else " elements")

/-- The fields in order, from the items of a list. -/
def itemsFrom (room : Nat) : List (Field δ) → Bool → δ → Bytes → Except Fault (δ × Bytes)
  | [], _, d, bs => .ok (d, bs)
  | f :: fs, first, d, bs => do
    match ← nextItem first bs with
    | none => .ok (d, bs)
    | some bs =>
      let (d, bs) ← f.read room d bs
      itemsFrom room fs false d bs

/-- The thing as a list, behind its bracket. -/
def list (l : Layout δ α) (room : Nat) : Reader α := fun bs => do
  let (d, bs) ← itemsFrom room l.fields true l.blank bs
  match l.finish d with
  | .error key =>
    let place := l.fields.findIdx (·.key == key)
    .error (.unlike (.wrongLength place l.arity))
  | .ok a =>
    let rest ← afterByte closeList bs
    .ok (a, rest)

/-- The thing, in either form. -/
def read (l : Layout δ α) : Nested α := fun room bs =>
  match dropBlanks bs with
  | [] => .error .ended
  | b :: rest =>
    if b == openObject then
      match room with
      | 0 => .error .malformed
      | room + 1 => l.object room rest
    else if b == openList then
      match room with
      | 0 => .error .malformed
      | room + 1 => l.list room rest
    else .error (unwanted l.title b rest)

end Layout

end RevisionWatch.Json
