import ObjectStore.Proofs.Json.Paths

/-!
# Parts of documents

A step leads from a document to the member of an object under a name or to an item of a list, and
`Json.reach?` is what lies at the end of some steps. Other than the steps of `Json.at?`, which are
texts that a list reads as indices, these tell names and indices apart: the name `0` leads nowhere
in a list.

A document is a part of another one (`Json.IsPartOf`) if steps in it lead to what they lead to in
the other one, but for objects, which may lack members. So a scalar in a part is in the whole, at
the same place (`IsPartOf.scalar`). A part grows by parts of the members of the whole
(`IsPartOf.insert`).
-/

namespace ObjectStore.Json

/-- A step into a document. -/
inductive Step where
  | member (name : String)
  | item (index : Nat)
  deriving Repr, DecidableEq

/-- What a step leads to. -/
def step? : Json → Step → Option Json
  | .obj fields, .member name => Dict.get? fields name
  | .arr items, .item index => items[index]?
  | _, _ => none

/-- What lies at the end of some steps. -/
def reach? : Json → List Step → Option Json
  | d, [] => some d
  | d, step :: rest => (d.step? step).bind (reach? · rest)

variable {d part whole value stored : Json} {fields members : Object} {name other : String}
  {path rest : List Step}

/-! ## Steps -/

/-- Steps one after another lead on from where the first ones end. -/
theorem reach?_append (d : Json) (path rest : List Step) :
    d.reach? (path ++ rest) = (d.reach? path).bind (reach? · rest) := by
  induction path generalizing d with
  | nil => rfl
  | cons step path ih =>
    rw [List.cons_append, reach?, reach?, Option.bind_assoc]
    exact Option.bind_congr fun inner _ => ih inner

theorem reach?_member (fields : Object) (name : String) (rest : List Step) :
    (obj fields).reach? (.member name :: rest) = (fields.get? name).bind (reach? · rest) := rfl

/-- From an object, steps start with a member. -/
theorem exists_member_of_reach? {step : Step}
    (h : (obj fields).reach? (step :: rest) = some value) :
    ∃ name inner, step = .member name ∧ fields.get? name = some inner
      ∧ inner.reach? rest = some value := by
  cases step with
  | member name =>
    obtain ⟨inner, hinner, hrest⟩ := Option.bind_eq_some_iff.mp h
    exact ⟨name, inner, rfl, hinner, hrest⟩
  | item index => cases h

/-- Only objects have members. -/
theorem exists_object_of_reach? (h : d.reach? (.member name :: rest) = some value) :
    ∃ fields, d = .obj fields := by
  cases d with
  | obj fields => exact ⟨fields, rfl⟩
  | null | bool | int | double | str | arr => cases h

/-- There are no scalars in an empty object. -/
theorem reach?_empty_ne (hscalar : value.kind = .scalar) : (obj []).reach? path ≠ some value := by
  intro h
  cases path with
  | nil =>
    obtain rfl := Option.some.inj h
    cases hscalar
  | cons step rest =>
    obtain ⟨name, inner, -, hinner, -⟩ := exists_member_of_reach? h
    cases hinner

/-- Behind a member that was stored lies what was stored. -/
theorem reach?_insert_self (fields : Object) (name : String) (value : Json) (rest : List Step) :
    (obj (fields.insert name value)).reach? (.member name :: rest) = value.reach? rest := by
  rw [reach?_member, Dict.get?_insert_self]
  rfl

/-- Behind the other members lies what lay there. -/
theorem reach?_insert_of_ne (h : other ≠ name) (value : Json) (rest : List Step) :
    (obj (fields.insert name value)).reach? (.member other :: rest)
      = (obj fields).reach? (.member other :: rest) := by
  rw [reach?_member, reach?_member, Dict.get?_insert_of_ne _ _ h]

/-! ## Parts -/

/-- Wherever steps lead in the part they lead in the whole, to the same value or in both to
objects. -/
def IsPartOf (part whole : Json) : Prop :=
  ∀ path value, part.reach? path = some value → ∃ stored, whole.reach? path = some stored
    ∧ (value = stored ∨ value.kind = .object ∧ stored.kind = .object)

/-- A document is a part of itself. -/
theorem IsPartOf.refl (d : Json) : IsPartOf d d := by
  intro path value h
  exact ⟨value, h, .inl rfl⟩

/-- The empty object is a part of every object. -/
theorem isPartOf_empty (members : Object) : IsPartOf (.obj []) (.obj members) := by
  intro path value h
  cases path with
  | nil =>
    obtain rfl := Option.some.inj h
    exact ⟨.obj members, rfl, .inr ⟨rfl, rfl⟩⟩
  | cons step rest =>
    obtain ⟨name, inner, -, hinner, -⟩ := exists_member_of_reach? h
    cases hinner

/-- A scalar in a part is in the whole. -/
theorem IsPartOf.scalar (h : IsPartOf part whole) (hpath : part.reach? path = some value)
    (hscalar : value.kind = .scalar) : whole.reach? path = some value := by
  obtain ⟨stored, hstored, rfl | ⟨hobject, -⟩⟩ := h path value hpath
  · exact hstored
  · rw [hscalar] at hobject
    cases hobject

/-- A member of a part is a part of the member of the whole. -/
theorem IsPartOf.member (h : IsPartOf (.obj fields) (.obj members))
    (hvalue : fields.get? name = some value) (hstored : members.get? name = some stored) :
    IsPartOf value stored := by
  intro path found hfound
  have hpart := h (.member name :: path) found
  rw [reach?_member, reach?_member, hvalue, hstored] at hpart
  exact hpart hfound

/-- Where the whole has an object under a name, a part has an object or nothing. -/
theorem IsPartOf.exists_object {inner : Object} (h : IsPartOf (.obj fields) (.obj members))
    (hvalue : fields.get? name = some value) (hstored : members.get? name = some (.obj inner)) :
    ∃ slot, value = .obj slot := by
  obtain ⟨found, hfound, hsame⟩ := h.member hvalue hstored [] value rfl
  obtain rfl := Option.some.inj hfound
  rcases hsame with rfl | ⟨hobject, -⟩
  · exact ⟨inner, rfl⟩
  · cases value with
    | obj slot => exact ⟨slot, rfl⟩
    | null | bool | int | double | str | arr => cases hobject

/-- A part with a part of a member of the whole is one. -/
theorem IsPartOf.insert (h : IsPartOf (.obj fields) (.obj members))
    (hstored : members.get? name = some stored) (hvalue : IsPartOf value stored) :
    IsPartOf (.obj (fields.insert name value)) (.obj members) := by
  intro path found hfound
  cases path with
  | nil =>
    obtain rfl := Option.some.inj hfound
    exact ⟨.obj members, rfl, .inr ⟨rfl, rfl⟩⟩
  | cons step rest =>
    obtain ⟨other, -, rfl, -, -⟩ := exists_member_of_reach? hfound
    -- through the new member steps go on in its value, past it they lead where they led
    by_cases hname : other = name
    · subst hname
      rw [reach?_insert_self] at hfound
      rw [reach?_member, hstored]
      exact hvalue rest found hfound
    · rw [reach?_insert_of_ne hname] at hfound
      exact h (.member other :: rest) found hfound

end ObjectStore.Json
