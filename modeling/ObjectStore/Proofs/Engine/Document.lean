import ObjectStore.Proofs.Json.Paths
import ObjectStore.Proofs.Sql.ArrayLiteral
import ObjectStore.Update.Assignment

/-!
# What expressions on documents come to

A document is changed by `jsonb_set`, which puts a value where a path leads, and by `#-`, which
takes away what is there. Both leave the document as it is where a step before the last one leads
nowhere. In an array a step must be a whole number; a value for a place beyond its ends becomes the
first or the last item. `#>>` reads what lies at a path as text, and a cast makes a number of it.

An expression is a column with such changes applied one after another, each around those before it
(`readDocument?`), and `evaluate` is what it comes to on what the column holds. Nothing stands for a
statement that is refused. What comes of adding to something other than a number is left open.
-/

namespace ObjectStore

/-- The value that a text is read as. -/
def Json.read? (text : String) : Option Json :=
  (Json.readAll? text.toList.length text.toList).map Json.canonical

/-- A canonical value is read back from its compact text. -/
theorem Json.read?_compact {v : Json} (h : v.Representable) (hcanonical : v.Canonical) :
    Json.read? v.compact = some v := by
  rw [Json.read?, Json.readAll?_compact h, Option.map_some, Json.canonical_eq_self v hcanonical]

namespace Engine

open Json

variable {d value : Json} {step : String} {path : List String} {edit : Edit}

/-! ## Changes at a path -/

/-- What is done where the last step of a path leads. -/
inductive Edit where
  | put (value : Json)
  | remove

namespace Edit

/-- A list after an edit at a place, which may be an index of it. -/
def onItems (edit : Edit) (place : Int) (index : Option Nat) (items : List Json) : List Json :=
  match edit, index with
  | .put value, some index => items.set index value
  | .put value, none => if place < 0 then value :: items else items ++ [value]
  | .remove, some index => items.eraseIdx index
  | .remove, none => items

/-- A value after an edit where a step leads. -/
def onLast (edit : Edit) (step : String) : Json → Option Json
  | .obj fields =>
    match edit with
    | .put value => some (.obj (Dict.insert fields step value))
    | .remove => some (.obj (Dict.erase fields step))
  | .arr items =>
    (place? step).map fun place => .arr (edit.onItems place (index? items.length step) items)
  | d => some d

/-- Whether a step is refused: it meets an array, and is no whole number. -/
def isRefused (step : String) (d : Json) : Bool := d.kind = .array && (place? step).isNone

/-- A value after an edit where a path leads. -/
def onPath (edit : Edit) : List String → Json → Option Json
  | [], d => some d
  | [step], d => edit.onLast step d
  | step :: next :: rest, d =>
    if isRefused step d then none
    else
      match d.child? step with
      | some inner => (edit.onPath (next :: rest) inner).map (d.setChild step)
      | none => some d

/-- A step that a document admits is not refused: in a list it is an index. -/
theorem isRefused_eq_false (h : Admits step d) : isRefused step d = false := by
  cases d with
  | arr items =>
    obtain ⟨index, _, hsmall, rfl⟩ := h items rfl
    rw [isRefused, place?_toString hsmall]
    rfl
  | obj | null | bool | int | double | str => rfl

/-- A value is put where there is a place for it. -/
theorem onPath_put (hd : d.Canonical) (hpath : path ≠ []) (h : Passes path d) :
    (put value).onPath path d = some (if hasPlace path d then d.put path value else d) := by
  induction path generalizing d with
  | nil => exact absurd rfl hpath
  | cons step rest ih =>
    cases rest with
    | nil =>
      cases d with
      | obj fields => rfl
      | arr items =>
        obtain ⟨index, hlt, hsmall, rfl⟩ := h.1 items rfl
        have hindex := index?_toString hlt hsmall
        have hplace : hasPlace [toString index] (.arr items) = true := rfl
        simp only [onPath, onLast, place?_toString hsmall, Option.map_some, hindex, onItems, hplace,
          if_true, Json.put, setChild]
      | null | bool | int | double | str => rfl
    | cons next rest =>
      rw [onPath, isRefused_eq_false h.1, if_neg Bool.false_ne_true, hasPlace_cons, Json.put]
      cases hchild : d.child? step with
      | none => rfl
      | some inner =>
        dsimp only [Option.any_some, Option.getD_some]
        rw [ih (hd.child? hchild) (List.cons_ne_nil _ _) (h.2 inner hchild), Option.map_some]
        split
        · rfl
        -- no place below: the member is set to what it was
        · rw [setChild_eq_self hd hchild]

/-- A member is taken out of the object that has it. -/
theorem onPath_remove (hpath : path ≠ []) (h : Passes path d) (hlast : above path d ≠ some .array) :
    remove.onPath path d = some (d.without path) := by
  induction path generalizing d with
  | nil => exact absurd rfl hpath
  | cons step rest ih =>
    cases rest with
    | nil =>
      cases d with
      | obj fields => rfl
      | arr items => exact absurd rfl hlast
      | null | bool | int | double | str => rfl
    | cons next rest =>
      rw [onPath, isRefused_eq_false h.1, if_neg Bool.false_ne_true, Json.without]
      cases hchild : d.child? step with
      | none => rfl
      | some inner =>
        rw [above_cons, hchild, Option.bind_some] at hlast
        dsimp only
        rw [ih (List.cons_ne_nil _ _) (h.2 inner hchild) hlast, Option.map_some]

end Edit

/-! ## Expressions -/

/-- A change of a document by an expression. An addition reads the column at a path of its own. -/
inductive DocumentStep where
  | put (path : List String) (value : Json)
  | remove (path : List String)
  | add (path source : List String) (amount : Float)

/-- How a change stands around those before it: as a function, or in parentheses. -/
inductive Opening where
  | call
  | parens

/-- What a change begins with. -/
def Opening.word : Opening → String
  | .call => "jsonb_set("
  | .parens => "("

/-- What changes begin with, the last one first, and what comes after that. -/
def readOpenings : Sql → List Opening × Sql
  | .text "jsonb_set(" :: rest => (.call :: (readOpenings rest).1, (readOpenings rest).2)
  | .text "(" :: rest => (.parens :: (readOpenings rest).1, (readOpenings rest).2)
  | sql => ([], sql)

/-- The changes of a column, by what they begin with and how they go on. -/
def readSteps (column : String) : List Opening → Sql → Option (List DocumentStep)
  | .call :: more, .text ", " :: .bind (.text (some path)) :: .text "::text[]" :: .text ", "
      :: .bind (.text (some value)) :: .text "::jsonb" :: .text ")" :: rest => do
    let path ← Sql.readArray path
    let value ← Json.read? value
    (readSteps column more rest).map (.put path value :: ·)
  | .call :: more, .text ", " :: .bind (.text (some path)) :: .text "::text[]"
      :: .text ", to_jsonb(COALESCE((" :: .name named :: .text " #>> "
      :: .bind (.text (some source)) :: .text "::text[]" :: .text ")::double precision, 0) + "
      :: .bind (.double amount) :: .text "))" :: rest => do
    let path ← Sql.readArray path
    let source ← Sql.readArray source
    if named = column then (readSteps column more rest).map (.add path source amount :: ·)
    else none
  | .parens :: more, .text " #- " :: .bind (.text (some path)) :: .text "::text[]" :: .text ")"
      :: rest => do
    let path ← Sql.readArray path
    (readSteps column more rest).map (.remove path :: ·)
  | [], [] => some []
  | _, _ => none

/-- The changes that an expression makes to what a column holds, an object if it holds nothing. -/
def readDocument? (column : String) (sql : Sql) : Option (List DocumentStep) :=
  match readOpenings sql with
  | (openings, .text "COALESCE(" :: .name named :: .text ", '\x7b\x7d'::jsonb)" :: rest) =>
    if named = column then readSteps column openings.reverse rest else none
  | _ => none

/-- A double as a document; those that are too large are refused. -/
def documentOf (x : Float) : Option Json := if x.isFinite then some (.double x) else none

/-- What is at a place after an amount is added to it. Nothing counts as zero, and what comes of
adding to anything but a number is left to `other`. -/
def sum? (other : Json → Float → Option Json) (found : Option Json) (amount : Float) :
    Option Json :=
  match found with
  | none | some .null => documentOf (0.0 + amount)
  | some (.int n) => documentOf (Float.ofInt n + amount)
  | some (.double x) => documentOf (x + amount)
  | some value => other value amount

/-- A document after one change. A document that is no object and no array is refused. -/
def DocumentStep.on (other : Json → Float → Option Json) (held : Option Json) (d : Json)
    (step : DocumentStep) : Option Json :=
  if d.kind = .scalar then none
  else
    match step with
    | .put path value => (Edit.put value).onPath path d
    | .remove path => Edit.remove.onPath path d
    | .add path source amount => do
      let sum ← sum? other (held.bind (Json.at? source)) amount
      (Edit.put sum).onPath path d

/-- What an expression comes to on what its column holds. -/
def evaluate (other : Json → Float → Option Json) (column : String) (held : Option Json)
    (sql : Sql) : Option Json := do
  let steps ← readDocument? column sql
  steps.foldlM (DocumentStep.on other held) (held.getD (.obj []))

end Engine

end ObjectStore
