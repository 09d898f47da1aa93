import ObjectStore.Proofs.Json.Keys
import ObjectStore.Proofs.Sql.ArrayLiteral
import ObjectStore.Schema.Basic
import ObjectStore.Sql.Basic

/-!
# What a fragment does to records

What is stored by a fragment shows in its tokens: a column that is set to `NULL`, a text that is
read as JSON, and a path to a place inside a document (`effects`). No effect shows in more than
three tokens, and most fixed texts are no part of any. So fragments with such a text between them
have the effects of both (`effects_append`), and the effects of a fragment are found piece by piece.

A record must keep its two permission columns, and the keys of its documents must be such as may
stand below its top level. An effect that breaks neither is legal.
-/

namespace ObjectStore

open Update

/-- Whether a token is the value `NULL`, or the first one of it. -/
def Token.isNull : Token → Bool
  | .text s => s = "NULL"
  | .bind (.text none) => true
  | _ => false

namespace Sql

/-- Whether the value of a fragment is `NULL`. -/
def isNull (sql : Sql) : Bool := sql.head?.any Token.isNull

/-- Something that a fragment does to a record. -/
inductive Effect where
  | erases (column : String)
  | stores (document : String)
  | reaches (path : String)
  deriving Repr, DecidableEq

/-- The texts before a path into a document. -/
def pathWords : List String := [", ", " #- ", " #>> "]

/-- The effect that begins with a token, by the tokens after it. -/
def effectAt? : Token → Sql → Option Effect
  | .name column, rest =>
    match rest with
    | .text sign :: value :: _ =>
      if sign = " = " ∧ value.isNull then some (.erases column) else none
    | _ => none
  | .bind (.text (some document)), rest =>
    match rest with
    | .text cast :: _ => if cast = "::jsonb" then some (.stores document) else none
    | _ => none
  | .text before, rest =>
    if before ∈ pathWords then
      match rest with
      | .bind (.text (some path)) :: .text cast :: _ =>
        if cast = "::text[]" then some (.reaches path) else none
      | _ => none
    else none
  | _, _ => none

/-- The effects of a fragment, in order. -/
def effects : Sql → List Effect
  | [] => []
  | token :: rest => (effectAt? token rest).toList ++ effects rest

/-! ## Fragments apart -/

/-- A fragment does not go on with an effect that the tokens before it begin. -/
def IsApart (sql : Sql) : Prop :=
  ∀ token ∈ sql.head?, ∃ s, token = .text s ∧ s ∉ [" = ", "NULL", "::jsonb", "::text[]"]

variable {a b sql : Sql} {token : Token}

/-- A fragment that starts with a text of no effect stands apart. -/
theorem isApart_text {s : String} (h : s ∉ [" = ", "NULL", "::jsonb", "::text[]"]) (rest : Sql) :
    IsApart (text s ++ rest) := by
  rintro _ ⟨⟩
  exact ⟨s, rfl, h⟩

/-- An effect that begins before a fragment apart is over there. -/
theorem effectAt?_append (h : IsApart b) : effectAt? token (a ++ b) = effectAt? token a := by
  -- the first token of the fragment is a text that has no place in an effect
  cases b with
  | nil => rw [List.append_nil]
  | cons head rest =>
    obtain ⟨s, rfl, hs⟩ := h head rfl
    simp only [List.mem_cons, List.not_mem_nil, or_false, not_or] at hs
    obtain ⟨hsign, hnull, hjson, harray⟩ := hs
    -- two tokens behind a name or a path and one behind a text are all that an effect looks at
    cases token with
    | name column =>
      rcases a with _ | ⟨u, _ | ⟨v, a⟩⟩
      · cases rest <;> simp [effectAt?, hsign]
      · cases u <;> simp [effectAt?, Token.isNull, hnull]
      · cases u <;> rfl
    | bind value =>
      rcases value with (_ | document) | _ | _ | _ | _ | _ <;> try rfl
      rcases a with _ | ⟨u, a⟩
      · simp [effectAt?, hjson]
      · cases u <;> rfl
    | text before =>
      rcases a with _ | ⟨u, _ | ⟨v, a⟩⟩
      · simp [effectAt?]
      · rcases u with _ | _ | _ | (_ | path) | _ | _ | _ | _ | _ <;> simp [effectAt?, harray]
      · rcases u with _ | _ | _ | (_ | path) | _ | _ | _ | _ | _ <;> cases v <;> rfl
    | literal => rfl

/-- A fragment and one apart from it have the effects of the first and then those of the second. -/
theorem effects_append (h : IsApart b) : effects (a ++ b) = effects a ++ effects b := by
  induction a with
  | nil => rfl
  | cons token rest ih => rw [List.cons_append, effects, effects, effectAt?_append h, ih,
      List.append_assoc]

/-! ## Legal effects -/

/-- Whether all parts of a path may stand below the top level. -/
def pathHasNestedKeys (path : String) : Bool :=
  (readArray path).any fun parts => parts.all isNestedKey

/-- An effect leaves a record its permission columns, and its documents such keys as may stand
there. -/
def Effect.IsLegal : Effect → Prop
  | .erases column => column ∉ [readColumn, writeColumn]
  | .stores document => Json.textHasNestedKeys document = true
  | .reaches path => pathHasNestedKeys path = true

/-- All effects of a fragment are legal. -/
def IsLegal (sql : Sql) : Prop := ∀ effect ∈ sql.effects, effect.IsLegal

@[simp] theorem isLegal_nil : IsLegal [] := nofun

/-- A fragment is legal if the effect that begins with its first token is, and the rest. -/
@[simp] theorem isLegal_cons :
    IsLegal (token :: sql) ↔ (∀ effect ∈ effectAt? token sql, effect.IsLegal) ∧ IsLegal sql := by
  simp only [IsLegal, effects, List.forall_mem_append, Option.mem_toList, Option.mem_def]

/-- A fragment and one apart from it are legal if both are. -/
theorem isLegal_append (h : IsApart b) : IsLegal (a ++ b) ↔ IsLegal a ∧ IsLegal b := by
  simp only [IsLegal, effects_append h, List.forall_mem_append]

/-- A text of no effect between two fragments keeps them apart. -/
theorem isLegal_append_text {s : String} (h : s ∉ [" = ", "NULL", "::jsonb", "::text[]"]) :
    IsLegal (a ++ (text s ++ b)) ↔ IsLegal a ∧ IsLegal (text s ++ b) :=
  isLegal_append (isApart_text h b)

/-- A text that comes before no path begins no effect. -/
theorem isLegal_text {s : String} (h : s ∉ pathWords) : IsLegal (text s ++ sql) ↔ IsLegal sql := by
  simp [text, effectAt?, h]

/-- A bound value alone is legal. -/
theorem isLegal_bind (value : Param) : IsLegal (bind value) := by
  rcases value with (_ | _) | _ | _ | _ | _ | _ <;>
    simp [bind, effectAt?]

/-- A text that is not read as JSON is no document. -/
theorem isLegal_bindText (s : String) {cast : String} (hjson : cast ≠ "::jsonb")
    (hpath : cast ∉ pathWords) : IsLegal (bindText s ++ text cast) := by
  simp [bindText, bind, text, effectAt?, hjson, hpath]

/-- A bound document is legal if its keys may stand below the top level. -/
theorem isLegal_bindJson (value : Json) :
    IsLegal (bindJson value.compact) ↔ hasNestedKeys value = true := by
  simp [bindJson, bindText, bind, text, effectAt?, pathWords, Effect.IsLegal]

/-- A path is legal if all of its parts may stand below the top level. -/
@[simp] theorem pathHasNestedKeys_arrayLiteral (parts : List String) :
    pathHasNestedKeys (arrayLiteral parts) = parts.all isNestedKey := by
  rw [pathHasNestedKeys, readArray_arrayLiteral, Option.any_some]

end Sql

end ObjectStore
