import ObjectStore.Json.Reader
import ObjectStore.Proofs.Decimal.Written
import ObjectStore.Proofs.Json.Content
import ObjectStore.Proofs.Sql.ArrayLiteral
import ObjectStore.Proofs.Time.Timestamp
import ObjectStore.Sql.Basic
import ObjectStore.Value.Column

/-!
# What columns hold

What the engine does with an expression that is stored, column type by column type, and what it
shows of the column when a row is sent as JSON. Bound texts, numbers, truth values and documents
come back as they went; the literals of arrays and polygons are read first; points, polygons and
timestamps come back as texts of the engine's own making. It chooses the digits of a coordinate, and
the offset and the digits of a timestamp: `Returns` only says what the text stands for.

`Holds column sql cell` says that `cell` may be shown of a column after `sql` was stored in it. The
lemmas tell, for every form of expression that is ever stored, what may be shown.
-/

namespace ObjectStore.Engine

open Decimal

/-! ## Points and rings -/

/-- A text of a point: two decimals with a comma and a gap between them. -/
def SpellsPair (gap text : String) (p : Float × Float) : Prop :=
  ∃ a b, text = "(" ++ a ++ ("," ++ gap) ++ b ++ ")" ∧ Spells a p.1 ∧ Spells b p.2

/-- A text of a ring: texts of its points. -/
def SpellsRing (gap text : String) (ring : List (Float × Float)) : Prop :=
  ∃ parts, text = "(" ++ Text.join ("," ++ gap) parts ++ ")"
    ∧ List.Forall₂ (SpellsPair gap) parts ring

/-! ## Columns -/

/-- What is kept in a column. -/
inductive Held where
  | nothing
  | text (s : String)
  | number (x : Float)
  | flag (b : Bool)
  | moment (instant : ℚ)
  | document (content : Json.Content)
  | texts (items : List String)
  | point (p : Float × Float)
  | polygon (ring : List (Float × Float))

/-- What is kept in a column after an expression was stored in it. The abscissa of a point comes
first. -/
inductive Stores : ColumnType → Sql → Held → Prop
  | nothing (column : ColumnType) : Stores column (Sql.text "NULL") .nothing
  | text (s : String) : Stores .text (Sql.bind (.text (some s))) (.text s)
  | number (x : Float) : Stores .double (Sql.bind (.double x)) (.number x)
  | flag (b : Bool) : Stores .boolean (Sql.bind (.bool b)) (.flag b)
  | moment {w : Timestamp.Written} (hw : w.WellFormed) :
    Stores .timestamp (Sql.bindText (String.ofList w.text) ++ Sql.text "::timestamptz")
      (.moment w.instant)
  | document {s : String} {v : Json} (h : Json.readAll? s.toList.length s.toList = some v) :
    Stores .json (Sql.bindJson s) (.document v.canonical.content)
  | texts {s : String} {items : List String} (h : Sql.readArray s = some items) :
    Stores .textArray (Sql.bindText s ++ Sql.text "::text[]") (.texts items)
  | point (x y : Float) :
    Stores .point (Sql.text "POINT(" ++ Sql.bind (.double x) ++ Sql.text ", "
      ++ Sql.bind (.double y) ++ Sql.text ")") (.point (x, y))
  | polygon {s : String} {ring : List (Float × Float)} (h : SpellsRing " " s ring) :
    Stores .polygon (Sql.bindText s ++ Sql.text "::polygon") (.polygon ring)

/-- What may be shown of what is kept. -/
inductive Returns : Held → Json → Prop
  | nothing : Returns .nothing .null
  | text (s : String) : Returns (.text s) (.str s)
  | number {x : Float} {cell : Json} (h : cell.content = .number (value x)) :
    Returns (.number x) cell
  | flag (b : Bool) : Returns (.flag b) (.bool b)
  | moment {w : Timestamp.Written} {instant : ℚ} (hw : w.WellFormed) (h : w.instant = instant) :
    Returns (.moment instant) (.str (String.ofList w.text))
  | document {content : Json.Content} {cell : Json} (h : cell.content = content) :
    Returns (.document content) cell
  | texts (items : List String) : Returns (.texts items) (Json.ofStrings items)
  | point {s : String} {p : Float × Float} (h : SpellsPair "" s p) : Returns (.point p) (.str s)
  | polygon {s : String} {ring : List (Float × Float)} (h : SpellsRing "" s ring) :
    Returns (.polygon ring) (.str s)

/-- What may be shown of a column after an expression was stored in it. -/
def Holds (column : ColumnType) (sql : Sql) (cell : Json) : Prop :=
  ∃ held, Stores column sql held ∧ Returns held cell

variable {column : ColumnType} {cell : Json} {s : String}

/-- A column of any type shows `NULL` as null. -/
theorem holds_nothing : Holds column (Sql.text "NULL") cell ↔ cell = .null := by
  constructor
  · rintro ⟨held, hstores, hreturns⟩
    generalize hsql : Sql.text "NULL" = sql at hstores
    -- an array literal and a point are of another length than the single part of `NULL`
    have hlength := congrArg List.length hsql
    cases hstores with
    | nothing =>
      cases hreturns
      rfl
    | point => cases hlength
    | _ => cases hsql
  · rintro rfl
    exact ⟨_, .nothing column, .nothing⟩

/-- A text comes back as it was bound. -/
theorem holds_text : Holds .text (Sql.bind (.text (some s))) cell ↔ cell = .str s := by
  constructor
  · rintro ⟨held, hstores, hreturns⟩
    cases hstores
    cases hreturns
    rfl
  · rintro rfl
    exact ⟨_, .text s, .text s⟩

/-- A number comes back with the value that was bound, in digits of the engine's choice. -/
theorem holds_number {x : Float} :
    Holds .double (Sql.bind (.double x)) cell ↔ cell.content = .number (value x) := by
  constructor
  · rintro ⟨held, hstores, hreturns⟩
    cases hstores
    cases hreturns with
    | number h => exact h
  · exact fun h => ⟨_, .number x, .number h⟩

/-- A truth value comes back as it was bound. -/
theorem holds_flag {b : Bool} : Holds .boolean (Sql.bind (.bool b)) cell ↔ cell = .bool b := by
  constructor
  · rintro ⟨held, hstores, hreturns⟩
    cases hstores
    cases hreturns
    rfl
  · rintro rfl
    exact ⟨_, .flag b, .flag b⟩

/-- A timestamp is shown as a text of the instant that the stored text names. -/
theorem holds_moment :
    Holds .timestamp (Sql.bindText s ++ Sql.text "::timestamptz") cell ↔
      ∃ v w : Timestamp.Written, v.WellFormed ∧ s = String.ofList v.text ∧ w.WellFormed
        ∧ w.instant = v.instant ∧ cell = .str (String.ofList w.text) := by
  constructor
  · rintro ⟨held, hstores, hreturns⟩
    cases hstores with
    | moment hv =>
      cases hreturns with
      | moment hw h => exact ⟨_, _, hv, rfl, hw, h, rfl⟩
  · rintro ⟨v, w, hv, rfl, hw, h, rfl⟩
    exact ⟨_, .moment hv, .moment hw h⟩

/-- A document comes back with the content of the text that was bound, its keys once each and in the
engine's order. -/
theorem holds_document : Holds .json (Sql.bindJson s) cell ↔
    ∃ v, Json.readAll? s.toList.length s.toList = some v ∧ cell.content = v.canonical.content := by
  constructor
  · rintro ⟨held, hstores, hreturns⟩
    cases hstores with
    | document hread =>
      cases hreturns with
      | document h => exact ⟨_, hread, h⟩
  · rintro ⟨v, hread, h⟩
    exact ⟨_, .document hread, .document h⟩

/-- A list of texts comes back as the engine reads its literal. -/
theorem holds_texts : Holds .textArray (Sql.bindText s ++ Sql.text "::text[]") cell ↔
    ∃ items, Sql.readArray s = some items ∧ cell = Json.ofStrings items := by
  constructor
  · rintro ⟨held, hstores, hreturns⟩
    cases hstores with
    | texts hread =>
      cases hreturns
      exact ⟨_, hread, rfl⟩
  · rintro ⟨items, hread, rfl⟩
    exact ⟨_, .texts hread, .texts items⟩

/-- A point is shown as a text of its two numbers, in digits of the engine's choice. -/
theorem holds_point {x y : Float} :
    Holds .point (Sql.text "POINT(" ++ Sql.bind (.double x) ++ Sql.text ", "
      ++ Sql.bind (.double y) ++ Sql.text ")") cell ↔
      ∃ s, SpellsPair "" s (x, y) ∧ cell = .str s := by
  constructor
  · rintro ⟨held, hstores, hreturns⟩
    generalize hsql : Sql.text "POINT(" ++ Sql.bind (.double x) ++ Sql.text ", "
      ++ Sql.bind (.double y) ++ Sql.text ")" = sql at hstores
    cases hstores with
    -- `NULL` is one part, the constructor of a point is five
    | nothing => cases congrArg List.length hsql
    | point =>
      cases hsql
      cases hreturns with
      | point h => exact ⟨_, h, rfl⟩
  · rintro ⟨s, h, rfl⟩
    exact ⟨_, .point x y, .point h⟩

/-- A polygon is shown as a text of the ring that its literal spells. -/
theorem holds_polygon : Holds .polygon (Sql.bindText s ++ Sql.text "::polygon") cell ↔
    ∃ ring t, SpellsRing " " s ring ∧ SpellsRing "" t ring ∧ cell = .str t := by
  constructor
  · rintro ⟨held, hstores, hreturns⟩
    cases hstores with
    | polygon h =>
      cases hreturns with
      | polygon h' => exact ⟨_, _, h, h', rfl⟩
  · rintro ⟨ring, t, h, h', rfl⟩
    exact ⟨_, .polygon h, .polygon h'⟩

end ObjectStore.Engine
