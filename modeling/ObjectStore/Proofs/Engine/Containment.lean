import ObjectStore.Proofs.Engine.Column
import ObjectStore.Proofs.Sql.Truth

/-!
# What conditions on arrays come to

Arrays of texts have operators of their own, `&&` and `@>`. Arrays in documents are looked into by
two functions that the store defines: `array_contains` asks for an item that the values contain, and
`array_contains_all` for all values, of which there must be some. Both go by containment of
documents (`Json.Content.covers`).

All of them are unknown on a column that holds nothing. `Engine.truthOn` says what a clause comes to
on a row by what one of its columns holds; clauses about other columns are left to the row.

A third function, `array_contains_all_regex`, asks that every pattern of a list, of which there must
be some, is matched by an item. Its patterns are like-patterns, in which `%` stands for any text,
`_` for any character, and a backslash for the character that follows it. Items that are no texts
are matched by how they are written; what a condition comes to on an array that holds such items is
left to the row.
-/

namespace ObjectStore

/-! ## Containment of documents -/

namespace Json.Content

mutual

/-- Whether a value contains another one. An array contains every array whose items are contained in
items of it, and an object every object whose members are contained in members of the same name;
neither order nor repetition matters. Everything else contains itself only. -/
def covers : Content → Content → Bool
  | .null, .null => true
  | .bool a, .bool b => a == b
  | .number a, .number b => a == b
  | .str a, .str b => a == b
  | .arr items, .arr others => others.all (someCovers items)
  | .obj fields, .obj others => others.all fun (key, other) => memberCovers fields key other
  | _, _ => false

/-- Whether some item contains a value. -/
def someCovers : List Content → Content → Bool
  | [], _ => false
  | item :: rest, other => covers item other || someCovers rest other

/-- Whether the member of a name contains a value. -/
def memberCovers : List (String × Content) → String → Content → Bool
  | [], _, _ => false
  | (name, value) :: rest, key, other =>
    if name = key then covers value other else memberCovers rest key other

end

variable {items others : List Content}

/-- Some item contains a value, item by item. -/
theorem someCovers_eq_any (items : List Content) (other : Content) :
    someCovers items other = items.any fun item => item.covers other := by
  induction items with
  | nil => rfl
  | cons item rest ih => rw [someCovers, ih, List.any_cons]

/-- An array contains another one if each item of that is contained in some item of this. -/
theorem covers_arr :
    covers (.arr items) (.arr others) = others.all fun other => items.any fun item =>
      item.covers other := by
  rw [covers]
  exact List.all_congr rfl fun other => someCovers_eq_any items other

/-- A text contains itself only. -/
@[simp] theorem covers_str (s t : String) : covers (.str s) (.str t) = (s == t) := by
  rw [covers]

/-- An array contains no text. -/
@[simp] theorem covers_arr_str (items : List Content) (s : String) :
    covers (.arr items) (.str s) = false := by
  simp [covers]

/-- The content of a text that is read as JSON. -/
def read? (text : String) : Option Content :=
  (Json.readAll? text.toList.length text.toList).map fun value => value.canonical.content

/-- What is written for a canonical value is read as what the value says. -/
theorem read?_compact {v : Json} (h : v.Representable) (hcanonical : v.Canonical) :
    read? v.compact = some v.content := by
  rw [read?, readAll?_compact h, Option.map_some, canonical_eq_self v hcanonical]

end Json.Content

namespace Engine

open Json (Content)

/-! ## Conditions -/

/-- Whether the values contain one of some items: `array_contains`. -/
def arrayContains (items : List Content) (values : Content) : Bool :=
  items.any fun item => values.covers (.arr [item])

/-- Whether some items contain all values, of which there must be some: `array_contains_all`. -/
def arrayContainsAll (items values : List Content) : Bool :=
  if values.isEmpty then false else Content.covers (.arr items) (.arr values)

/-- A condition on one column. -/
inductive ColumnTest where
  | always
  | isNull
  | overlaps (texts : List String)
  | holdsAll (texts : List String)
  | contains (values : Content)
  | containsAll (values : Content)

namespace ColumnTest

/-- The condition that a clause puts on a column. -/
def read? (column : String) : Sql → Option ColumnTest
  | [.text "1 = 1"] => some .always
  | [.name named, .text " IS NULL"] => if named = column then some .isNull else none
  | [.name named, .text " && ", .bind (.text (some literal)), .text "::text[]"] =>
    if named = column then (Sql.readArray literal).map .overlaps else none
  | [.name named, .text " @> ", .bind (.text (some literal)), .text "::text[]"] =>
    if named = column then (Sql.readArray literal).map .holdsAll else none
  | [.text "array_contains(", .name named, .text ", ", .bind (.text (some values)),
      .text "::jsonb", .text ")"] =>
    if named = column then (Content.read? values).map .contains else none
  | [.text "array_contains_all(", .name named, .text ", ", .bind (.text (some values)),
      .text "::jsonb", .text ")"] =>
    if named = column then (Content.read? values).map .containsAll else none
  | _ => none

/-- What a condition comes to on what a column holds. All but the first two are unknown where it
holds nothing; columns of other types are refused, which is as good as unknown. -/
def on : ColumnTest → Held → Option Bool
  | .always, _ => some true
  | .isNull, .nothing => some true
  | .isNull, _ => some false
  | .overlaps texts, .texts items => some (texts.any fun text => items.contains text)
  | .holdsAll texts, .texts items => some (texts.all fun text => items.contains text)
  | .contains values, .document (.arr items) => some (arrayContains items values)
  | .containsAll (.arr values), .document (.arr items) => some (arrayContainsAll items values)
  | _, _ => none

end ColumnTest

/-- What a clause comes to on a row with a column that holds something. -/
def truthOn (column : String) (held : Held) (rest : Valuation) : Valuation := fun sql =>
  match ColumnTest.read? column sql with
  | some test => test.on held
  | none => rest sql

section Clauses

variable {sql : Sql} {name s : String} {held : Held} {rest : Valuation} {test : ColumnTest}
  {values : Content}

/-- A clause that puts a condition on the column comes to what the condition does on what it holds.
-/
theorem truthOn_eq (h : ColumnTest.read? name sql = some test) :
    truthOn name held rest sql = test.on held := by
  rw [truthOn, h]

namespace ColumnTest

/-- The clause for a missing value asks whether the column holds nothing. -/
theorem read?_isNull (name : String) :
    read? name (Sql.name name ++ Sql.text " IS NULL") = some .isNull :=
  if_pos rfl

/-- The clause with `&&` asks for one of the texts in its literal. -/
theorem read?_overlaps (name : String) (texts : List String) :
    read? name (Sql.name name ++ Sql.text " && "
      ++ (Sql.bindText (Sql.arrayLiteral texts) ++ Sql.text "::text[]"))
        = some (.overlaps texts) := by
  show (if name = name then (Sql.readArray (Sql.arrayLiteral texts)).map overlaps else none) = _
  rw [if_pos rfl, Sql.readArray_arrayLiteral, Option.map_some]

/-- The clause with `@>` asks for all texts in its literal. -/
theorem read?_holdsAll (name : String) (texts : List String) :
    read? name (Sql.name name ++ Sql.text " @> "
      ++ (Sql.bindText (Sql.arrayLiteral texts) ++ Sql.text "::text[]"))
        = some (.holdsAll texts) := by
  show (if name = name then (Sql.readArray (Sql.arrayLiteral texts)).map holdsAll else none) = _
  rw [if_pos rfl, Sql.readArray_arrayLiteral, Option.map_some]

/-- The clause with `array_contains` asks for one of the values that its text holds. -/
theorem read?_contains (name : String) (h : Content.read? s = some values) :
    read? name (Sql.text "array_contains(" ++ Sql.name name ++ Sql.text ", " ++ Sql.bindJson s
      ++ Sql.text ")") = some (.contains values) := by
  show (if name = name then (Content.read? s).map contains else none) = _
  rw [if_pos rfl, h, Option.map_some]

/-- The clause with `array_contains_all` asks for all values that its text holds. -/
theorem read?_containsAll (name : String) (h : Content.read? s = some values) :
    read? name (Sql.text "array_contains_all(" ++ Sql.name name ++ Sql.text ", " ++ Sql.bindJson s
      ++ Sql.text ")") = some (.containsAll values) := by
  show (if name = name then (Content.read? s).map containsAll else none) = _
  rw [if_pos rfl, h, Option.map_some]

end ColumnTest

end Clauses

/-! ## Lists of texts -/

/-- A document of texts contains one of some values if it holds it. -/
theorem arrayContains_texts (texts values : List String) :
    arrayContains (texts.map .str) (.arr (values.map .str))
      = values.any fun value => texts.contains value := by
  rw [Bool.eq_iff_iff]
  simp [arrayContains, Content.covers_arr, and_comm]

/-- No text is a list. -/
theorem arrayContains_list (texts : List String) (items : List Content) :
    arrayContains (texts.map .str) (.arr [.arr items]) = false := by
  simp [arrayContains, Content.covers_arr]

/-- A document of texts contains all of some texts if there are some and it holds each. -/
theorem arrayContainsAll_texts (texts values : List String) :
    arrayContainsAll (texts.map .str) (values.map .str)
      = (!values.isEmpty && values.all fun value => texts.contains value) := by
  cases values with
  | nil => rfl
  | cons value rest =>
    rw [Bool.eq_iff_iff]
    simp [arrayContainsAll, Content.covers_arr]

end Engine

end ObjectStore

namespace ObjectStore.Engine

open Json (Content)

/-! ## Like-patterns -/

/-- Whether a text matches a like-pattern. A pattern that ends in a lone backslash is refused, which
is as good as no match. -/
def like : List Char → List Char → Bool
  | [], text => text.isEmpty
  | c :: pattern, text =>
    if c = '%' then text.tails.any (like pattern)
    else if c = '_' then text.tail?.any (like pattern)
    else if c = '\\' then
      match pattern with
      | [] => false
      | d :: pattern => (Text.afterStart? [d] text).any (like pattern)
    else (Text.afterStart? [c] text).any (like pattern)

variable {c : Char} {pattern text : List Char}

/-- The pattern `%` matches every text. -/
theorem like_any (text : List Char) : like ['%'] text = true := by
  simp [like]

/-- A character behind a backslash matches itself. -/
theorem like_escaped (c : Char) (pattern text : List Char) :
    like ('\\' :: c :: pattern) text = (Text.afterStart? [c] text).any (like pattern) := by
  rw [like, if_neg (by decide), if_neg (by decide), if_pos rfl]

/-- A character without a meaning of its own matches itself. -/
theorem like_cons (hany : c ≠ '%') (hone : c ≠ '_') (hescape : c ≠ '\\') :
    like (c :: pattern) text = (Text.afterStart? [c] text).any (like pattern) := by
  cases pattern <;> simp [like, hany, hone, hescape]

/-- Whether every pattern, of which there must be some, is matched by an item:
`array_contains_all_regex`. -/
def arrayContainsAllMatches (items patterns : List String) : Bool :=
  if patterns.isEmpty then false
  else patterns.all fun pattern => items.any fun item => like pattern.toList item.toList

/-! ## Conditions -/

/-- The texts of an array that holds nothing else. -/
def texts? : Content → Option (List String)
  | .arr items => items.mapM fun
    | .str s => some s
    | _ => none
  | _ => none

/-- A condition that the items of a column match patterns. An array of texts has to be made a
document first. -/
structure MatchTest where
  converts : Bool
  patterns : List String

namespace MatchTest

/-- The patterns that a clause has for the array in a column. -/
def read? (column : String) : Sql → Option MatchTest
  | [.text "array_contains_all_regex(", .text "to_jsonb(", .name named, .text ")", .text ", ",
      .bind (.text (some values)), .text "::jsonb", .text ")"] =>
    if named = column then ((Content.read? values).bind texts?).map (⟨true, ·⟩) else none
  | [.text "array_contains_all_regex(", .name named, .text ", ", .bind (.text (some values)),
      .text "::jsonb", .text ")"] =>
    if named = column then ((Content.read? values).bind texts?).map (⟨false, ·⟩) else none
  | _ => none

/-- What a condition comes to on what a column holds: nothing is known where it holds nothing, and
columns of other types are refused, which is as good. -/
def on (test : MatchTest) (others : Option Bool) : Held → Option Bool
  | .texts items =>
    if test.converts then some (arrayContainsAllMatches items test.patterns) else none
  | .document content =>
    match texts? content with
    | some items => some (arrayContainsAllMatches items test.patterns)
    | none => others
  | _ => none

end MatchTest

/-- What a clause comes to on a row with a column whose items may match patterns. -/
def matchesOn (column : String) (held : Held) (rest : Valuation) : Valuation := fun sql =>
  match MatchTest.read? column sql with
  | some test => test.on (rest sql) held
  | none => rest sql

variable {name s : String} {patterns : List String} {held : Held} {rest : Valuation} {sql : Sql}
  {test : MatchTest}

/-- A clause that asks for patterns comes to what the items of the column do. -/
theorem matchesOn_eq (h : MatchTest.read? name sql = some test) :
    matchesOn name held rest sql = test.on (rest sql) held := by
  rw [matchesOn, h]

/-- An array of texts has just these. -/
@[simp] theorem texts?_texts (texts : List String) :
    texts? (.arr (texts.map .str)) = some texts := by
  rw [texts?, List.mapM_map]
  exact (List.mapM_pure (m := Option)).trans (congrArg some (List.map_id texts))

/-- The clause on an array of texts, which is made a document first, asks for the patterns in its
text. -/
theorem MatchTest.read?_texts (name : String)
    (h : Content.read? s = some (.arr (patterns.map .str))) :
    read? name (Sql.text "array_contains_all_regex("
        ++ (Sql.text "to_jsonb(" ++ Sql.name name ++ Sql.text ")") ++ Sql.text ", "
        ++ Sql.bindJson s ++ Sql.text ")") = some ⟨true, patterns⟩ := by
  show (if name = name then ((Content.read? s).bind texts?).map (MatchTest.mk true) else none) = _
  rw [if_pos rfl, h, Option.bind_some, texts?_texts, Option.map_some]

/-- The clause on a document asks for the patterns in its text. -/
theorem MatchTest.read?_document (name : String)
    (h : Content.read? s = some (.arr (patterns.map .str))) :
    read? name (Sql.text "array_contains_all_regex(" ++ Sql.name name ++ Sql.text ", "
        ++ Sql.bindJson s ++ Sql.text ")") = some ⟨false, patterns⟩ := by
  show (if name = name then ((Content.read? s).bind texts?).map (MatchTest.mk false) else none) = _
  rw [if_pos rfl, h, Option.bind_some, texts?_texts, Option.map_some]

end ObjectStore.Engine
