import Mathlib.Tactic.Tauto
import ObjectStore.Proofs.Sql.Lexer

/-!
# Texts that are read as they were meant

A statement is written from marks: fixed texts, quoted names and literals, and placeholders. Its
text is read back as these marks if no mark goes on with the one before it. Two quoted marks never
touch, nor does one touch a fixed text that ends in a quote, and no fixed text that starts with a
digit follows a placeholder: this is what `sound` checks, along the shapes of the marks.

All fixed texts are listed in `vocabulary`. What is needed of each of them is checked once, for the
whole list (`vocabulary_check`); everything else follows by induction on the marks (`lex_join`).
-/

namespace ObjectStore.Sql

/-! ## The fixed texts -/

/-- The texts of conditions. -/
def conditionTexts : List String :=
  [" AND ", " OR ", "NOT ", "(", ")", " IS NULL", " IS NOT NULL", ", ", "->", "->>", "LOWER(",
    ") = LOWER(", "CAST((", "to_jsonb(", "array_contains(", "array_contains_all(",
    "array_contains_all_regex(", "to_tsvector(", "::regconfig, ", ") @@ to_tsquery(",
    "ST_DistanceSphere(", "::geometry, ", "::geometry)", " <= ", " ASC", "POINT("]

/-- The signs that compare a column with an operand. -/
def signs : List String :=
  ["=", "<>", ">", "<", ">=", "<=", "&&", "@>", "<@", "~=", "~", "~*", "IN", "NOT IN"]

/-- The casts of operands. -/
def castTexts : List String :=
  ["::text", "::text[]", "::jsonb", "::jsonb <@ ", "::timestamptz", "::point", "::box", "::polygon",
    "::point <@ ", "::polygon @> "]

/-- The casts of texts at the end of a path. -/
def pathCasts : List String :=
  ["double precision", "boolean"].flatMap fun type =>
    signs.map fun sign => ") AS " ++ type ++ ") " ++ sign ++ " "

/-- The texts of statements on rows. -/
def rowTexts : List String :=
  ["SELECT row_to_json(t) AS \"_row\" FROM (SELECT ", ") AS t", "*", " FROM ", " WHERE ",
    " ORDER BY ", " DESC", " LIMIT ", " OFFSET ", "ts_rank_cd(to_tsvector(", "), to_tsquery(",
    "SELECT count(*) AS count FROM ",
    "SELECT reltuples AS approximate_row_count FROM pg_class WHERE relname = ",
    "SELECT DISTINCT to_jsonb(d.value) AS \"_value\" FROM (SELECT ", " AS value FROM ", ") AS d",
    "unnest(", "jsonb_array_elements(", "UPDATE ", " SET ", " IN (SELECT ", " LIMIT 1)",
    " RETURNING row_to_json(", "DELETE FROM ", "INSERT INTO ", " (", ") VALUES ("]

/-- The parts of a date that a pipeline can group by. -/
def dateParts : List String :=
  ["DAY", "DOW", "DOY", "ISODOW", "ISOYEAR", "HOUR", "MINUTE", "SECOND", "MILLISECONDS", "MONTH",
    "WEEK", "YEAR"]

/-- The texts of pipelines. -/
def pipelineTexts : List String :=
  ["SELECT row_to_json(a) AS \"_row\" FROM (SELECT ", ") AS a", " GROUP BY ", " AS ", "NULL",
    " AT TIME ZONE 'UTC')::integer", "COUNT(*)", "SUM(", "MAX(", "MIN(", "AVG("]
    ++ dateParts.map fun unit => "EXTRACT(" ++ unit ++ " FROM "

/-- The texts of assignments. -/
def assignmentTexts : List String :=
  [" = ", "COALESCE(", ", 0) + ", ", '\x7b\x7d'::text[])", ", '\x7b\x7d'::jsonb)", " || ", "), ",
    ")))", ", '[]'::jsonb), ", "jsonb_set(", " #- ", ", to_jsonb(COALESCE((", " #>> ",
    ")::double precision, 0) + ", "))"]
    ++ (["array_add", "array_add_unique", "array_remove"].flatMap fun function =>
      [function ++ "(COALESCE(", "ARRAY(SELECT jsonb_array_elements_text(" ++ function
        ++ "(to_jsonb("])

/-- The fixed texts that can follow everything and leave nothing behind. -/
def joiningTexts : List String :=
  conditionTexts ++ signs.map (fun sign => " " ++ sign ++ " ") ++ castTexts ++ pathCasts ++ rowTexts
    ++ pipelineTexts ++ assignmentTexts

/-- The fixed texts that end in a quote. -/
def quoteEnders : List String := ["), 32) AS \"score\"", ") AS \"_row\""]

/-- The fixed texts that start with a digit. -/
def digitStarters : List String := ["1 = 1", "1 = 2"]

/-- All fixed texts. -/
def vocabulary : List String := joiningTexts ++ digitStarters ++ quoteEnders

/-- What is needed of a fixed text: it starts with no quote, with a digit only if it is listed so,
it leaves a reader outside, after a quote only if it is listed so, and it has no placeholder. -/
def isReadable (s : String) : Bool :=
  let read := LexState.outside.scan s.toList
  (s.toList.head?.any fun c => c != '"' && c != '\'' && (c.isDigit == digitStarters.contains s))
    && (match read.1 with
      | .outside => !quoteEnders.contains s
      | .atQuote .. => quoteEnders.contains s
      | _ => false)
    && read.2.all fun lexeme => lexeme.placeholder?.isNone

/-- Every fixed text is readable. -/
theorem vocabulary_check : vocabulary.all isReadable = true := by decide +kernel

/-- A fixed text of the vocabulary is readable. -/
theorem isReadable_of_mem {s : String} (h : s ∈ vocabulary) : isReadable s = true :=
  List.all_eq_true.mp vocabulary_check s h

/-- A fixed text that can follow everything and leaves nothing behind. -/
def Joins (s : String) : Prop := s ∈ joiningTexts

/-- No joining text starts with a digit or ends in a quote. -/
theorem joining_check :
    joiningTexts.all (fun s => !digitStarters.contains s && !quoteEnders.contains s) = true := by
  decide +kernel

section Joins

variable {s : String}

/-- A joining text is in the vocabulary. -/
theorem Joins.mem (h : Joins s) : s ∈ vocabulary :=
  List.mem_append_left _ (List.mem_append_left _ h)

/-- A joining text starts with no digit and ends in no quote. -/
theorem Joins.notMem (h : Joins s) : s ∉ digitStarters ∧ s ∉ quoteEnders := by
  simpa using List.all_eq_true.mp joining_check s h

/-- The texts of conditions join. -/
theorem joins_condition (h : s ∈ conditionTexts) : Joins s := by
  simp only [Joins, joiningTexts, List.mem_append]
  tauto

/-- A sign between blanks joins. -/
theorem joins_sign {sign : String} (h : sign ∈ signs) : Joins (" " ++ sign ++ " ") := by
  have hs := List.mem_map_of_mem (f := fun sign => " " ++ sign ++ " ") h
  simp only [Joins, joiningTexts, List.mem_append]
  tauto

theorem joins_cast (h : s ∈ castTexts) : Joins s := by
  simp only [Joins, joiningTexts, List.mem_append]
  tauto

theorem joins_pathCast (h : s ∈ pathCasts) : Joins s := by
  simp only [Joins, joiningTexts, List.mem_append]
  tauto

theorem joins_row (h : s ∈ rowTexts) : Joins s := by
  simp only [Joins, joiningTexts, List.mem_append]
  tauto

theorem joins_pipeline (h : s ∈ pipelineTexts) : Joins s := by
  simp only [Joins, joiningTexts, List.mem_append]
  tauto

theorem joins_assignment (h : s ∈ assignmentTexts) : Joins s := by
  simp only [Joins, joiningTexts, List.mem_append]
  tauto

end Joins

/-! ## Marks that follow one another -/

/-- What a mark leaves behind: nothing, a closing quote, or digits. -/
inductive Ending where
  | plain
  | quote
  | number
  deriving Repr, DecidableEq

/-- A mark as far as reading it goes. -/
inductive Shape where
  | text (s : String)
  | quoted
  | placeholder
  deriving Repr, DecidableEq

namespace Shape

/-- The ending that a mark leaves. -/
def ending : Shape → Ending
  | .text s => if quoteEnders.contains s then .quote else .plain
  | .quoted => .quote
  | .placeholder => .number

/-- Whether a mark is fixed text of the vocabulary, if it is text, and can follow what is left
behind. -/
def follows : Ending → Shape → Bool
  | .number, .text s => vocabulary.contains s && !digitStarters.contains s
  | _, .text s => vocabulary.contains s
  | .quote, .quoted => false
  | _, .quoted | _, .placeholder => true

/-- Whether marks can follow what is left behind and each other. -/
def sound : Ending → List Shape → Bool
  | _, [] => true
  | e, shape :: rest => shape.follows e && sound shape.ending rest

/-- What some marks leave behind. -/
def endOf : Ending → List Shape → Ending
  | e, [] => e
  | _, shape :: rest => endOf shape.ending rest

variable {e : Ending} {a b : List Shape}

/-- A joining text can follow everything. -/
theorem follows_of_joins {s : String} (h : Joins s) : (Shape.text s).follows e = true := by
  cases e <;> simp [follows, h.mem, h.notMem.1]

/-- A joining text leaves nothing behind. -/
theorem ending_of_joins {s : String} (h : Joins s) : (Shape.text s).ending = .plain := by
  simp [ending, h.notMem.2]

@[simp] theorem sound_nil : sound e [] = true := by cases e <;> rfl

@[simp] theorem endOf_nil : endOf e [] = e := by cases e <;> rfl

@[simp] theorem sound_cons (shape : Shape) (rest : List Shape) :
    sound e (shape :: rest) = (shape.follows e && sound shape.ending rest) := by cases e <;> rfl

@[simp] theorem endOf_cons (shape : Shape) (rest : List Shape) :
    endOf e (shape :: rest) = endOf shape.ending rest := by cases e <;> rfl

/-- Marks in a row are sound if the second can follow what the first leave behind. -/
@[simp] theorem sound_append : sound e (a ++ b) = (sound e a && sound (endOf e a) b) := by
  induction a generalizing e with
  | nil => simp
  | cons shape rest ih => simp [ih, Bool.and_assoc]

end Shape

end Sql

/-- A mark as far as reading it goes. -/
def Mark.shape : Mark → Sql.Shape
  | .text s => .text s
  | .name _ | .literal _ => .quoted
  | .placeholder _ => .placeholder

/-- A token as far as reading it goes. -/
def Token.shape : Token → Sql.Shape
  | .text s => .text s
  | .name _ | .literal _ => .quoted
  | .bind _ => .placeholder

namespace Sql

/-- The shapes of a fragment. -/
def shapes (sql : Sql) : List Shape := sql.map Token.shape

@[simp] theorem shapes_nil : shapes [] = [] := rfl

@[simp] theorem shapes_cons (token : Token) (rest : Sql) :
    shapes (token :: rest) = token.shape :: shapes rest := rfl

/-- Fragments in a row have the shapes of the first and then those of the second. -/
@[simp] theorem shapes_append (a b : Sql) : shapes (a ++ b) = shapes a ++ shapes b :=
  List.map_append

end Sql

/-! ## Reading marks -/

open Sql

/-- What a mark is read as. -/
def Mark.lexemes : Mark → List Lexeme
  | .text s => (LexState.outside.lexFrom s.toList).getD []
  | .name s => [.quoted .name s.toList]
  | .literal s => [.quoted .literal s.toList]
  | .placeholder number => [.placeholder number]

/-- All lexemes of a text; nothing if it ends inside quotes. -/
def Sql.lex (text : String) : Option (List Lexeme) := LexState.outside.lexFrom text.toList

/-- Whether a state is one that a reader can be in after something. -/
def Sql.Ending.Allows : Ending → LexState → Prop
  | .plain, .outside | .quote, .atQuote .. | .number, .number _ => True
  | _, _ => False

namespace Mark

variable {e : Ending} {mark : Mark} {st : LexState} {s : String}

/-- Every ending leaves a reader where its lexemes are complete. -/
theorem exists_pending (h : e.Allows st) : ∃ done, st.pending? = some done := by
  cases e <;> cases st <;> first
    | exact ⟨_, rfl⟩
    | exact h.elim

/-- What a fixed text starts with. -/
theorem exists_head (h : s ∈ vocabulary) : ∃ c rest, s.toList = c :: rest ∧ c ≠ '"' ∧ c ≠ '\''
    ∧ c.isDigit = digitStarters.contains s := by
  have hs := (Bool.and_eq_true_iff.mp (Bool.and_eq_true_iff.mp (isReadable_of_mem h)).1).1
  cases hlist : s.toList with
  | nil => simp [hlist] at hs
  | cons c rest => exact ⟨c, rest, rfl, by simpa [hlist, and_assoc] using hs⟩

/-- What a fixed text leaves a reader with. -/
theorem allows_scan_text (h : s ∈ vocabulary) :
    (Shape.text s).ending.Allows (LexState.outside.scan s.toList).1 := by
  have hs := (Bool.and_eq_true_iff.mp (Bool.and_eq_true_iff.mp (isReadable_of_mem h)).1).2
  cases hstate : (LexState.outside.scan s.toList).1 <;> simp_all [Shape.ending, Ending.Allows]

/-- A mark starts with a quote, a dollar sign or a character of a fixed text. -/
theorem toList_written (mark : Mark) : ∃ rest, mark.written.toList = match mark with
    | .text s => s.toList
    | .name _ => '"' :: rest
    | .literal _ => '\'' :: rest
    | .placeholder _ => '$' :: rest := by
  cases mark with
  | text s => exact ⟨[], rfl⟩
  | name s => exact ⟨_, by simp [written, quotedName, quoted]; rfl⟩
  | literal s => exact ⟨_, by simp [written, quotedText, quoted]; rfl⟩
  | placeholder n => exact ⟨_, by simp [written]; rfl⟩

/-- What a mark starts with if it can follow an ending does not go on with that. -/
theorem clear_of_follows (h : e.Allows st) (hfollows : mark.shape.follows e = true)
    (rest : List Char) : st.Clear (mark.written.toList ++ rest) := by
  intro c hc
  obtain ⟨after, hwritten⟩ := toList_written mark
  rw [hwritten] at hc
  cases mark with
  | name s | literal s | placeholder n =>
    obtain rfl := Option.some.inj hc
    -- a quoted mark follows no quote, and a placeholder starts with a sign that nothing goes on
    -- with
    cases e <;> cases st <;> first
      | rfl
      | exact h.elim
      | exact Bool.noConfusion hfollows
      | (rename_i kind _; cases kind <;> rfl)
  | text s =>
    -- a fixed text starts with no quote, and with a digit only where no placeholder is before it
    have hmem : s ∈ vocabulary := by cases e <;> simp_all [shape, Shape.follows]
    obtain ⟨d, text, hs, hname, hliteral, hdigit⟩ := exists_head hmem
    simp only [hs] at hc
    obtain rfl := Option.some.inj hc
    cases e <;> cases st <;> first
      | rfl
      | exact h.elim
      | skip
    case quote.atQuote kind _ => cases kind <;> simp [LexState.goesOn, QuoteKind.quote, *]
    case number.number n =>
      have hstart : digitStarters.contains s = false := by
        simpa using (Bool.and_eq_true_iff.mp hfollows).2
      rw [LexState.goesOn, hdigit, hstart]

/-- From outside, a mark is read up to what it leaves behind. -/
theorem scan_written (h : mark.shape.follows e = true) :
    mark.shape.ending.Allows (LexState.outside.scan mark.written.toList).1 := by
  cases mark with
  | name s => rw [written, LexState.scan_quotedName]; trivial
  | literal s => rw [written, LexState.scan_quotedText]; trivial
  | placeholder n => rw [written, LexState.scan_placeholder]; trivial
  -- what a fixed text leaves behind was checked with the vocabulary
  | text s => exact allows_scan_text (by cases e <;> simp_all [shape, Shape.follows])

/-- On its own, a mark is read as its lexemes. -/
theorem lexFrom_written (h : mark.shape.follows e = true) :
    LexState.outside.lexFrom mark.written.toList = some mark.lexemes := by
  cases mark with
  | name s =>
    simp only [LexState.lexFrom, written, LexState.scan_quotedName]
    rfl
  | literal s =>
    simp only [LexState.lexFrom, written, LexState.scan_quotedText]
    rfl
  | placeholder n =>
    simp only [LexState.lexFrom, written, LexState.scan_placeholder]
    rfl
  | text s =>
    obtain ⟨done, hdone⟩ := exists_pending (scan_written h)
    simp only [written] at hdone
    simp [written, lexemes, LexState.lexFrom, hdone]

/-- From a state that an ending allows, sound marks are read one by one. -/
theorem lexFrom_join {done : List Lexeme} {marks : List Mark} (h : e.Allows st)
    (hdone : st.pending? = some done) (hsound : Shape.sound e (marks.map Mark.shape) = true) :
    st.lexFrom (Mark.join marks).toList = some (done ++ marks.flatMap Mark.lexemes) := by
  induction marks generalizing e st done with
  | nil => simp [Mark.join, LexState.lexFrom, hdone]
  | cons mark rest ih =>
    obtain ⟨hfollows, hrest⟩ := Bool.and_eq_true_iff.mp
      ((Shape.sound_cons mark.shape (rest.map Mark.shape)).symm.trans hsound)
    -- the mark is read from outside, as it does not go on with what is pending
    have hends := scan_written hfollows
    obtain ⟨left, hleft⟩ := exists_pending hends
    have hmark := lexFrom_written hfollows
    rw [LexState.lexFrom, hleft, Option.map_some, Option.some_inj] at hmark
    have hjoin : (Mark.join (mark :: rest)).toList
        = mark.written.toList ++ (Mark.join rest).toList := String.toList_append
    rw [hjoin, LexState.lexFrom_of_clear hdone (clear_of_follows h hfollows _),
      LexState.lexFrom_append, ih hends hleft hrest, List.flatMap_cons, ← hmark]
    simp

end Mark

/-- The text of sound marks is read as their lexemes, mark by mark. -/
theorem Sql.lex_join {marks : List Mark}
    (h : Shape.sound .plain (marks.map Mark.shape) = true) :
    lex (Mark.join marks) = some (marks.flatMap Mark.lexemes) :=
  Mark.lexFrom_join (show Ending.plain.Allows .outside from trivial) rfl h

end ObjectStore
