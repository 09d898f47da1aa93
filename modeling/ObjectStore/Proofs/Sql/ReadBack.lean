import ObjectStore.Proofs.Sql.Quotes

/-!
# Texts that are read back

The text of a statement is written from marks, which are the tokens of a fragment with numbers for
the placeholders. The numbers matter neither for where a reader sees quotes open and close nor for
what stands in them, so marks that spell a fragment are read back as the fragment is
(`Sql.Reads.readBack`).
-/

namespace ObjectStore

open Sql

/-- Marks are the tokens of a fragment, whatever their placeholders are numbered. -/
def Mark.Spell (marks : List Mark) (sql : Sql) : Prop :=
  List.Forall₂ (fun mark token => ∃ n, mark = Token.mark n token) marks sql

namespace Mark

variable {marks others : List Mark} {sql rest : Sql} {s : String} {params : List Param}

/-- A numbered fragment spells the fragment, from whatever number on. -/
theorem spell_number (index : Nat) (sql : Sql) : Spell (sql.number index) sql := by
  induction sql generalizing index with
  | nil => exact .nil
  | cons token rest ih => exact .cons ⟨index, rfl⟩ (ih _)

/-- What spells a fragment has its shape. -/
theorem Spell.shapes_eq (h : Spell marks sql) : marks.map Mark.shape = shapes sql := by
  induction h with
  | nil => rfl
  | @cons mark token _ _ hmark _ ih =>
    obtain ⟨n, rfl⟩ := hmark
    rw [List.map_cons, ih, shapes_cons]
    cases token <;> rfl

/-- What spells a fragment has its quoted parts. -/
theorem Spell.quotes_eq (h : Spell marks sql) : marks.filterMap Mark.quote? = quotes sql := by
  induction h with
  | nil => rfl
  | @cons mark token _ _ hmark _ ih =>
    obtain ⟨n, rfl⟩ := hmark
    rw [quotes] at ih ⊢
    cases token <;> simp [List.filterMap_cons, Token.mark, quote?, Token.quote?, ih]

/-! ### Values in place of their placeholders -/

/-- The value with a number, counted from one. -/
def valueAt (params : List Param) : Nat → Option Param
  | 0 => none
  | n + 1 => params[n]?

/-- The token that a mark is once its placeholder, if it is one, gives way to the value. -/
def fill (params : List Param) : Mark → Option Token
  | .text s => some (.text s)
  | .name s => some (.name s)
  | .literal s => some (.literal s)
  | .placeholder number => (valueAt params number).map .bind

/-- Marks that become a fragment with the values in place spell it. -/
theorem spell_of_fill (h : marks.map (fill params) = sql.map some) : Spell marks sql := by
  induction marks generalizing sql with
  | nil =>
    obtain rfl : sql = [] := by simpa using h.symm
    exact .nil
  | cons mark rest ih =>
    cases sql with
    | nil => cases h
    | cons token others =>
      obtain ⟨hmark, hrest⟩ := List.cons.inj h
      refine .cons ?_ (ih hrest)
      cases mark with
      | text s | name s | literal s => exact ⟨0, by rw [← Option.some.inj hmark]; rfl⟩
      | placeholder n =>
        obtain ⟨value, _, rfl⟩ := Option.map_eq_some_iff.mp hmark
        exact ⟨n, rfl⟩

/-- The values of a fragment stand where its numbers, from `index` on, look for them. -/
def Carries (params : List Param) (index : Nat) (sql : Sql) : Prop :=
  ∃ before after, params = before ++ sql.params ++ after ∧ index = before.length + 1

/-- Values that are there for two fragments are there for the first. -/
theorem Carries.left {index : Nat} (h : Carries params index (sql ++ rest)) :
    Carries params index sql := by
  obtain ⟨before, after, rfl, rfl⟩ := h
  exact ⟨before, rest.params ++ after, by simp, rfl⟩

/-- Values that are there for two fragments are there for the second, behind those of the first. -/
theorem Carries.right {index : Nat} (h : Carries params index (sql ++ rest)) :
    Carries params (index + sql.bindCount) rest := by
  obtain ⟨before, after, rfl, rfl⟩ := h
  exact ⟨before ++ sql.params, after, by simp, by simp [Sql.bindCount, Nat.add_right_comm]⟩

/-- A numbered fragment becomes itself again if its values are where they belong. -/
theorem fill_number {index : Nat} (h : Carries params index sql) :
    (sql.number index).map (fill params) = sql.map some := by
  induction sql generalizing index with
  | nil => rfl
  | cons token rest ih =>
    have hrest : Carries params (index + Sql.bindCount [token]) rest := Carries.right h
    have hwidth : Sql.bindCount [token] = token.width := by cases token <;> rfl
    rw [hwidth] at hrest
    rw [number, List.map_cons, List.map_cons, ih hrest]
    congr 1
    cases token with
    | text s | name s | literal s => rfl
    | bind value =>
      -- the value comes right after those of the fragments before this one
      obtain ⟨before, after, rfl, rfl⟩ := h
      have hvalue : (before ++ params (.bind value :: rest) ++ after)[before.length]?
          = some value := by simp [params, Token.param?]
      simp only [Token.mark, fill, valueAt, hvalue, Option.map_some]

end Mark

/-- The text of some marks is read as their lexemes, one mark after another, and so ends outside of
all quotes; the marks are fixed texts, placeholders and some quoted parts. -/
structure ReadBack (marks : List Mark) (q : List Quote) : Prop where
  lexed : lex (Mark.join marks) = some (marks.flatMap Mark.lexemes)
  fixed : ∀ s, .text s ∈ marks → s ∈ vocabulary
  quotes : marks.filterMap Mark.quote? = q

/-- The fixed texts of sound marks come from the vocabulary. -/
theorem Sql.Shape.mem_vocabulary_of_sound {e : Ending} {shapes : List Shape} {s : String}
    (h : sound e shapes = true) (hs : .text s ∈ shapes) : s ∈ vocabulary := by
  induction shapes generalizing e with
  | nil => exact (List.not_mem_nil hs).elim
  | cons shape rest ih =>
    rw [sound_cons, Bool.and_eq_true] at h
    rcases List.mem_cons.mp hs with rfl | hs
    · cases e <;> simp_all [follows]
    · exact ih h.2 hs

/-- Marks that spell a fragment are read back as it is. -/
theorem Sql.Reads.readBack {sql : Sql} {q : List Quote} {marks : List Mark} (h : Reads sql q)
    (hspell : Mark.Spell marks sql) : ReadBack marks q := by
  have hsound : Shape.sound .plain (marks.map Mark.shape) = true := by
    rw [hspell.shapes_eq]
    exact h.sound
  refine ⟨lex_join hsound, ?_, hspell.quotes_eq.trans h.quotes_eq⟩
  intro s hs
  exact Shape.mem_vocabulary_of_sound hsound (List.mem_map_of_mem (f := Mark.shape) hs)

end ObjectStore

/-!
## The placeholders of a text

No fixed text has a placeholder in it, so the placeholders that are read in the text of sound marks
are those among the marks; and a numbered fragment has as many as it binds values, numbered one
after another.
-/

namespace ObjectStore

open Sql

/-- The number of a placeholder. -/
def Mark.placeholder? : Mark → Option Nat
  | .placeholder number => some number
  | .text _ | .name _ | .literal _ => none

/-- The numbers of the placeholders among some marks. -/
def Mark.placeholders (marks : List Mark) : List Nat := marks.filterMap Mark.placeholder?

/-- The numbers of the placeholders among some lexemes. -/
def Lexeme.placeholders (lexemes : List Lexeme) : List Nat := lexemes.filterMap Lexeme.placeholder?

namespace Mark

variable {marks others : List Mark} {mark : Mark} {e : Ending} {s : String}

@[simp] theorem placeholders_nil : placeholders [] = [] := rfl

@[simp] theorem placeholders_append :
    placeholders (marks ++ others) = placeholders marks ++ placeholders others :=
  List.filterMap_append

@[simp] theorem placeholders_cons_text : placeholders (.text s :: marks) = placeholders marks := rfl

@[simp] theorem placeholders_cons_name : placeholders (.name s :: marks) = placeholders marks := rfl

/-- A numbered fragment has its numbers one after another. -/
theorem placeholders_number (index : Nat) (sql : Sql) :
    placeholders (sql.number index) = List.range' index sql.bindCount := by
  induction sql generalizing index with
  | nil => rfl
  | cons token rest ih =>
    simp only [placeholders] at ih ⊢
    rw [Sql.number, Sql.bindCount_cons, List.filterMap_cons, ih]
    cases token with
    | text s | name s | literal s => simp [Token.mark, placeholder?, Token.width]
    | bind value =>
      simp [Token.mark, placeholder?, Token.width, Nat.add_comm 1, List.range'_succ]

/-- A fixed text has no placeholders. -/
theorem placeholders_lexemes_text (h : s ∈ vocabulary) :
    Lexeme.placeholders (Mark.text s).lexemes = [] := by
  have hnone := (Bool.and_eq_true_iff.mp (isReadable_of_mem h)).2
  have hscan : (LexState.outside.scan s.toList).2.filterMap Lexeme.placeholder? = [] := by
    rw [List.filterMap_eq_nil_iff]
    intro lexeme hlexeme
    simpa using List.all_eq_true.mp hnone lexeme hlexeme
  have hallows := allows_scan_text h
  rw [Lexeme.placeholders, lexemes, LexState.lexFrom]
  generalize LexState.outside.scan s.toList = read at hscan hallows
  obtain ⟨state, out⟩ := read
  simp only at hscan hallows
  have hends : (Shape.text s).ending = .plain ∨ (Shape.text s).ending = .quote := by
    by_cases hquote : quoteEnders.contains s = true
    · exact Or.inr (if_pos hquote)
    · exact Or.inl (if_neg hquote)
  rcases hends with hend | hend <;> rw [hend] at hallows <;> cases state <;>
    simp_all [Ending.Allows, LexState.pending?, Lexeme.placeholder?]

/-- A mark that can follow an ending is read with its own placeholder only. -/
theorem placeholders_lexemes (h : mark.shape.follows e = true) :
    Lexeme.placeholders mark.lexemes = mark.placeholder?.toList := by
  cases mark with
  | text s => exact placeholders_lexemes_text (by cases e <;> simp_all [shape, Shape.follows])
  | name s | literal s | placeholder n => rfl

/-- Sound marks are read with their placeholders. -/
theorem placeholders_flatMap (h : Shape.sound e (marks.map Mark.shape) = true) :
    Lexeme.placeholders (marks.flatMap lexemes) = placeholders marks := by
  induction marks generalizing e with
  | nil => rfl
  | cons mark rest ih =>
    obtain ⟨hfollows, hrest⟩ := Bool.and_eq_true_iff.mp
      ((Shape.sound_cons mark.shape (rest.map Mark.shape)).symm.trans h)
    have hmark := placeholders_lexemes hfollows
    have hrest := ih hrest
    rw [Lexeme.placeholders] at hmark hrest ⊢
    rw [placeholders] at hrest ⊢
    rw [List.flatMap_cons, List.filterMap_append, hmark, hrest, List.filterMap_cons]
    cases mark.placeholder? <;> rfl

end Mark

/-- The placeholders in the text of marks that spell a fragment are those among the marks. -/
theorem Sql.Reads.lex_placeholders {sql : Sql} {q : List Quote} {marks : List Mark}
    (h : Reads sql q) (hspell : Mark.Spell marks sql) :
    ∃ lexemes, lex (Mark.join marks) = some lexemes ∧
      Lexeme.placeholders lexemes = Mark.placeholders marks := by
  have hsound : Shape.sound .plain (marks.map Mark.shape) = true := by
    rw [hspell.shapes_eq]
    exact h.sound
  exact ⟨_, lex_join hsound, Mark.placeholders_flatMap hsound⟩

end ObjectStore
