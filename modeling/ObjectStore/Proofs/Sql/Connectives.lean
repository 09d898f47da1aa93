import ObjectStore.Proofs.Sql.ReadBack

/-!
# The boolean structure of a written condition

A condition is written with parentheses only where they are needed, so its structure is in the text
by the precedence of the connectives: `NOT` binds tighter than `AND`, and `AND` tighter than `OR`.
`Sql.parse` takes a text apart in this way, where each clause is one atom.

For that the clauses are left out. The outline of a condition has one bound value in the place of
each clause, so it is written as in `$1 AND ($2 OR NOT $3)`, and the condition itself is written as
its outline is, with the clauses filled in. The text of an outline is parsed into a formula that
comes to the same as the condition, whatever the clauses come to (`parse_outline`).

What makes it so is that a condition inside another connective is always an operand: a value, a
negation, or something in parentheses (`readsAsOperand`).
-/

namespace ObjectStore

namespace Sql

/-! ## Words -/

/-- A word of a condition whose clauses are left out. -/
inductive Word where
  | not
  | and
  | or
  | opening
  | closing
  | value (number : Nat)
  deriving Repr, DecidableEq

/-- The word that some letters spell; no letters are no word. -/
def spelled? : List Char → Option (List Word)
  | [] => some []
  | ['N', 'O', 'T'] => some [.not]
  | ['A', 'N', 'D'] => some [.and]
  | ['O', 'R'] => some [.or]
  | _ => none

/-- The word that a character is which is no letter; blanks are no words. -/
def mark? : Char → Option (List Word)
  | ' ' => some []
  | '(' => some [.opening]
  | ')' => some [.closing]
  | _ => none

/-- The words of some lexemes, after letters of a word that may go on. -/
def wordsFrom (letters : List Char) : List Lexeme → Option (List Word)
  | [] => spelled? letters
  | .symbol c :: rest =>
    if c.isAlpha then wordsFrom (letters ++ [c]) rest
    else do return (← spelled? letters) ++ (← mark? c) ++ (← wordsFrom [] rest)
  | .placeholder number :: rest => do
    return (← spelled? letters) ++ .value number :: (← wordsFrom [] rest)
  | .quoted .. :: _ => none

/-! ## Formulas -/

/-- A condition on atoms that are known by their numbers. -/
inductive Formula where
  | atom (number : Nat)
  | not (member : Formula)
  | and (left right : Formula)
  | or (left right : Formula)
  deriving Repr, DecidableEq

/-- What a formula comes to. -/
def Formula.truth (atoms : Nat → Option Bool) : Formula → Option Bool
  | .atom number => atoms number
  | .not member => Truth.not (member.truth atoms)
  | .and left right => Truth.and (left.truth atoms) (right.truth atoms)
  | .or left right => Truth.or (left.truth atoms) (right.truth atoms)

mutual

/-- Reads conjunctions with `OR` between them. -/
def disjunction : Nat → List Word → Option (Formula × List Word)
  | 0, _ => none
  | fuel + 1, words => do
    match ← conjunction fuel words with
    | (left, .or :: rest) =>
      let (right, rest) ← disjunction fuel rest
      return (.or left right, rest)
    | read => return read

/-- Reads operands with `AND` between them. -/
def conjunction : Nat → List Word → Option (Formula × List Word)
  | 0, _ => none
  | fuel + 1, words => do
    match ← operand fuel words with
    | (left, .and :: rest) =>
      let (right, rest) ← conjunction fuel rest
      return (.and left right, rest)
    | read => return read

/-- Reads an atom, an operand after `NOT`, or a disjunction in parentheses. -/
def operand : Nat → List Word → Option (Formula × List Word)
  | _ + 1, .value number :: rest => some (.atom number, rest)
  | fuel + 1, .not :: rest => do
    let (member, rest) ← operand fuel rest
    return (.not member, rest)
  | fuel + 1, .opening :: rest => do
    match ← disjunction fuel rest with
    | (member, .closing :: rest) => return (member, rest)
    | _ => none
  | _, _ => none

end

/-- The formula of a text. A word opens three levels at most: a disjunction, a conjunction and an
operand. -/
def parse (text : String) : Option Formula := do
  let words ← wordsFrom [] (← lex text)
  match ← disjunction (3 * words.length + 2) words with
  | (formula, []) => return formula
  | _ => none

/-! ## What is read at each level -/

/-- What stands after a whole disjunction: nothing, or a closing parenthesis. -/
def Ends (rest : List Word) : Prop := rest = [] ∨ ∃ others, rest = .closing :: others

/-- Words are read as an operand, whatever comes after them. -/
def IsOperand (words : List Word) (formula : Formula) : Prop :=
  ∀ fuel rest, 3 * words.length ≤ fuel → operand fuel (words ++ rest) = some (formula, rest)

/-- Words are read as a conjunction where a disjunction ends. -/
def IsConjunction (words : List Word) (formula : Formula) : Prop :=
  ∀ fuel rest, Ends rest → 3 * words.length + 1 ≤ fuel →
    conjunction fuel (words ++ rest) = some (formula, rest)

/-- Words are read as a disjunction where it ends. -/
def IsDisjunction (words : List Word) (formula : Formula) : Prop :=
  ∀ fuel rest, Ends rest → 3 * words.length + 2 ≤ fuel →
    disjunction fuel (words ++ rest) = some (formula, rest)

variable {words others : List Word} {formula left right : Formula}

/-- A bound value is an operand on its own. -/
theorem isOperand_value (number : Nat) : IsOperand [.value number] (.atom number) := by
  intro fuel rest hfuel
  cases fuel with
  | zero => simp at hfuel
  | succ fuel => rfl

/-- An operand after `NOT` is an operand. -/
theorem IsOperand.not (h : IsOperand words formula) : IsOperand (.not :: words) (.not formula) := by
  intro fuel rest hfuel
  cases fuel with
  | zero => simp at hfuel
  | succ fuel =>
    rw [List.length_cons] at hfuel
    rw [List.cons_append, operand, h fuel rest (by omega)]
    rfl

/-- A disjunction in parentheses is an operand, since a disjunction ends at a closing parenthesis.
-/
theorem IsDisjunction.parens (h : IsDisjunction words formula) :
    IsOperand (.opening :: (words ++ [.closing])) formula := by
  intro fuel rest hfuel
  cases fuel with
  | zero => simp at hfuel
  | succ fuel =>
    rw [List.length_cons, List.length_append, List.length_singleton] at hfuel
    have hends : Ends (.closing :: rest) := Or.inr ⟨rest, rfl⟩
    rw [List.cons_append, List.append_assoc, List.singleton_append, operand,
      h fuel _ hends (by omega)]
    rfl

/-- An operand on its own is a conjunction: what stands after a whole disjunction is no `AND`. -/
theorem IsOperand.isConjunction (h : IsOperand words formula) : IsConjunction words formula := by
  intro fuel rest hends hfuel
  cases fuel with
  | zero => simp at hfuel
  | succ fuel =>
    rw [conjunction, h fuel rest (by omega)]
    rcases hends with rfl | ⟨others, rfl⟩ <;> rfl

/-- An operand, `AND` and a conjunction are a conjunction. -/
theorem IsOperand.and (hleft : IsOperand words left) (hright : IsConjunction others right) :
    IsConjunction (words ++ .and :: others) (.and left right) := by
  intro fuel rest hends hfuel
  rw [List.length_append, List.length_cons] at hfuel
  cases fuel with
  | zero => simp at hfuel
  | succ fuel =>
    rw [conjunction, List.append_assoc, hleft fuel _ (by omega)]
    simp [hright fuel rest hends (by omega)]

/-- A conjunction on its own is a disjunction: what stands after a whole disjunction is no `OR`. -/
theorem IsConjunction.isDisjunction (h : IsConjunction words formula) :
    IsDisjunction words formula := by
  intro fuel rest hends hfuel
  cases fuel with
  | zero => simp at hfuel
  | succ fuel =>
    rw [disjunction, h fuel rest hends (by omega)]
    rcases hends with rfl | ⟨others, rfl⟩ <;> rfl

/-- What stands before `OR` is a conjunction of itself alone. -/
theorem IsOperand.conjunction_or (h : IsOperand words formula) {fuel : Nat}
    (hfuel : 3 * words.length + 1 ≤ fuel) (rest : List Word) :
    conjunction fuel (words ++ .or :: rest) = some (formula, .or :: rest) := by
  cases fuel with
  | zero => simp at hfuel
  | succ fuel =>
    rw [conjunction, h fuel _ (by omega)]
    rfl

/-- An operand, `OR` and a disjunction are a disjunction. -/
theorem IsOperand.or (hleft : IsOperand words left) (hright : IsDisjunction others right) :
    IsDisjunction (words ++ .or :: others) (.or left right) := by
  intro fuel rest hends hfuel
  rw [List.length_append, List.length_cons] at hfuel
  cases fuel with
  | zero => simp at hfuel
  | succ fuel =>
    rw [disjunction, List.append_assoc, List.cons_append, hleft.conjunction_or (by omega)]
    simp [hright fuel rest hends (by omega)]

end Sql

open Sql

/-! ## The words of a fragment -/

/-- The fixed texts that the clauses of a condition stand between. -/
def wordTexts : List (String × Word) :=
  [("NOT ", .not), (" AND ", .and), (" OR ", .or), ("(", .opening), (")", .closing)]

/-- The word that a mark is. -/
def Mark.word? : Mark → Option Word
  | .text s => wordTexts.lookup s
  | .placeholder number => some (.value number)
  | .name _ | .literal _ => none

/-- The lexemes of one of the fixed texts are read as its word, whatever comes after them. -/
theorem wordsFrom_text {s : String} {word : Word} (h : wordTexts.lookup s = some word)
    (rest : List Lexeme) :
    wordsFrom [] ((Mark.text s).lexemes ++ rest) = (wordsFrom [] rest).map (word :: ·) := by
  obtain ⟨before, after, heq, _⟩ := List.lookup_eq_some_iff.mp h
  have hmem : (s, word) ∈ wordTexts := by simp [heq]
  -- the fixed texts hold no digits and no quotes, so each character is a symbol
  have hsymbols : ∀ entry ∈ wordTexts,
      (Mark.text entry.1).lexemes = entry.1.toList.map .symbol := by
    simp only [wordTexts, List.forall_mem_cons]
    exact ⟨rfl, rfl, rfl, rfl, rfl, fun _ h => (List.not_mem_nil h).elim⟩
  rw [hsymbols _ hmem]
  simp only [wordTexts, List.mem_cons, Prod.mk.injEq, List.not_mem_nil, or_false] at hmem
  rcases hmem with ⟨rfl, rfl⟩ | ⟨rfl, rfl⟩ | ⟨rfl, rfl⟩ | ⟨rfl, rfl⟩ | ⟨rfl, rfl⟩ <;>
    cases hrest : wordsFrom [] rest <;> simp [wordsFrom, spelled?, mark?, hrest]

/-- The words of marks that are words are read off their lexemes. -/
theorem wordsFrom_lexemes {marks : List Mark} {words : List Word}
    (h : marks.map Mark.word? = words.map some) :
    wordsFrom [] (marks.flatMap Mark.lexemes) = some words := by
  induction marks generalizing words with
  | nil =>
    obtain rfl : words = [] := by simpa using h.symm
    rfl
  | cons mark rest ih =>
    cases words with
    | nil => cases h
    | cons word others =>
      obtain ⟨hword, hrest⟩ := List.cons.inj h
      rw [List.flatMap_cons]
      cases mark with
      | text s => rw [wordsFrom_text hword, ih hrest, Option.map_some]
      | placeholder number =>
        obtain rfl := Option.some.inj hword
        simp [Mark.lexemes, wordsFrom, spelled?, ih hrest]
      | name s | literal s => cases hword

/-- The words of a fragment whose values are numbered from `index`. -/
def Sql.Spells (index : Nat) (sql : Sql) (words : List Word) : Prop :=
  (sql.number index).map Mark.word? = words.map some

namespace Sql.Spells

variable {index : Nat} {a b sql : Sql} {words others : List Word} {s : String} {word : Word}

theorem append (ha : Spells index a words) (hb : Spells (index + a.bindCount) b others) :
    Spells index (a ++ b) (words ++ others) := by
  unfold Spells at ha hb ⊢
  rw [number_append, List.map_append, List.map_append, ha, hb]

theorem text (index : Nat) (h : wordTexts.lookup s = some word) :
    Spells index (Sql.text s) [word] :=
  congrArg (fun read => [read]) h

theorem bind (index : Nat) (value : Param) : Spells index (Sql.bind value) [.value index] := rfl

theorem parens (h : Spells index sql words) :
    Spells index sql.parens (.opening :: (words ++ [.closing])) :=
  ((text index rfl).append h).append (text _ rfl)

end Sql.Spells

/-- A fragment is parsed as its words are read. -/
theorem parse_render {sql : Sql} {q : List Quote} {index : Nat} {words : List Word}
    {formula : Formula} (hreads : Reads sql q) (hspells : Spells index sql words)
    (h : IsDisjunction words formula) : parse (sql.render index) = some formula := by
  have hlex : lex (sql.render index) = some ((sql.number index).flatMap Mark.lexemes) :=
    (hreads.readBack (Mark.spell_number index sql)).lexed
  have hread := h _ [] (Or.inl rfl) (Nat.le_refl _)
  rw [List.append_nil] at hread
  simp [parse, hlex, wordsFrom_lexemes hspells, hread]

/-! ## Outlines -/

namespace Predicate

/-- Every connective of a condition has members. -/
inductive IsFull : Predicate → Prop
  | clause (sql : Sql) : IsFull (.clause sql)
  | all {members : List Predicate} (hne : members ≠ []) (h : ∀ member ∈ members, IsFull member) :
    IsFull (.all members)
  | any {members : List Predicate} (hne : members ≠ []) (h : ∀ member ∈ members, IsFull member) :
    IsFull (.any members)
  | not {member : Predicate} (h : IsFull member) : IsFull (.not member)

@[simp] theorem isFull_clause (sql : Sql) : IsFull (clause sql) := .clause sql

@[simp] theorem isFull_all {members : List Predicate} :
    IsFull (all members) ↔ members ≠ [] ∧ ∀ member ∈ members, IsFull member := by
  constructor
  · intro h
    cases h with
    | all hne h => exact ⟨hne, h⟩
  · rintro ⟨hne, h⟩
    exact .all hne h

@[simp] theorem isFull_any {members : List Predicate} :
    IsFull (any members) ↔ members ≠ [] ∧ ∀ member ∈ members, IsFull member := by
  constructor
  · intro h
    cases h with
    | any hne h => exact ⟨hne, h⟩
  · rintro ⟨hne, h⟩
    exact .any hne h

@[simp] theorem isFull_not {member : Predicate} : IsFull (not member) ↔ IsFull member := by
  constructor
  · intro h
    cases h with
    | not h => exact h
  · intro h
    exact .not h

/-- What stands in the place of a clause. -/
def blank : Sql := Sql.bind (.text none)

mutual

/-- A condition with a bound value in the place of each clause. -/
def outline : Predicate → Predicate
  | .clause _ => .clause blank
  | .all members => .all (outlines members)
  | .any members => .any (outlines members)
  | .not member => .not (outline member)

def outlines : List Predicate → List Predicate
  | [] => []
  | member :: rest => outline member :: outlines rest

end

theorem outlines_eq_map (members : List Predicate) : outlines members = members.map outline := by
  induction members with
  | nil => rfl
  | cons member rest ih => rw [outlines, ih, List.map_cons]

variable {p : Predicate} {members : List Predicate} {index : Nat}

@[simp] theorem isClause_outline (p : Predicate) : p.outline.isClause = p.isClause := by
  cases p <;> rw [outline] <;> rfl

/-- What holds of a condition if it holds of its parts holds of all conditions. -/
theorem members_induction {motive : Predicate → Prop} (clause : ∀ sql, motive (.clause sql))
    (all : ∀ members, (∀ member ∈ members, motive member) → motive (.all members))
    (any : ∀ members, (∀ member ∈ members, motive member) → motive (.any members))
    (not : ∀ member, motive member → motive (.not member)) : ∀ p, motive p
  | .clause sql => clause sql
  | .all members => all members fun member _ => members_induction clause all any not member
  | .any members => any members fun member _ => members_induction clause all any not member
  | .not member => not member (members_induction clause all any not member)

/-- The outline of a condition has as many clauses as the condition. -/
theorem clauses_outline (p : Predicate) : p.outline.clauses = p.clauses.map fun _ => blank := by
  induction p using members_induction with
  | clause sql => simp [outline]
  | all members ih | any members ih =>
    simp only [outline, outlines_eq_map, clauses_all, clauses_any, List.flatMap_map,
      List.map_flatMap]
    exact List.flatMap_congr ih
  | not member ih => simpa [outline] using ih

/-- The text of an outline holds no quotes, as its clauses are bound values. -/
theorem reads_outline (p : Predicate) (nested : Bool) : Reads (p.outline.toSql nested) [] := by
  refine reads_toSql ?_ nested
  rw [clauses_outline]
  constructor
  · intro part hpart
    obtain ⟨_, _, rfl⟩ := List.mem_map.mp hpart
    rfl
  · rw [List.flatMap_map]
    exact List.flatMap_eq_nil_iff.mpr fun _ _ => rfl

theorem params_grouped (inParens : Bool) (sql : Sql) :
    (grouped inParens sql).params = sql.params := by
  cases inParens <;> simp [grouped, Sql.parens]

/-- Members with a word between them bind what their clauses bind, in their order. -/
theorem params_membersToSql (word : String)
    (h : ∀ member ∈ members, (member.toSql true).params = member.clauses.flatMap Sql.params) :
    (membersToSql word members).params = (members.flatMap clauses).flatMap Sql.params := by
  induction members with
  | nil => rw [membersToSql]; rfl
  | cons member rest ih =>
    have hmember := h member List.mem_cons_self
    have hrest := ih fun m hm => h m (List.mem_cons_of_mem _ hm)
    rw [List.flatMap_cons, List.flatMap_append, ← hmember, ← hrest]
    cases rest with
    | nil => rw [membersToSql, membersToSql]; simp
    | cons next others => rw [membersToSql]; simp

/-- A condition binds what its clauses bind, in their order. -/
theorem params_toSql (p : Predicate) (nested : Bool) :
    (p.toSql nested).params = p.clauses.flatMap Sql.params := by
  induction p using members_induction generalizing nested with
  | clause sql => rw [toSql]; simp
  | all members ih | any members ih =>
    rw [toSql, params_grouped, params_membersToSql _ fun member hm => ih member hm true]
    simp
  | not member ih => rw [toSql, Sql.params_append, params_grouped, ih]; simp

/-- The outline of a condition binds one value for each clause. -/
theorem bindCount_outline (p : Predicate) (nested : Bool) :
    (p.outline.toSql nested).bindCount = p.clauses.length := by
  rw [Sql.bindCount, params_toSql, clauses_outline, List.flatMap_map]
  simp [blank]

end Predicate

/-! ## Clauses in their places -/

/-- A fragment with other fragments in the places of its values, one after another. -/
def Sql.fill : List Sql → Sql → Sql
  | _, [] => []
  | parts, .bind _ :: rest => parts.headD [] ++ fill parts.tail rest
  | parts, token :: rest => token :: fill parts rest

/-- The values of the second fragment are filled with the parts that the first one left. -/
theorem Sql.fill_append (parts : List Sql) (a b : Sql) :
    fill parts (a ++ b) = fill parts a ++ fill (parts.drop a.bindCount) b := by
  induction a generalizing parts with
  | nil => simp [fill, bindCount, params]
  | cons token rest ih =>
    rw [List.cons_append, bindCount_cons]
    cases token with
    | bind value =>
      rw [fill, fill, ih, List.append_assoc, Token.width, ← List.drop_drop, List.drop_one]
    | text s | name s | literal s => simp [fill, ih, Token.width]

@[simp] theorem Sql.fill_text (parts : List Sql) (s : String) :
    fill parts (Sql.text s) = Sql.text s := rfl

@[simp] theorem Sql.bindCount_text (s : String) : (Sql.text s).bindCount = 0 := rfl

namespace Predicate

variable {p : Predicate} {members : List Predicate}

theorem fill_grouped (parts : List Sql) (inParens : Bool) (sql : Sql) :
    Sql.fill parts (grouped inParens sql) = grouped inParens (Sql.fill parts sql) := by
  cases inParens with
  | false => rfl
  | true => simp [grouped, Sql.parens, Sql.fill_append]

/-- Members are filled one after another: each takes the clauses that it has, and leaves the others.
-/
theorem fill_membersToSql (word : String) (more : List Sql)
    (h : ∀ member ∈ members, ∀ more : List Sql,
      Sql.fill (member.clauses ++ more) (member.outline.toSql true) = member.toSql true) :
    Sql.fill (members.flatMap clauses ++ more) (membersToSql word (members.map outline))
      = membersToSql word members := by
  induction members with
  | nil => rw [List.map_nil, membersToSql]; rfl
  | cons member rest ih =>
    have hmember := h member List.mem_cons_self
    have hcount := bindCount_outline member true
    have hrest := ih fun m hm => h m (List.mem_cons_of_mem _ hm)
    cases rest with
    | nil =>
      rw [List.map_singleton, membersToSql, membersToSql, List.flatMap_singleton]
      exact hmember more
    | cons next others =>
      rw [List.map_cons, List.map_cons, membersToSql, membersToSql, ← List.map_cons, ← hrest,
        List.flatMap_cons, List.append_assoc, Sql.fill_append, Sql.fill_append, hmember]
      simp [hcount]

/-- A condition is written as its outline is, with the clauses in the places of the values. -/
theorem fill_outline (p : Predicate) (nested : Bool) (more : List Sql) :
    Sql.fill (p.clauses ++ more) (p.outline.toSql nested) = p.toSql nested := by
  induction p using members_induction generalizing nested more with
  | clause sql => simp [outline, toSql, blank, Sql.bind, Sql.fill]
  | all members ih | any members ih =>
    rw [outline, toSql, toSql, fill_grouped, outlines_eq_map, List.length_map]
    simp only [clauses_all, clauses_any]
    rw [fill_membersToSql _ _ fun member hm => ih member hm true]
  | not member ih =>
    rw [outline, toSql, toSql, Sql.fill_append, fill_grouped, isClause_outline, clauses_not]
    simp [ih]

end Predicate

/-! ## Reading an outline -/

namespace Predicate

/-- A formula comes to the same as a condition wherever its atoms, numbered from `index`, come to
the same as the clauses. -/
def IsMeant (index : Nat) (formula : Formula) (p : Predicate) : Prop :=
  ∀ (v : Valuation) (atoms : Nat → Option Bool),
    (List.range' index p.clauses.length).map atoms = p.clauses.map v →
      formula.truth atoms = p.truth v

/-- A connective that has members. -/
inductive Connective where
  | and
  | or

namespace Connective

def text : Connective → String
  | .and => " AND "
  | .or => " OR "

def word : Connective → Word
  | .and => .and
  | .or => .or

def join : Connective → Formula → Formula → Formula
  | .and => .and
  | .or => .or

/-- The condition with some members. -/
def of : Connective → List Predicate → Predicate
  | .and => .all
  | .or => .any

/-- Words are read as a connective. -/
def IsRead : Connective → List Word → Formula → Prop
  | .and => IsConjunction
  | .or => IsDisjunction

variable {c : Connective} {words others : List Word} {formula left right : Formula}
  {p : Predicate} {members : List Predicate} {index : Nat}

theorem lookup_text (c : Connective) : wordTexts.lookup c.text = some c.word := by
  cases c <;> rfl

/-- An operand alone is read as either connective. -/
theorem isRead_of_isOperand (h : IsOperand words formula) : c.IsRead words formula := by
  cases c with
  | and => exact h.isConjunction
  | or => exact h.isConjunction.isDisjunction

/-- An operand, the word of a connective and more that is read as this connective are read as it. -/
theorem IsRead.cons (hleft : IsOperand words left) (hright : c.IsRead others right) :
    c.IsRead (words ++ c.word :: others) (c.join left right) := by
  cases c with
  | and => exact hleft.and hright
  | or => exact hleft.or hright

/-- What is read as either connective is read as a disjunction. -/
theorem IsRead.isDisjunction (h : c.IsRead words formula) : IsDisjunction words formula := by
  cases c with
  | and => exact IsConjunction.isDisjunction h
  | or => exact h

@[simp] theorem clauses_of (c : Connective) (members : List Predicate) :
    (c.of members).clauses = members.flatMap clauses := by
  cases c <;> simp [of]

/-- A connective with one member means what this does. -/
theorem isMeant_singleton (h : IsMeant index formula p) : IsMeant index formula (c.of [p]) := by
  intro v atoms hatoms
  rw [clauses_of, List.flatMap_singleton] at hatoms
  rw [h v atoms hatoms]
  cases c <;> simp [of, truth, truthOfAll, truthOfAny]

/-- A connective with one more member joins what this means to what the others mean. -/
theorem isMeant_cons (hleft : IsMeant index left p)
    (hright : IsMeant (index + p.clauses.length) right (c.of members)) :
    IsMeant index (c.join left right) (c.of (p :: members)) := by
  intro v atoms hatoms
  rw [clauses_of, List.flatMap_cons, List.length_append, ← List.range'_append_1, List.map_append,
    List.map_append] at hatoms
  obtain ⟨hfirst, hrest⟩ := List.append_inj hatoms (by simp)
  have hl := hleft v atoms hfirst
  have hr := hright v atoms (by rwa [clauses_of])
  cases c with
  | and =>
    rw [of, truth] at hr ⊢
    rw [join, Formula.truth, hl, hr, truthOfAll]
  | or =>
    rw [of, truth] at hr ⊢
    rw [join, Formula.truth, hl, hr, truthOfAny]

end Connective

/-- Inside another connective, the outline of a condition is read as an operand that means the
condition. -/
def ReadsAsOperand (p : Predicate) : Prop :=
  ∀ index, ∃ words formula, Spells index (p.outline.toSql true) words ∧ IsOperand words formula
    ∧ IsMeant index formula p

variable {p : Predicate} {members : List Predicate}

/-- The members of a connective, which are operands, are read as the connective. -/
theorem Connective.exists_isRead (c : Connective) (hne : members ≠ [])
    (h : ∀ member ∈ members, ReadsAsOperand member) (index : Nat) :
    ∃ words formula, Spells index (membersToSql c.text (members.map outline)) words
      ∧ c.IsRead words formula ∧ IsMeant index formula (c.of members) := by
  induction members generalizing index with
  | nil => exact absurd rfl hne
  | cons member rest ih =>
    obtain ⟨words, left, hspells, hleft, hmeans⟩ := h member List.mem_cons_self index
    cases rest with
    | nil =>
      refine ⟨words, left, ?_, isRead_of_isOperand hleft, isMeant_singleton hmeans⟩
      rwa [List.map_singleton, membersToSql]
    | cons next others =>
      have hcount : (member.outline.toSql true ++ Sql.text c.text).bindCount
          = member.clauses.length := by
        simp [bindCount_outline]
      obtain ⟨words', right, hspells', hright, hmeans'⟩ := ih (List.cons_ne_nil _ _)
        (fun m hm => h m (List.mem_cons_of_mem _ hm)) (index + member.clauses.length)
      refine ⟨words ++ c.word :: words', c.join left right, ?_, hright.cons hleft,
        isMeant_cons hmeans hmeans'⟩
      rw [← hcount] at hspells'
      have hall := (hspells.append (.text _ c.lookup_text)).append hspells'
      rw [List.append_assoc words, List.singleton_append] at hall
      rwa [List.map_cons, List.map_cons, membersToSql, ← List.map_cons]

/-- A connective inside another one stands in parentheses, or it has one member, which is an
operand. -/
theorem Connective.readsAsOperand (c : Connective) (hne : members ≠ [])
    (h : ∀ member ∈ members, ReadsAsOperand member) : ReadsAsOperand (c.of members) := by
  intro index
  have hwritten : (c.of members).outline.toSql true
      = grouped (1 < members.length) (membersToSql c.text (members.map outline)) := by
    cases c <;> simp [of, outline, toSql, outlines_eq_map, text]
  rw [hwritten]
  match members with
  | [only] =>
    obtain ⟨words, formula, hspells, hoperand, hmeans⟩ := h only List.mem_cons_self index
    refine ⟨words, formula, ?_, hoperand, isMeant_singleton hmeans⟩
    rwa [List.map_singleton, membersToSql]
  | first :: second :: rest =>
    obtain ⟨words, formula, hspells, hread, hmeans⟩ := c.exists_isRead hne h index
    exact ⟨_, formula, hspells.parens, hread.isDisjunction.parens, hmeans⟩

/-- Inside another connective every condition is an operand. -/
theorem readsAsOperand (h : p.IsFull) : ReadsAsOperand p := by
  induction h with
  | clause sql =>
    intro index
    refine ⟨[.value index], .atom index, Spells.bind index _, isOperand_value index, ?_⟩
    intro v atoms hatoms
    simpa [Formula.truth] using hatoms
  | all hne _ ih => exact Connective.and.readsAsOperand hne ih
  | any hne _ ih => exact Connective.or.readsAsOperand hne ih
  | @not member _ ih =>
    intro index
    obtain ⟨words, formula, hspells, hoperand, hmeans⟩ := ih index
    have hmeans' : IsMeant index (.not formula) (.not member) := by
      intro v atoms hatoms
      rw [clauses_not] at hatoms
      rw [Formula.truth, truth, hmeans v atoms hatoms]
    rw [outline, toSql, isClause_outline]
    cases hclause : member.isClause with
    | false =>
      exact ⟨_, _, (Spells.text index rfl).append hspells, hoperand.not, hmeans'⟩
    | true =>
      -- a clause stands in parentheses, as a disjunction of itself alone
      have hparens := hoperand.isConjunction.isDisjunction.parens
      exact ⟨_, _, (Spells.text index rfl).append hspells.parens, hparens.not, hmeans'⟩

/-- On its own, the outline of a condition is read as a disjunction that means the condition. -/
theorem exists_isDisjunction (h : p.IsFull) (index : Nat) :
    ∃ words formula, Spells index p.outline.sql words ∧ IsDisjunction words formula
      ∧ IsMeant index formula p := by
  obtain ⟨words, formula, hspells, hoperand, hmeans⟩ := readsAsOperand h index
  have hread := hoperand.isConjunction.isDisjunction
  -- only a conjunction is written differently on its own, without parentheses
  cases h with
  | clause | any | not => exact ⟨words, formula, hspells, hread, hmeans⟩
  | @all members hne hfull =>
    have hwritten : (all members).outline.sql = membersToSql " AND " (members.map outline) := by
      simp [outline, sql, toSql, outlines_eq_map, grouped]
    rw [hwritten]
    obtain ⟨words, formula, hspells, hread, hmeans⟩ := Connective.and.exists_isRead hne
      (fun member hm => readsAsOperand (hfull member hm)) index
    exact ⟨words, formula, hspells, hread.isDisjunction, hmeans⟩

/-- Writing a condition keeps its structure. The condition is written as its outline with the
clauses in the places of the values, and the text of the outline is parsed into a formula that comes
to the same as the condition, whatever the clauses come to. -/
theorem parse_outline (p : Predicate) (h : p.IsFull) (index : Nat) :
    p.sql = Sql.fill p.clauses p.outline.sql ∧
      ∃ formula, parse (p.outline.sql.render index) = some formula ∧
        ∀ v : Valuation,
          formula.truth (fun number => p.clauses[number - index]?.bind v) = p.truth v := by
  refine ⟨?_, ?_⟩
  · simpa [sql] using (fill_outline p false []).symm
  · obtain ⟨words, formula, hspells, hread, hmeans⟩ := exists_isDisjunction h index
    refine ⟨formula, parse_render (reads_outline p false) hspells hread, ?_⟩
    intro v
    refine hmeans v _ (List.ext_getElem (by simp) ?_)
    intro i hi _
    have hi : i < p.clauses.length := by simpa using hi
    simp [hi]

/-- A condition with connectives of one member and with negations of each kind. -/
def mixed : Predicate :=
  .all [.not (.any [.clause (.name "a"), .all [.clause (.name "b")]]), .any [.clause (.name "c")],
    .not (.clause (.name "d")), .any [.not (.all [.clause (.name "a"), .clause (.name "b")]),
      .not (.not (.all [.clause (.name "c")]))]]

/-- Only what needs parentheses stands in some; the condition is parsed as it was meant, even where
its clauses are unknown. -/
theorem parse_mixed :
    mixed.IsFull
      ∧ mixed.outline.sql.render 1
        = "NOT ($1 OR $2) AND $3 AND NOT ($4) AND (NOT ($5 AND $6) OR NOT NOT $7)"
      ∧ mixed.sql = Sql.fill mixed.clauses mixed.outline.sql
      ∧ ∃ formula, parse (mixed.outline.sql.render 1) = some formula ∧
        ∀ v : Valuation,
          formula.truth (fun number => mixed.clauses[number - 1]?.bind v) = mixed.truth v :=
  have hfull : mixed.IsFull := by simp [mixed]
  ⟨hfull, by decide, parse_outline mixed hfull 1⟩

end Predicate

end ObjectStore
