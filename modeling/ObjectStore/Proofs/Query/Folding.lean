import ObjectStore.Proofs.Engine.Agreement
import ObjectStore.Proofs.Query.Leaves
import ObjectStore.Statement.Rows

/-!
# Comparing without regard to case

A compiler that ignores case differs from one that does not in one kind of leaf: the user name or
the email address of a user compared with a bare text. There it writes the comparison of the lower
cases, which binds the same value in a longer text; everywhere else it writes the same.

`Grows n` says of two fragments that they bind as many values and that the second is longer by `n`
characters at least, and that they are the same if `n` is zero. Connectives pass it on, so a query
with `n` such leaves grows by `n` (`agree_compileEntries`), and two filters have the same
condition just if there are none (`condition_eq_iff`).
-/

namespace ObjectStore

open Result (Agree)

/-! ## Fragments -/

namespace Sql

/-- Fragments in a row take the room of both; the second counts on from what the first binds. -/
theorem length_render_append (index : Nat) (a b : Sql) :
    (render index (a ++ b)).length
      = (render index a).length + (render (index + bindCount a) b).length := by
  rw [render_append, String.length_append]

theorem length_render_nil (index : Nat) : (render index []).length = 0 := rfl

/-- A token takes the room of its mark. -/
theorem length_render_cons (index : Nat) (token : Token) (rest : Sql) :
    (render index (token :: rest)).length
      = (token.mark index).written.length + (render (index + token.width) rest).length := by
  rw [render, number, Mark.join, List.foldr_cons, String.length_append]
  rfl

/-- Of two fragments that bind as many values, the second is longer by some number of characters at
least; they are the same if that is none. -/
structure Grows (n : Nat) (a b : Sql) : Prop where
  same : n = 0 → a = b
  bindCount : bindCount a = bindCount b
  length : ∀ index, (render index a).length + n ≤ (render index b).length

variable {n m : Nat} {a b c d : Sql}

theorem Grows.refl (a : Sql) : Grows 0 a a := ⟨fun _ => rfl, rfl, fun _ => Nat.le_refl _⟩

/-- Fragments in a row grow by the sum. -/
theorem Grows.append (h : Grows n a b) (h' : Grows m c d) : Grows (n + m) (a ++ c) (b ++ d) where
  same hzero := by rw [h.same (by omega), h'.same (by omega)]
  bindCount := by rw [bindCount_append, bindCount_append, h.bindCount, h'.bindCount]
  length index := by
    have hfirst := h.length index
    have hsecond := h'.length (index + Sql.bindCount a)
    rw [length_render_append, length_render_append, ← h.bindCount]
    omega

/-- What stands before and after a fragment does not shrink it. -/
theorem Grows.between (h : Grows n a b) (before after : Sql) :
    Grows n (before ++ a ++ after) (before ++ b ++ after) := by
  simpa using ((Grows.refl before).append h).append (Grows.refl after)

/-- Parentheses on both sides make no difference to growth. -/
theorem Grows.grouped (h : Grows n a b) (inParens : Bool) :
    Grows n (Predicate.grouped inParens a) (Predicate.grouped inParens b) := by
  cases inParens with
  | true => exact h.between (text "(") (text ")")
  | false => exact h

end Sql

/-! ## Predicates -/

namespace Predicate

/-- Of two predicates of one shape, the second is longer by some number of characters at least. -/
structure Grows (n : Nat) (p q : Predicate) : Prop where
  same : n = 0 → p = q
  isClause : p.isClause = q.isClause
  sql : ∀ nested, Sql.Grows n (p.toSql nested) (q.toSql nested)

/-- Of two lists of predicates, those of the second are longer by some number of characters at
least, all together. -/
inductive AllGrow : Nat → List Predicate → List Predicate → Prop
  | nil : AllGrow 0 [] []
  | cons {n m : Nat} {p q : Predicate} {members others : List Predicate} :
    Grows n p q → AllGrow m members others → AllGrow (n + m) (p :: members) (q :: others)

variable {n m : Nat} {p q : Predicate} {members others rest more : List Predicate}

theorem Grows.refl (p : Predicate) : Grows 0 p p := ⟨fun _ => rfl, rfl, fun _ => .refl _⟩

theorem AllGrow.refl (members : List Predicate) : AllGrow 0 members members := by
  induction members with
  | nil => exact .nil
  | cons p rest ih => exact .cons (.refl p) ih

theorem AllGrow.single (h : Grows n p q) : AllGrow n [p] [q] := .cons h .nil

/-- Lists in a row grow by the sum. -/
theorem AllGrow.append (h : AllGrow n members others) (h' : AllGrow m rest more) :
    AllGrow (n + m) (members ++ rest) (others ++ more) := by
  induction h with
  | nil => simpa using h'
  | cons hp _ ih => simpa [Nat.add_assoc] using AllGrow.cons hp ih

/-- Lists that grow by nothing are the same. -/
theorem AllGrow.same (h : AllGrow n members others) : n = 0 → members = others := by
  induction h with
  | nil => exact fun _ => rfl
  | cons hp _ ih => exact fun hzero => by rw [hp.same (by omega), ih (by omega)]

/-- Where there is one predicate at most, both are there or neither is. -/
theorem AllGrow.option {p? q? : Option Predicate} (h : AllGrow n p?.toList q?.toList) :
    (p? = none ∧ q? = none ∧ n = 0) ∨ ∃ p q, p? = some p ∧ q? = some q ∧ Grows n p q := by
  cases p? with
  | none =>
    cases q? with
    | none => cases h with | nil => exact .inl ⟨rfl, rfl, rfl⟩
    | some q => exact nomatch h
  | some p =>
    cases q? with
    | none => exact nomatch h
    | some q =>
      cases h with
      | cons hp hrest => cases hrest with | nil => exact .inr ⟨p, q, rfl, rfl, hp⟩

/-- Lists that grow have as many members. -/
theorem AllGrow.length_eq (h : AllGrow n members others) : members.length = others.length := by
  induction h with
  | nil => rfl
  | cons _ _ ih => rw [List.length_cons, List.length_cons, ih]

/-- Members with a word between them grow by what they grow together. -/
theorem AllGrow.membersToSql (h : AllGrow n members others) (word : String) :
    Sql.Grows n (membersToSql word members) (membersToSql word others) := by
  induction h with
  | nil => exact .refl _
  | @cons n m p q members others hp hrest ih =>
    cases hrest with
    | nil => exact hp.sql true
    | cons hnext hmore =>
      simpa [Predicate.membersToSql, Nat.add_assoc] using
        ((hp.sql true).append (.refl (Sql.text word))).append ih

/-- A conjunction grows with its members. -/
theorem AllGrow.all (h : AllGrow n members others) : Grows n (.all members) (.all others) where
  same hzero := by rw [h.same hzero]
  isClause := rfl
  sql nested := by
    rw [toSql, toSql, h.length_eq]
    exact (h.membersToSql " AND ").grouped _

/-- A disjunction grows with its members. -/
theorem AllGrow.any (h : AllGrow n members others) : Grows n (.any members) (.any others) where
  same hzero := by rw [h.same hzero]
  isClause := rfl
  sql nested := by
    rw [toSql, toSql, h.length_eq]
    exact (h.membersToSql " OR ").grouped _

/-- A negation grows with what it negates. -/
theorem Grows.not (h : Grows n p q) : Grows n (.not p) (.not q) where
  same hzero := by rw [h.same hzero]
  isClause := rfl
  sql nested := by
    rw [toSql, toSql, h.isClause]
    simpa using (Sql.Grows.refl (Sql.text "NOT ")).append ((h.sql true).grouped q.isClause)

/-- A connective passes growth on, whether it joins members or one of them stands for itself. -/
theorem AllGrow.joined {join? : List Predicate → Option Predicate}
    {connective : List Predicate → Predicate} (hnone : join? [] = none)
    (hone : ∀ p, join? [p] = some p)
    (hmany : ∀ p q rest, join? (p :: q :: rest) = some (connective (p :: q :: rest)))
    (hgrows : ∀ {n members others}, AllGrow n members others →
      Grows n (connective members) (connective others))
    (h : AllGrow n members others) : AllGrow n (join? members).toList (join? others).toList := by
  -- none, one and many members are written in three ways, each the same on both sides
  cases h with
  | nil => simpa [hnone] using AllGrow.nil
  | cons hp hrest =>
    cases hrest with
    | nil => simpa [hone] using AllGrow.single hp
    | cons hnext hmore =>
      simpa [hmany] using AllGrow.single (hgrows (.cons hp (.cons hnext hmore)))

theorem AllGrow.all? (h : AllGrow n members others) :
    AllGrow n (Predicate.all? members).toList (Predicate.all? others).toList :=
  h.joined rfl (fun _ => rfl) (fun _ _ _ => rfl) AllGrow.all

theorem AllGrow.any? (h : AllGrow n members others) :
    AllGrow n (Predicate.any? members).toList (Predicate.any? others).toList :=
  h.joined rfl (fun _ => rfl) (fun _ _ _ => rfl) AllGrow.any

theorem AllGrow.not (h : AllGrow n members others) :
    AllGrow n (members.map .not) (others.map .not) := by
  induction h with
  | nil => exact .nil
  | cons hp _ ih => exact .cons hp.not ih

/-- A combinator passes growth on. -/
theorem AllGrow.join? (h : AllGrow n members others) (combinator : Combinator) :
    AllGrow n (combinator.join? members).toList (combinator.join? others).toList := by
  cases combinator with
  | or => exact h.any?
  | and => exact h.all?
  | nor => simpa [Combinator.join?, Option.toList_map] using h.any?.not

end Predicate

/-! ## Queries -/

/-- Of two parts of a query that ask for the same order, the predicates of the second are longer by
some number of characters at least. -/
structure Compiled.Grows (n : Nat) (a b : Compiled) : Prop where
  predicates : Predicate.AllGrow n a.predicates b.predicates
  sorts : a.sorts = b.sorts

namespace Compiled

variable {n m : Nat} {a b a' b' : Compiled}

theorem Grows.refl (a : Compiled) : Grows 0 a a := ⟨.refl _, rfl⟩

/-- Parts of a query in a row grow by the sum. -/
theorem Grows.append (h : Grows n a b) (h' : Grows m a' b') :
    Grows (n + m) (a ++ a') (b ++ b') where
  predicates := h.predicates.append h'.predicates
  sorts := by rw [sorts_append, sorts_append, h.sorts, h'.sorts]

/-- The predicates of a branch are one condition. -/
theorem Grows.oneBranch (h : Grows n a b) :
    Grows n ⟨(Predicate.all? a.predicates).toList, a.sorts⟩
      ⟨(Predicate.all? b.predicates).toList, b.sorts⟩ :=
  ⟨h.predicates.all?, h.sorts⟩

/-- Parts of a query that grow by nothing are the same. -/
theorem Grows.same (h : Grows 0 a b) : a = b := by
  cases a
  cases b
  exact congr (congrArg Compiled.mk (h.predicates.same rfl)) h.sorts

end Compiled

namespace Compiler

variable {schema : Schema} {now : Timestamp}

/-- Whether a field is the name or the address of a user, with the bare text that it is to equal. -/
def isNamed (field : String × Json) : Bool :=
  (field.1 = "username" || field.1 = "email") && field.2.str?.isSome

/-- A bare text is compared by its value, with the name of a type after it at most. -/
theorem comparand_str (type : Option FieldType) (s : String) : ∃ value rest,
    FieldType.comparand type (.str s) = .bind value :: rest ∧ Sql.bindCount rest = 0
      ∧ ∀ index, (Sql.render index rest).length ≤ 13 := by
  have htext : ∀ (type : String) (index : Nat),
      (Sql.render index [.text type]).length = type.length := fun _ _ => by
    rw [Sql.length_render_cons, Sql.length_render_nil, Nat.add_zero]
    rfl
  unfold FieldType.comparand
  -- a date, a document, or a text of its own type
  split
  · exact ⟨_, [.text "::timestamptz"], rfl, rfl,
      fun index => Nat.le_trans (Nat.le_of_eq (htext _ index)) (by decide)⟩
  split
  · exact ⟨_, [.text "::jsonb"], rfl, rfl,
      fun index => Nat.le_trans (Nat.le_of_eq (htext _ index)) (by decide)⟩
  · exact ⟨_, [], rfl, rfl, fun _ => Nat.zero_le _⟩

/-- The name of a user in lower case takes more room than as it is. -/
theorem grows_equalsText {name : String} (hname : name = "username" ∨ name = "email") (s : String) :
    Predicate.Grows 1
      (equalsText ⟨schema, false, now⟩ (fieldRef ⟨schema, false, now⟩ name) s)
      (equalsText ⟨schema, true, now⟩ (fieldRef ⟨schema, true, now⟩ name) s) := by
  have hpath : Text.contains name "." = false := by rcases hname with rfl | rfl <;> decide
  have hfolds : ignoresCaseOf ⟨schema, true, now⟩ name = true := by
    rcases hname with rfl | rfl <;> rfl
  obtain ⟨value, rest, hcomparand, hcount, hlength⟩ := comparand_str (schema.field? name) s
  have hplain : equalsText ⟨schema, false, now⟩ (fieldRef ⟨schema, false, now⟩ name) s
      = .clause (.name name :: .text " = " :: .bind value :: rest) := by
    simp [equalsText, ignoresCaseOf, equalsScalar, fieldRef, hpath, FieldRef.compareWith,
      FieldRef.column, hcomparand, Sql.name, Sql.text]
  have hlower : equalsText ⟨schema, true, now⟩ (fieldRef ⟨schema, true, now⟩ name) s
      = .clause [.text "LOWER(", .name name, .text ") = LOWER(", .bind (.text (some s)),
        .text ")"] := by
    simp [equalsText, fieldRef, hpath, hfolds, FieldRef.column, Sql.name, Sql.text, Sql.bindText,
      Sql.bind]
  -- both bind one value, and the functions around it are longer than the longest cast
  rw [hplain, hlower]
  refine ⟨nofun, rfl, fun nested => ⟨nofun, ?_, ?_⟩⟩
  · simp [Predicate.toSql, Sql.bindCount_cons, Token.width, hcount]
    rfl
  · intro index
    have hrest := hlength (index + 1)
    have hwords : " = ".length = 3 ∧ "LOWER(".length = 6 ∧ ") = LOWER(".length = 10
        ∧ ")".length = 1 := by decide
    simp only [Predicate.toSql, Sql.length_render_cons, Sql.length_render_nil, Token.mark,
      Token.width, Mark.written, String.length_append, Nat.add_zero]
    omega

/-- A bare text asks that the field equal it. -/
theorem compileField_str (c : Compiler) (name s : String) :
    c.compileField name (.str s) = .ok (.ofPredicate (c.equalsText (c.fieldRef name) s)) := by
  rw [compileField, asksNothing_eq_false rfl]
  rfl

/-- A field that names no user compiles to the same with and without regard to case. -/
theorem compileField_eq_of_not_named {name : String} {value : Json}
    (h : isNamed (name, value) = false) :
    compileField ⟨schema, true, now⟩ name value = compileField ⟨schema, false, now⟩ name value := by
  cases value with
  | str s =>
    have hfolds : ignoresCaseOf ⟨schema, true, now⟩ name = false := by
      simpa [isNamed, ignoresCaseOf, Json.str?] using h
    rw [compileField_str, compileField_str, equalsText, equalsText]
    exact congrArg _ (congrArg _ (if_neg (by simp [fieldRef, hfolds])))
  | obj fields =>
    simp only [compileField, Constraint.ofJson]
    cases Operator.ofObject fields <;> rfl
  | _ => rfl

/-- A field compiles to the same, unless it names a user. -/
theorem agree_compileField (field : String × Json) :
    Agree (Compiled.Grows ([field].countP isNamed))
      (compileField ⟨schema, false, now⟩ field.1 field.2)
      (compileField ⟨schema, true, now⟩ field.1 field.2) := by
  obtain ⟨name, value⟩ := field
  rw [List.countP_singleton]
  by_cases hnamed : isNamed (name, value) = true
  · rw [if_pos hnamed]
    simp only [isNamed, Bool.and_eq_true, Bool.or_eq_true, decide_eq_true_eq] at hnamed
    obtain ⟨hname, hstr⟩ := hnamed
    cases value with
    | str s =>
      rw [compileField_str, compileField_str]
      exact .ok ⟨.single (grows_equalsText hname s), rfl⟩
    | _ => exact nomatch hstr
  · rw [if_neg hnamed, compileField_eq_of_not_named (Bool.eq_false_iff.mpr hnamed)]
    cases compileField ⟨schema, false, now⟩ name value with
    | ok a => exact .ok (.refl a)
    | error e => exact .error e

mutual

/-- A query grows by one for every user that it names. -/
theorem agree_compileEntries (query : List (String × Json)) :
    Agree (Compiled.Grows ((leaves query).countP isNamed))
      (compileEntries ⟨schema, false, now⟩ query) (compileEntries ⟨schema, true, now⟩ query) := by
  match query with
  | [] =>
    rw [compileEntries, compileEntries]
    exact .ok (.refl _)
  | (key, value) :: rest =>
    -- a field is one leaf, a combinator has the leaves of its branches
    have hentry : Agree (Compiled.Grows ((leaves [(key, value)]).countP isNamed))
        (compileEntry ⟨schema, false, now⟩ (key, value))
        (compileEntry ⟨schema, true, now⟩ (key, value)) := by
      unfold compileEntry
      rw [leaves, leaves, List.append_nil]
      cases Combinator.ofKey? key with
      | none => exact agree_compileField (key, value)
      | some combinator => exact agree_compileClause combinator value
    rw [compileEntries_cons, compileEntries_cons, leaves_cons, List.countP_append]
    refine hentry.bind ?_
    intro _ _ hfirst
    refine (agree_compileEntries rest).bind ?_
    intro _ _ hrest
    exact .ok (hfirst.append hrest)

/-- A combinator grows by one for every user that its branches name. -/
theorem agree_compileClause (combinator : Combinator) (value : Json) :
    Agree (Compiled.Grows ((leavesOfClause value).countP isNamed))
      (compileClause ⟨schema, false, now⟩ combinator value)
      (compileClause ⟨schema, true, now⟩ combinator value) := by
  match value with
  | .arr branches =>
    rw [compileClause, compileClause, leavesOfClause]
    exact (agree_compileBranches combinator branches).bind fun _ _ h =>
      .ok ⟨h.predicates.join? combinator, h.sorts⟩
  | .null | .bool _ | .int _ | .double _ | .str _ | .obj _ => exact .error _

/-- Branches grow by one for every user that they name. -/
theorem agree_compileBranches (combinator : Combinator) (branches : List Json) :
    Agree (Compiled.Grows ((leavesOfBranches branches).countP isNamed))
      (compileBranches ⟨schema, false, now⟩ combinator branches)
      (compileBranches ⟨schema, true, now⟩ combinator branches) := by
  match branches with
  | [] =>
    rw [compileBranches, compileBranches]
    exact .ok (.refl _)
  | .obj fields :: rest =>
    rw [compileBranches, compileBranches, leavesOfBranches, List.countP_append]
    refine (agree_compileEntries fields).bind ?_
    intro _ _ hbranch
    refine (agree_compileBranches combinator rest).bind ?_
    intro _ _ hrest
    exact .ok (hbranch.oneBranch.append hrest)
  | .null :: _ | .bool _ :: _ | .int _ :: _ | .double _ :: _ | .str _ :: _ | .arr _ :: _ =>
    rw [compileBranches, compileBranches] <;> first | exact .error _ | simp

end

end Compiler

/-! ## Filters -/

/-- The condition of a filter as a statement sends it: its text and the values that are bound for
the filter. -/
def Filter.condition (filter : Filter) : String × List Param :=
  (Mark.join (RowStatement.whereMarks filter), filter.params)

namespace Compiler

/-- Whether a query asks, at any depth, that the name or the address of a user be a text. -/
def NamesUser (query : Object) : Prop := ∃ field ∈ leaves query, isNamed field = true

variable {schema : Schema} {now : Timestamp} {query : Object} {plain folded : Filter}

/-- A query grows by nothing if it names no user. -/
theorem countP_isNamed_eq_zero : (leaves query).countP isNamed = 0 ↔ ¬ NamesUser query := by
  simp [List.countP_eq_zero, NamesUser]

/-- With and without regard to case, a query is refused alike or compiles to filters of which the
second is longer by the number of users that the query names. -/
theorem agree_ofQuery (schema : Schema) (now : Timestamp) (query : Object) :
    Agree (fun plain folded => plain.sorts = folded.sorts ∧
        Predicate.AllGrow ((leaves query).countP isNamed) plain.predicate.toList
          folded.predicate.toList)
      (Filter.ofQuery ⟨schema, false, now⟩ query) (Filter.ofQuery ⟨schema, true, now⟩ query) :=
  (agree_compileEntries query).bind fun _ _ h => .ok ⟨h.sorts, h.predicates.all?⟩

/-- Whether a query is refused does not depend on case. -/
theorem isOk_ofQuery_eq (schema : Schema) (now : Timestamp) (query : Object) (ignoreCase : Bool) :
    (Filter.ofQuery ⟨schema, ignoreCase, now⟩ query).isOk
      = (Filter.ofQuery ⟨schema, false, now⟩ query).isOk := by
  cases ignoreCase with
  | false => rfl
  | true =>
    have h := agree_ofQuery schema now query
    generalize Filter.ofQuery ⟨schema, false, now⟩ query = plain at h
    generalize Filter.ofQuery ⟨schema, true, now⟩ query = folded at h
    cases h <;> rfl

/-- The filters of a query that compiles grow by the users that it names. -/
theorem grows_ofQuery (hplain : Filter.ofQuery ⟨schema, false, now⟩ query = .ok plain)
    (hfolded : Filter.ofQuery ⟨schema, true, now⟩ query = .ok folded) :
    plain.sorts = folded.sorts ∧ Predicate.AllGrow ((leaves query).countP isNamed)
      plain.predicate.toList folded.predicate.toList := by
  have h := agree_ofQuery schema now query
  rw [hplain, hfolded] at h
  cases h with
  | ok h => exact h

/-- A query that names no user keeps the same rows with and without regard to case. -/
theorem ofQuery_eq_of_not_namesUser
    (hplain : Filter.ofQuery ⟨schema, false, now⟩ query = .ok plain)
    (hfolded : Filter.ofQuery ⟨schema, true, now⟩ query = .ok folded)
    (hnames : ¬ NamesUser query) : plain = folded := by
  obtain ⟨hsorts, hgrows⟩ := grows_ofQuery hplain hfolded
  have hpredicate : plain.predicate = folded.predicate := by
    obtain ⟨hp, hq, -⟩ | ⟨p, q, hp, hq, hpq⟩ := hgrows.option
    · rw [hp, hq]
    · rw [hp, hq, hpq.same (countP_isNamed_eq_zero.mpr hnames)]
  cases plain
  cases folded
  exact congr (congrArg Filter.mk hpredicate) hsorts

/-- A query that names a user is written in a longer text if case is ignored. -/
theorem condition_ne_of_namesUser
    (hplain : Filter.ofQuery ⟨schema, false, now⟩ query = .ok plain)
    (hfolded : Filter.ofQuery ⟨schema, true, now⟩ query = .ok folded)
    (hnames : NamesUser query) : plain.condition ≠ folded.condition := by
  obtain ⟨-, hgrows⟩ := grows_ofQuery hplain hfolded
  have hcount : (leaves query).countP isNamed ≠ 0 :=
    fun hzero => countP_isNamed_eq_zero.mp hzero hnames
  have hlength : ∀ (filter : Filter) (p : Predicate), filter.predicate = some p →
      filter.condition.1.length = " WHERE ".length + (Sql.render 1 p.sql).length := by
    intro filter p hp
    rw [Filter.condition, RowStatement.whereMarks, hp, Option.isSome_some, if_pos rfl, Filter.marks,
      Filter.sql, hp]
    exact String.length_append _ _
  obtain ⟨-, -, hzero⟩ | ⟨p, q, hp, hq, hpq⟩ := hgrows.option
  · exact absurd hzero hcount
  -- the same condition would be as long
  · intro heq
    have hlonger := (hpq.sql false).length 1
    have hsame := congrArg (fun condition => condition.1.length) heq
    simp only [hlength plain p hp, hlength folded q hq, Predicate.sql] at hsame
    omega

/-- The condition of a query is the same with and without regard to case just if the query names no
user. -/
theorem condition_eq_iff (hplain : Filter.ofQuery ⟨schema, false, now⟩ query = .ok plain)
    (hfolded : Filter.ofQuery ⟨schema, true, now⟩ query = .ok folded) :
    plain.condition = folded.condition ↔ ¬ NamesUser query := by
  constructor
  · intro heq hnames
    exact condition_ne_of_namesUser hplain hfolded hnames heq
  · intro hnames
    rw [ofQuery_eq_of_not_namesUser hplain hfolded hnames]

end Compiler

end ObjectStore
