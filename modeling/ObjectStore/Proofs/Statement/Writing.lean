import ObjectStore.Proofs.Sql.Connectives
import ObjectStore.Proofs.Statement.Inline

/-!
# Writing with a counter

`Writer` writes a condition in one pass, as it walks down the tree. `Sql.render` does the same in
two steps: a condition is first one fragment, which is then numbered.

The two agree because a writer does to its state what one fragment does (`Writer.after`), and one
fragment after another does what both do together (`after_append`). So whatever a writer has
written before, the number it starts with is all that matters: the values of a condition become the
consecutive numbers from there on, in the order of the tree
(`Predicate.render_fill_consecutive`), and a filter that is written from another number differs in
its placeholders only (`Filter.clauseAt_eq_shift`).
-/

namespace ObjectStore

namespace Writer

/-! ## What a fragment does to a writer -/

/-- A writer after a fragment. -/
def after (w : Writer) (sql : Sql) : Writer where
  text := w.text ++ sql.render w.next
  next := w.next + sql.bindCount
  values := w.values ++ sql.params

variable {w : Writer}

/-- Nothing written leaves a writer as it was. -/
theorem after_nil (w : Writer) : w.after [] = w := by
  simp [after, Sql.render, Sql.number, Mark.join, Sql.bindCount, Sql.params]

/-- One fragment after another does what both do together: the second is numbered from where the
first stopped. -/
theorem after_append (w : Writer) (a b : Sql) : (w.after a).after b = w.after (a ++ b) := by
  simp [after, Sql.render_append, String.append_assoc, Nat.add_assoc]

/-- A fixed text binds nothing. -/
theorem push_eq_after (w : Writer) (s : String) : w.push s = w.after (Sql.text s) := by
  simp [push, after, Sql.text, Sql.render, Sql.number, Mark.join, Token.mark, Mark.written,
    Sql.bindCount, Sql.params, Token.param?]

/-- A writer does with a token what the fragment of this token does. -/
theorem token_eq_after (w : Writer) (token : Token) : w.token token = w.after [token] := by
  cases token with
  | bind value =>
    simp [Writer.token, bind, after, Sql.render, Sql.number, Mark.join, Token.mark, Mark.written,
      Sql.bindCount, Sql.params, Token.param?]
  | text s | name s | literal s =>
    simp [Writer.token, push, after, Sql.render, Sql.number, Mark.join, Token.mark, Mark.written,
      Sql.bindCount, Sql.params, Token.param?]

/-- A writer goes through a fragment token by token, which does what the fragment does at once. -/
theorem fragment_eq_after (w : Writer) (sql : Sql) : w.fragment sql = w.after sql := by
  induction sql generalizing w with
  | nil => exact (after_nil w).symm
  | cons token rest ih =>
    rw [fragment, List.foldl_cons, token_eq_after]
    exact (ih _).trans (after_append w [token] rest)

/-- Parentheses around what one fragment does are those around the fragment. -/
theorem wrapped_eq_after (w : Writer) (wrap : Bool) (sql : Sql) :
    ((w.pushIf wrap "(").after sql).pushIf wrap ")" = w.after (Predicate.grouped wrap sql) := by
  cases wrap with
  | false => rfl
  | true =>
    simp only [pushIf, if_true, push_eq_after, after_append]
    rfl

/-- The first member of a connective stands alone, and the word goes before each other one. -/
theorem membersToSql_cons (word : String) (item : Predicate) (rest : List Predicate) :
    Predicate.membersToSql word (item :: rest)
      = item.toSql true ++ rest.flatMap fun other => Sql.text word ++ other.toSql true := by
  induction rest generalizing item with
  | nil => simp [Predicate.membersToSql]
  | cons next rest ih => rw [Predicate.membersToSql, ih, List.flatMap_cons]; simp

variable {items : List Predicate}

/-- Members after the first one are written with the word before each. -/
theorem members_eq_after_of_pos (word : String) {index : Nat} (hindex : 0 < index)
    (h : ∀ item ∈ items, ∀ w : Writer, w.predicate true item = w.after (item.toSql true)) :
    w.members word index items
      = w.after (items.flatMap fun item => Sql.text word ++ item.toSql true) := by
  induction items generalizing w index with
  | nil => rw [members, List.flatMap_nil, after_nil]
  | cons item rest ih =>
    rw [members, pushIf, if_pos (by simpa using hindex), push_eq_after,
      h item List.mem_cons_self, after_append,
      ih (Nat.succ_pos _) fun item hitem => h item (List.mem_cons_of_mem _ hitem), after_append,
      List.flatMap_cons]

/-- Members are written with the word between them, if each is written as its fragment is. -/
theorem members_eq_after (word : String)
    (h : ∀ item ∈ items, ∀ w : Writer, w.predicate true item = w.after (item.toSql true)) :
    w.members word 0 items = w.after (Predicate.membersToSql word items) := by
  cases items with
  | nil => rw [members, Predicate.membersToSql, after_nil]
  | cons item rest =>
    rw [members, pushIf, if_neg (by simp), h item List.mem_cons_self,
      members_eq_after_of_pos word (Nat.succ_pos _) fun item hitem =>
        h item (List.mem_cons_of_mem _ hitem), after_append, membersToSql_cons]

/-- A writer does with a condition what the fragment of the condition does. -/
theorem predicate_eq_after (w : Writer) (p : Predicate) (nested : Bool) :
    w.predicate nested p = w.after (p.toSql nested) := by
  induction p using Predicate.members_induction generalizing w nested with
  | clause sql => rw [predicate, fragment_eq_after, Predicate.toSql]
  -- a member of a connective is written as one that is inside another condition
  | all items ih | any items ih =>
    simp only [predicate]
    rw [members_eq_after _ fun item hitem w => ih item hitem w true, wrapped_eq_after,
      Predicate.toSql]
  | not item ih =>
    rw [predicate, ih, wrapped_eq_after, push_eq_after, after_append, Predicate.toSql]

end Writer

/-! ## Numbers in the places of the values -/

namespace Sql

/-- Consecutive placeholders as fixed texts. -/
def consecutive (first count : Nat) : List Sql :=
  (List.range' first count).map fun number => text ("$" ++ toString number)

/-- The text of a fragment is the fragment with consecutive numbers in the places of its values. -/
theorem render_fill_consecutive (sql : Sql) (first index : Nat) :
    (fill (consecutive first sql.bindCount) sql).render index = sql.render first := by
  induction sql generalizing first with
  | nil => rfl
  | cons token rest ih =>
    have hrest := ih (first + token.width)
    rw [render] at hrest
    -- only a bound value takes a number, and leaves the next one to what comes after it
    cases token with
    | bind value =>
      rw [bindCount_cons, Token.width, Nat.add_comm, consecutive, List.range'_succ, List.map_cons,
        fill, List.headD_cons, List.tail_cons]
      exact congrArg (("$" ++ toString first) ++ ·) hrest
    | text s | name s | literal s =>
      simp only [bindCount_cons, Token.width, Nat.zero_add, fill]
      exact congrArg (_ ++ ·) hrest

end Sql

namespace Predicate

mutual

/-- How many values a condition binds. -/
def bindCount : Predicate → Nat
  | .clause sql => sql.bindCount
  | .all members => bindCounts members
  | .any members => bindCounts members
  | .not member => bindCount member

/-- How many values some conditions bind together. -/
def bindCounts : List Predicate → Nat
  | [] => 0
  | member :: rest => bindCount member + bindCounts rest

end

mutual

/-- A condition with other fragments in the places of its values, one after another in the order of
the tree. -/
def fill (parts : List Sql) : Predicate → Predicate
  | .clause sql => .clause (Sql.fill parts sql)
  | .all members => .all (fillMembers parts members)
  | .any members => .any (fillMembers parts members)
  | .not member => .not (fill parts member)

/-- Some conditions with other fragments in the places of their values. -/
def fillMembers (parts : List Sql) : List Predicate → List Predicate
  | [] => []
  | member :: rest => fill parts member :: fillMembers (parts.drop member.bindCount) rest

end

/-- The values of a condition in the order of the tree. -/
def values (p : Predicate) : List Param := p.clauses.flatMap Sql.params

variable {members : List Predicate}

/-- The numbers of values of some conditions add up. -/
theorem bindCounts_eq (h : ∀ member ∈ members, member.bindCount = member.values.length) :
    bindCounts members = ((members.flatMap clauses).flatMap Sql.params).length := by
  induction members with
  | nil => rfl
  | cons member rest ih =>
    rw [bindCounts, h member List.mem_cons_self,
      ih fun m hm => h m (List.mem_cons_of_mem _ hm), List.flatMap_cons, List.flatMap_append,
      List.length_append, values]

/-- A condition binds as many values as there are in its clauses. -/
theorem bindCount_eq (p : Predicate) : p.bindCount = p.values.length := by
  induction p using members_induction with
  | clause sql => rw [bindCount, values, clauses_clause, List.flatMap_singleton, Sql.bindCount]
  | all members ih | any members ih =>
    rw [bindCount, bindCounts_eq ih, values]
    simp
  | not member ih => rw [bindCount, ih, values, values, clauses_not]

/-- A fragment binds as many values as its condition, nested or not. -/
theorem bindCount_toSql (p : Predicate) (nested : Bool) :
    (p.toSql nested).bindCount = p.bindCount := by
  rw [Sql.bindCount, params_toSql, bindCount_eq, values]

@[simp] theorem length_fillMembers (parts : List Sql) (members : List Predicate) :
    (fillMembers parts members).length = members.length := by
  induction members generalizing parts with
  | nil => rfl
  | cons member rest ih => rw [fillMembers, List.length_cons, ih, List.length_cons]

@[simp] theorem isClause_fill (parts : List Sql) (p : Predicate) :
    (p.fill parts).isClause = p.isClause := by
  cases p <;> rw [fill] <;> rfl

/-- Members are filled as their fragments are, each with the parts that the ones before it left. -/
theorem membersToSql_fillMembers (word : String) (parts : List Sql)
    (h : ∀ member ∈ members, ∀ parts,
      (member.fill parts).toSql true = Sql.fill parts (member.toSql true)) :
    membersToSql word (fillMembers parts members)
      = Sql.fill parts (membersToSql word members) := by
  induction members generalizing parts with
  | nil => rw [fillMembers, membersToSql, Sql.fill]
  | cons member rest ih =>
    have hmember := h member List.mem_cons_self parts
    have hrest := ih (parts.drop member.bindCount) fun m hm => h m (List.mem_cons_of_mem _ hm)
    cases rest with
    | nil => rw [fillMembers, fillMembers, membersToSql, membersToSql, hmember]
    | cons next others =>
      rw [membersToSql, Sql.fill_append, Sql.fill_append, Sql.bindCount_append, bindCount_toSql,
        Sql.fill_text, Sql.bindCount_text, Nat.add_zero, ← hrest, ← hmember, fillMembers,
        fillMembers, membersToSql]

/-- A condition is filled as its fragment is. -/
theorem toSql_fill (p : Predicate) (parts : List Sql) (nested : Bool) :
    (p.fill parts).toSql nested = Sql.fill parts (p.toSql nested) := by
  induction p using members_induction generalizing parts nested with
  | clause sql => rw [fill, toSql, toSql]
  | all members ih | any members ih =>
    rw [fill, toSql, toSql, length_fillMembers, fill_grouped,
      membersToSql_fillMembers _ _ fun member hm parts => ih member hm parts true]
  | not member ih =>
    rw [fill, toSql, toSql, isClause_fill, Sql.fill_append, fill_grouped, ih]
    rfl

/-- The text of a condition is the condition with consecutive numbers in the places of its values,
in the order of the tree. -/
theorem render_fill_consecutive (p : Predicate) (first index : Nat) :
    (p.fill (Sql.consecutive first p.bindCount)).sql.render index = p.sql.render first := by
  rw [sql, toSql_fill, ← bindCount_toSql p false, Sql.render_fill_consecutive, sql]

end Predicate

/-! ## Filters -/

namespace WhereClause

/-- The same clause with its parts in another form. -/
def map {α β : Type} (f : α → β) (clause : WhereClause α) : WhereClause β where
  pattern := f clause.pattern
  values := clause.values
  sorts := clause.sorts.map f
  next := clause.next

end WhereClause

/-- A mark whose number, counted from one, is counted from `index` instead. -/
def Mark.shift (index : Nat) : Mark → Mark
  | .text s => .text s
  | .name s => .name s
  | .literal s => .literal s
  | .placeholder number => .placeholder (number + index - 1)

/-- A clause that was numbered from one and is numbered from `index` instead. -/
def WhereClause.shift (index : Nat) (clause : WhereClause (List Mark)) :
    WhereClause (List Mark) where
  pattern := clause.pattern.map (Mark.shift index)
  values := clause.values
  sorts := clause.sorts.map (List.map (Mark.shift index))
  next := clause.next + index - 1

/-- The clause of a filter whose placeholders are numbered from `index`. -/
def Filter.clauseAt (f : Filter) (index : Nat) : WhereClause (List Mark) where
  pattern := f.marks index
  values := f.params
  sorts := f.sortMarks index
  next := f.next index

namespace Filter

/-- Where counting starts is added to every number of a fragment. -/
theorem number_shift (sql : Sql) (before index : Nat) :
    (sql.number (before + 1)).map (Mark.shift index) = sql.number (before + index) := by
  induction sql generalizing before with
  | nil => rfl
  | cons token rest ih =>
    -- the fragment is numbered from `before` on, as for the induction it may start anywhere
    have hrest : (Sql.number (before + 1 + token.width) rest).map (Mark.shift index)
        = Sql.number (before + index + token.width) rest := by
      rw [Nat.add_right_comm, ih, Nat.add_right_comm]
    rw [Sql.number, List.map_cons, hrest, Sql.number]
    cases token with
    | text s | name s | literal s => rfl
    | bind value => rw [Token.mark, Token.mark, Mark.shift, Nat.add_right_comm, Nat.add_sub_cancel]

/-- Where counting starts is added to every number of fragments that are written in turn. -/
theorem numberEach_shift (sqls : List Sql) (before index : Nat) :
    (numberEach (before + 1) sqls).map (List.map (Mark.shift index))
      = numberEach (before + index) sqls := by
  induction sqls generalizing before with
  | nil => rfl
  | cons sql rest ih =>
    rw [numberEach, List.map_cons, number_shift, Nat.add_right_comm, ih, Nat.add_right_comm,
      numberEach]

/-- A filter that is numbered from `index` has the same clause as one that is numbered from one,
with its placeholders shifted. -/
theorem clauseAt_eq_shift (f : Filter) (index : Nat) :
    f.clauseAt index = (f.clauseAt 1).shift index := by
  have hmarks : (f.marks 1).map (Mark.shift index) = f.marks index := by
    simpa [marks] using number_shift f.sql 0 index
  have hsorts : (f.sortMarks 1).map (List.map (Mark.shift index)) = f.sortMarks index := by
    rw [sortMarks, sortMarks, Nat.add_comm 1, numberEach_shift, Nat.add_comm]
  have hnext : f.next 1 + index - 1 = f.next index := by
    simp only [next]
    omega
  rw [WhereClause.shift, clauseAt, clauseAt, hmarks, hsorts, hnext]

end Filter

/-! ## What a writer gives -/

namespace Writer

/-- A writer gives an output that depends on its counter only, moves the counter on by `count` and
adds `values` to its own. -/
structure Writes {α : Type} (write : Writer → α × Writer) (output : Nat → α) (count : Nat)
    (values : List Param) : Prop where
  output (w : Writer) : (write w).1 = output w.next
  next (w : Writer) : (write w).2.next = w.next + count
  values (w : Writer) : (write w).2.values = w.values ++ values

/-- A writer gives a fragment as it is rendered from its counter on. -/
theorem writes_render (sql : Sql) :
    Writes (fun w => w.render sql) (fun first => sql.render first) sql.bindCount sql.params := by
  constructor <;> intro w <;> simp [render, fragment_eq_after, after, fresh]

/-- A writer gives a condition as its fragment is rendered from the counter on. -/
theorem writes_renderPredicate (p : Predicate) :
    Writes (fun w => w.renderPredicate p) (fun first => p.sql.render first) p.bindCount
      p.values := by
  have hcount := p.bindCount_toSql false
  have hvalues := p.params_toSql false
  constructor <;> intro w <;>
    simp [renderPredicate, predicate_eq_after, after, fresh, Predicate.sql, hcount, hvalues,
      Predicate.values]

/-- Fragments that are written in turn take their numbers one after another. -/
theorem writes_renderEach (sqls : List Sql) :
    Writes (fun w => w.renderEach sqls)
      (fun first => (Filter.numberEach first sqls).map Mark.join)
      (Sql.bindCount sqls.flatten) (Sql.params sqls.flatten) := by
  induction sqls with
  | nil =>
    constructor <;> intro w <;> simp [renderEach, Filter.numberEach, Sql.bindCount, Sql.params]
  | cons sql rest ih =>
    have hfirst := writes_render sql
    constructor <;> intro w <;> simp only [renderEach]
    · rw [ih.output, hfirst.next, hfirst.output]
      rfl
    · rw [ih.next, hfirst.next, List.flatten_cons, Sql.bindCount_append, Nat.add_assoc]
    · rw [ih.values, hfirst.values, List.flatten_cons, Sql.params_append, List.append_assoc]

/-- A writer gives the condition of a filter, and nothing if it has none. -/
theorem writes_renderCondition (f : Filter) :
    Writes (fun w => w.renderCondition f.predicate) (fun first => Mark.join (f.marks first))
      f.sql.bindCount f.sql.params := by
  obtain ⟨predicate, sorts⟩ := f
  cases predicate with
  | none =>
    constructor <;> intro w <;>
      simp [renderCondition, Filter.marks, Filter.sql, Sql.number, Mark.join, Sql.bindCount,
        Sql.params]
  | some p =>
    have hp := writes_renderPredicate p
    rwa [← p.bindCount_toSql false, Predicate.values, ← p.params_toSql false] at hp

/-- A filter is written as its clause says, numbered from where the writer starts. -/
theorem write_eq (f : Filter) (index : Nat) :
    f.write index = (f.clauseAt index).map Mark.join := by
  have hcondition := writes_renderCondition f
  have hsorts := writes_renderEach f.sorts
  simp only [Filter.write]
  rw [hcondition.output, hsorts.output, hsorts.values, hsorts.next, hcondition.values,
    hcondition.next, List.append_assoc, ← Sql.params_append, Nat.add_assoc, ← Sql.bindCount_append]
  rfl

/-- The clause of a query is that of its filter, numbered from `index`. -/
theorem buildWhereClause_eq (c : Compiler) (query : Object) (index : Nat) :
    c.buildWhereClause query index
      = (Filter.ofQuery c query).map fun f => (f.clauseAt index).map Mark.join := by
  rw [Compiler.buildWhereClause, funext fun f => (write_eq f index).symm]
  cases Filter.ofQuery c query <;> rfl

/-- Writing numbers the values in the order in which they stand. A fragment, or a condition, is
written with consecutive numbers in the places of its values, from the writer's counter on; the
writer goes on with the number after those and has taken these values. Fragments that are written in
turn go on from one another; and a query's clause, which is a condition followed by sort clauses,
differs in its placeholders only if it is numbered from elsewhere. -/
theorem writes_in_order :
    (∀ sql : Sql,
        Writes (fun w => w.render sql) (fun first => sql.render first) sql.bindCount sql.params
          ∧ ∀ first index,
            (Sql.fill (Sql.consecutive first sql.bindCount) sql).render index = sql.render first)
      ∧ (∀ p : Predicate,
        Writes (fun w => w.renderPredicate p) (fun first => p.sql.render first) p.bindCount p.values
          ∧ ∀ first index,
            (p.fill (Sql.consecutive first p.bindCount)).sql.render index = p.sql.render first)
      ∧ (∀ sqls : List Sql,
        Writes (fun w => w.renderEach sqls)
            (fun first => (Filter.numberEach first sqls).map Mark.join)
            (Sql.bindCount sqls.flatten) (Sql.params sqls.flatten)
          ∧ ∀ first, (Filter.numberEach first sqls).flatMap Mark.placeholders
            = List.range' first (Sql.bindCount sqls.flatten))
      ∧ ∀ (c : Compiler) (query : Object) (index : Nat),
        c.buildWhereClause query index
            = (Filter.ofQuery c query).map (fun f => (f.clauseAt index).map Mark.join)
          ∧ ∀ f : Filter, f.clauseAt index = (f.clauseAt 1).shift index := by
  refine ⟨?_, ?_, ?_, ?_⟩
  · intro sql
    exact ⟨writes_render sql, Sql.render_fill_consecutive sql⟩
  · intro p
    exact ⟨writes_renderPredicate p, p.render_fill_consecutive⟩
  · intro sqls
    refine ⟨writes_renderEach sqls, ?_⟩
    intro first
    exact RowStatement.placeholders_numberEach first sqls
  · intro c query index
    refine ⟨buildWhereClause_eq c query index, ?_⟩
    intro f
    exact f.clauseAt_eq_shift index

/-- The numbers go on through both connectives and into a negation. -/
example :
    let bound (name : String) : Predicate :=
      .clause (Sql.name name ++ Sql.text " = " ++ Sql.bindText name)
    ((startingAt 4).renderPredicate (.all [.any [bound "a", bound "b"], .not (bound "c")])).1
      = "(\"a\" = $4 OR \"b\" = $5) AND NOT (\"c\" = $6)" := by
  decide

end Writer

end ObjectStore
