import ObjectStore.Proofs.Aggregate.Quoted
import ObjectStore.Proofs.Objects.Quoted

/-!
# Nothing that a client names leaves its quotes

Every text that is written for the query, the options or the pipeline of a client (`Produced`) is
read back as it was meant: the reader ends outside of all quotes, what stands in quotes is the
class, the fields that the client names, the parts of their paths and the patterns in the form of
the engine, in reading order, and everything else is a placeholder or fixed text of the vocabulary.
-/

namespace ObjectStore

open Sql Work

/-- The texts that are written for a client, with the quoted parts that each is to have, in reading
order: the condition and the sort clauses of a query from any number on, and the statements of
searches, of lists of distinct values and of pipelines. -/
inductive Produced : List Mark → List Quote → Prop where
  | condition {c : Compiler} {query : Object} {filter : Filter} (index : Nat)
      (h : Filter.ofQuery c query = .ok filter) :
      Produced (filter.marks index) (c.conditionQuotes query)
  | order {c : Compiler} {query : Object} {filter : Filter} {marks : List Mark} (index i : Nat)
      (h : Filter.ofQuery c query = .ok filter)
      (hmarks : (filter.sortMarks index)[i]? = some marks) :
      Produced marks ((c.orderings query).getD i [])
  | find {settings : Settings} {className : String} {schema : Schema} {query : Object}
      {options : FindOptions} {s : Session} {statement : Statement}
      (h : statement ∈ (Objects.find settings className schema query options).sent s) :
      Produced statement.marks
        (Objects.findQuotes (.ofSchema schema (options.ignoreCase || settings.ignoresCase) s.now)
          className schema query options)
  | distinct {className : String} {schema : Schema} {query : Object} {field : String} {s : Session}
      {statement : Statement}
      (h : statement ∈ (Objects.distinct className schema query field).sent s) :
      Produced statement.marks
        (Objects.distinctQuotes (.ofSchema schema false s.now) className query field)
  | aggregate {c : Compiler} {pipeline : List Json} {plan : Aggregate.Plan} (className : String)
      (h : Aggregate.Plan.ofPipeline c pipeline = .ok plan) :
      Produced (Statement.aggregate className plan).marks
        (Aggregate.pipelineQuotes c className pipeline)

/-- Fragments that are numbered one after another are read back with their own quoted parts. -/
theorem readBack_numberEach {sqls : List Sql} {quotes : List (List Quote)} (index : Nat)
    (h : List.Forall₂ Reads sqls quotes) :
    List.Forall₂ ReadBack (Filter.numberEach index sqls) quotes := by
  induction h generalizing index with
  | nil => exact .nil
  | @cons sql _ _ _ hsql _ ih =>
    have hback := hsql.readBack (Mark.spell_number index sql)
    exact .cons hback (ih (index + sql.bindCount))

/-- What belongs to each other in two lists is found at the same place. -/
theorem rel_getD_of_getElem? {α β : Type} {R : α → β → Prop} {as : List α} {bs : List β}
    (h : List.Forall₂ R as bs) {i : Nat} {a : α} (ha : as[i]? = some a) (default : β) :
    R a (bs.getD i default) := by
  induction h generalizing i with
  | nil => cases ha
  | cons hhead _ ih =>
    cases i with
    | zero =>
      obtain rfl := Option.some.inj ha
      exact hhead
    | succ i => exact ih ha

/-- Every text that is written for a client is read back as it was meant: its quoted parts are the
class and what the client names, each as often and in the order as it is to be. -/
theorem Produced.reads_back {marks : List Mark} {expected : List Quote}
    (h : Produced marks expected) : ReadBack marks expected := by
  cases h with
  | condition index h =>
    exact (Compiler.reads_ofQuery h).readBack (Mark.spell_number index _)
  | @order c query filter marks index i h hmarks =>
    have heach := readBack_numberEach (index + filter.sql.bindCount) (Compiler.reads_eachSort h)
    exact rel_getD_of_getElem? heach hmarks []
  | @find settings className schema query options s statement h =>
    -- what holds of all statements that a search can send holds of this one
    let expected := Objects.findQuotes
      (.ofSchema schema (options.ignoreCase || settings.ignoresCase) s.now) className schema query
      options
    refine (Objects.ensures_find (P := fun statement => ReadBack statement.marks expected)
      ?_).of_mem_sent h
    intro filter action hf haction
    obtain ⟨hbare, hreads⟩ := Objects.reads_find className hf haction
    exact RowStatement.readBack_marks hbare hreads
  | @distinct className schema query field s statement h =>
    let expected := Objects.distinctQuotes (.ofSchema schema false s.now) className query field
    refine (Objects.ensures_distinct (P := fun statement => ReadBack statement.marks expected)
      ?_).of_mem_sent h
    intro filter action hf haction
    obtain ⟨hbare, hreads⟩ := Objects.reads_distinct className hf haction
    exact RowStatement.readBack_marks hbare hreads
  | aggregate className h =>
    exact (Aggregate.reads_ofPipeline className h).readBack (Mark.spell_number 1 _)

/-- Names, parts of paths and patterns with quotes of both kinds in them. -/
def hostileQuery : Object :=
  [("a\"b.c'd", .obj [("$ne", .null)]), ("e'", .obj [("$regex", .str "it's \\Q'\\E")])]

/-- Even these stay in their quotes. -/
theorem hostileQuery_reads_back :
    ∃ filter, Filter.ofQuery (.ofSchema (Schema.ofClass "Post") false ⟨0, 0⟩) hostileQuery
        = .ok filter ∧
      Mark.join (filter.marks 1)
        = "\"a\"\"b\"->>'c''d' IS NOT NULL AND \"e'\" ~ 'it''s '''" ∧
      ReadBack (filter.marks 1)
        [⟨.name, "a\"b"⟩, ⟨.literal, "c'd"⟩, ⟨.name, "e'"⟩, ⟨.literal, "it's '"⟩] := by
  obtain ⟨filter, hfilter, htext⟩ : ∃ filter,
      Filter.ofQuery (.ofSchema (Schema.ofClass "Post") false ⟨0, 0⟩) hostileQuery = .ok filter ∧
      Mark.join (filter.marks 1)
        = "\"a\"\"b\"->>'c''d' IS NOT NULL AND \"e'\" ~ 'it''s '''" := ⟨_, rfl, by decide +kernel⟩
  have hback := (Produced.condition 1 hfilter).reads_back
  have hquotes : Compiler.conditionQuotes (.ofSchema (Schema.ofClass "Post") false ⟨0, 0⟩)
        hostileQuery
      = [⟨.name, "a\"b"⟩, ⟨.literal, "c'd"⟩, ⟨.name, "e'"⟩, ⟨.literal, "it's '"⟩] := by
    decide +kernel
  rw [hquotes] at hback
  exact ⟨filter, hfilter, htext, hback⟩

end ObjectStore
