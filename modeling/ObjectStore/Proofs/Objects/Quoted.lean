import ObjectStore.Proofs.Objects.Sending
import ObjectStore.Proofs.Query.Order
import ObjectStore.Proofs.Query.Ranking
import ObjectStore.Proofs.Statement.Inline

/-!
# What a search puts in quotes besides its query

The columns of the keys that a search asks for, the field of the full-text search that it ranks by,
the fields that it sorts by, and the field whose distinct values are listed: each is written as a
quoted name or as a path of quoted parts. Which they are, in which order and how often, is told by
the keys, the query and the sort keys alone (`Projection.quotes`, `Objects.orderQuotes`), and the
statements are shown to have just these.
-/

namespace ObjectStore

open Sql Result

/-! ## Keys -/

namespace Projection

/-- Whether the rows of a class have a column with a name: they have those of the permissions, and
one for each field that is neither a relation nor the `ACL` that the permissions stand for. -/
def hasColumn (s : Schema) (name : String) : Bool :=
  if name = readColumn ∨ name = writeColumn then true
  else if name = aclField then false
  else (s.field? name).any fun type => !type.isRelation

/-- The columns that a key asks for: the `ACL` for those of the permissions, the rank for none, and
any other key for that of its field, which may be the start of a path. -/
def columnsOfKey (s : Schema) (key : String) : List String :=
  if key = aclField then [readColumn, writeColumn]
  else if key = scoreKey then []
  else match Text.split '.' key with
    | [] => []
    | field :: _ => if hasColumn s field then [field] else []

/-- The columns that a key brings in where some columns are asked for already: all of an `ACL`, and
of any other key only what is new. -/
def newColumns (s : Schema) (asked : List String) (key : String) : List String :=
  if key = aclField then columnsOfKey s key
  else (columnsOfKey s key).filter fun column => decide (column ∉ asked)

/-- The columns that keys bring in, one key after another, where some are asked for already. -/
def keyColumns (s : Schema) (asked : List String) : List String → List String
  | [] => []
  | key :: rest => newColumns s asked key ++ keyColumns s (asked ++ columnsOfKey s key) rest

/-- The columns that come along with all keys: the id and the timestamps, if the class has them and
no key names them. -/
def impliedColumns (s : Schema) (keys : List String) : List String :=
  ["objectId", "createdAt", "updatedAt"].filter fun column =>
    s.hasField column && decide (column ∉ keys)

/-- The field that a search is ranked by, if it asks for the rank: the first that its query searches
for a text. -/
def rankQuotes (query : Object) (keys : List String) : List Quote :=
  if scoreKey ∈ keys then (searched? query).toList.map fun field => ⟨.name, field.1⟩ else []

/-- What the columns of a search put in quotes: nothing if it returns everything, and else the
columns of its keys, those that come along, and the field that it ranks by. -/
def quotes (s : Schema) (query : Object) : Option (List String) → List Quote
  | none | some [] => []
  | some keys =>
    (keyColumns s [] keys ++ impliedColumns s keys).map (⟨.name, ·⟩) ++ rankQuotes query keys

variable {s : Schema} {query : Object} {keys found asked : List String} {key : String}

/-- A field has a column just if the stored form of its class has it as no relation. -/
theorem hasColumn_eq (s : Schema) (name : String) :
    hasColumn s name = (s.forStorage.field? name).any fun type => !type.isRelation := by
  unfold hasColumn Schema.field?
  rw [Schema.get?_forStorage]
  by_cases hown : name = readColumn ∨ name = writeColumn
  · rw [if_pos hown, if_pos hown]
    rfl
  · by_cases hacl : name = aclField
    · rw [if_neg hown, if_neg hown, if_pos hacl, if_pos hacl]
      rfl
    · rw [if_neg hown, if_neg hown, if_neg hacl, if_neg hacl]

/-- The field of a key is the first part of its name. -/
theorem columnsOfKey_eq (hacl : key ≠ aclField) (hscore : key ≠ scoreKey) :
    columnsOfKey s key
      = if hasColumn s (Compiler.root key) then [Compiler.root key] else [] := by
  unfold columnsOfKey Compiler.root
  rw [if_neg hacl, if_neg hscore]
  cases hsplit : Text.split '.' key with
  | nil => exact absurd (List.map_eq_nil_iff.mp hsplit) (Text.splitChars_ne_nil '.' _)
  | cons field rest => rfl

/-- One more key brings in its columns behind those that are there. -/
theorem addKey_eq (h : ∀ column, column ∈ found ↔ column ∈ asked) :
    addKey s.forStorage found key = found ++ newColumns s asked key := by
  unfold addKey newColumns
  by_cases hacl : key = aclField
  · simp [hacl, columnsOfKey]
  by_cases hscore : key = scoreKey
  · subst hscore
    simp [columnsOfKey, scoreKey, aclField]
  simp only [hacl, hscore, if_false, columnsOfKey_eq hacl hscore, hasColumn_eq]
  cases hfield : s.forStorage.field? (Compiler.root key) with
  | none => simp
  | some type =>
    have hcontains : found.contains (Compiler.root key) = decide (Compiler.root key ∈ asked) := by
      rw [List.contains_eq_mem, decide_eq_decide]
      exact h _
    rw [hcontains]
    by_cases hrelation : type.isRelation = true
    · simp [hrelation]
    · by_cases hasked : Compiler.root key ∈ asked
      · simp [hrelation, hasked]
      · simp [hrelation, hasked]

/-- What is brought in is asked for, and what is asked for is there afterwards. -/
theorem mem_newColumns_iff (column : String) :
    column ∈ asked ∨ column ∈ newColumns s asked key
      ↔ column ∈ asked ∨ column ∈ columnsOfKey s key := by
  unfold newColumns
  by_cases hacl : key = aclField
  · rw [if_pos hacl]
  · rw [if_neg hacl, List.mem_filter, decide_eq_true_eq]
    by_cases hasked : column ∈ asked
    · simp [hasked]
    · simp [hasked]

/-- All keys bring in their columns behind those that are there. -/
theorem foldl_addKey (h : ∀ column, column ∈ found ↔ column ∈ asked) :
    keys.foldl (addKey s.forStorage) found = found ++ keyColumns s asked keys := by
  -- the induction is on the keys still to come, with the columns found so far
  induction keys generalizing found asked with
  | nil => simp [keyColumns]
  | cons key rest ih =>
    have hnext : ∀ column, column ∈ found ++ newColumns s asked key
        ↔ column ∈ asked ++ columnsOfKey s key := by
      intro column
      rw [List.mem_append, List.mem_append, h column]
      exact mem_newColumns_iff column
    rw [List.foldl_cons, addKey_eq h, ih hnext, keyColumns, List.append_assoc]

/-- The id and the timestamps are fields of the stored form of a class just if they are its own. -/
theorem hasField_forStorage {column : String}
    (h : column ∈ [objectIdField, createdAtField, updatedAtField]) :
    s.forStorage.hasField column = s.hasField column := by
  have hown : ¬ (column = readColumn ∨ column = writeColumn) ∧ column ≠ aclField := by
    simp only [List.mem_cons, List.not_mem_nil, or_false] at h
    rcases h with rfl | rfl | rfl <;> decide
  have hget := Schema.get?_forStorage s column
  rw [if_neg hown.1, if_neg hown.2] at hget
  rw [Schema.hasField, Schema.hasField, Bool.eq_iff_iff, Dict.contains_iff, Dict.contains_iff, hget]

/-- The columns of a search are those of its keys and those that come along. -/
theorem columns_eq (s : Schema) (keys : List String) :
    columns s.forStorage keys = keyColumns s [] keys ++ impliedColumns s keys := by
  have halways : alwaysIncluded s.forStorage keys = impliedColumns s keys := by
    refine List.filter_congr ?_
    intro column hcolumn
    rw [hasField_forStorage hcolumn, List.contains_eq_mem, decide_not]
  rw [columns, foldl_addKey (fun _ => Iff.rfl), List.nil_append, halways]

theorem reads_rank (search : TextSearch) (field : String) :
    Reads (search.rank field) [⟨.name, field⟩] := by
  have hlanguage := (FieldRef.reads_bindText search.language).after
    (joins_row (s := "ts_rank_cd(to_tsvector(") (by decide))
  have hfield := hlanguage.between (joins_condition (s := "::regconfig, ") (by decide))
    (Reads.name field)
  have hagain := hfield.beside (joins_row (s := "), to_tsquery(") (by decide))
    (FieldRef.reads_bindText search.language)
  have hterm := hagain.beside (joins_condition (s := "::regconfig, ") (by decide))
    (FieldRef.reads_bindText search.term)
  exact hterm.closed (by simp [vocabulary, quoteEnders]) (by simp [digitStarters])

/-- A search is ranked by the field that it searches first, or by none. -/
theorem reads_textRank? {rank : Option Sql} (h : textRank? query = .ok rank) :
    ReadsAll rank.toList ((searched? query).toList.map fun field => ⟨.name, field.1⟩) := by
  induction query with
  | nil =>
    obtain rfl := Except.ok.inj h
    exact ReadsAll.nil
  | cons entry rest ih =>
    obtain ⟨field, value⟩ := entry
    unfold textRank? at h
    cases htext : value.get? "$text" with
    | none =>
      have hrest : searched? ((field, value) :: rest) = searched? rest := by
        simp [searched?, htext]
      rw [hrest]
      exact ih (by simpa [htext] using h)
    | some payload =>
      have hfirst : searched? ((field, value) :: rest) = some (field, value) := by
        simp [searched?, htext]
      simp only [htext, Option.isNone_some, Bool.false_eq_true, if_false] at h
      obtain ⟨constraint, hread, h⟩ := bind_eq_ok.mp h
      -- a constraint with a search is read to operators, and the search is found among them
      obtain ⟨operators, search, rfl, hfound, -⟩ :=
        Compiler.exists_search (by simp [htext]) hread
      simp only [hfound] at h
      obtain rfl := pure_eq_ok.mp h
      rw [hfirst]
      exact ReadsAll.single (reads_rank search field)

/-- The columns of some keys, and a rank if there is one, are read one after another. -/
theorem reads_ofKeys {rank : Option Sql} {q : List Quote} (h : ReadsAll rank.toList q) :
    Reads (ofKeys s keys rank)
      ((keyColumns s [] keys ++ impliedColumns s keys).map (⟨.name, ·⟩) ++ q) := by
  have hnames : ReadsAll ((columns s.forStorage keys).map Sql.name)
      ((keyColumns s [] keys ++ impliedColumns s keys).map (⟨.name, ·⟩)) := by
    rw [columns_eq, List.map_eq_flatMap (f := fun column => Quote.mk .name column)]
    exact ReadsAll.map _ fun column _ => Reads.name column
  exact (hnames.append h).join (joins_condition (by decide))

/-- The columns of a search are written with its quotes, and nothing else. -/
theorem reads_sql {keys : Option (List String)} {columns : Sql}
    (h : sql s query keys = .ok columns) : Reads columns (quotes s query keys) := by
  have heverything : Reads (Sql.text "*") [] := Reads.text (joins_row (by decide)).mem
  match keys with
  | none | some [] =>
    obtain rfl := Except.ok.inj h
    exact heverything
  | some (key :: rest) =>
    simp only [sql] at h
    show Reads columns (_ ++ rankQuotes query (key :: rest))
    unfold rankQuotes
    by_cases hscore : scoreKey ∈ key :: rest
    · rw [if_pos (List.contains_iff_mem.mpr hscore)] at h
      obtain ⟨rank, hrank, h⟩ := bind_eq_ok.mp h
      obtain rfl := pure_eq_ok.mp h
      rw [if_pos hscore]
      exact reads_ofKeys (reads_textRank? hrank)
    · rw [if_neg (mt List.contains_iff_mem.mp hscore)] at h
      obtain rfl := pure_eq_ok.mp h
      rw [if_neg hscore]
      exact reads_ofKeys ReadsAll.nil

end Projection

/-! ## Sorting and distinct values -/

namespace SortKey

/-- The field that a sort key stands for. -/
def column : String → String
  | "_created_at" => "createdAt"
  | "_updated_at" => "updatedAt"
  | "$score" => "score"
  | field => field

theorem reads_expression (field : String) :
    Reads (expression field) (pathQuotes (column field)) := by
  have hfixed : ∀ {name : String}, Text.contains name "." = false →
      Reads (Sql.name name) (pathQuotes name) :=
    fun h => pathQuotes_of_not_contains h ▸ Reads.name _
  unfold expression
  split
  · exact hfixed (by decide)
  · exact hfixed (by decide)
  · exact hfixed (by decide)
  -- any other key is the column itself, by its name or by a path
  next hcreated hupdated hscore =>
    have hcolumn : column field = field := by
      unfold column
      split
      · exact absurd rfl hcreated
      · exact absurd rfl hupdated
      · exact absurd rfl hscore
      · rfl
    rw [hcolumn]
    exact reads_field field false

/-- A sort clause has the field of its key in quotes. -/
theorem reads_sql (key : SortKey) : Reads key.sql (pathQuotes (column key.field)) := by
  unfold sql
  split
  · exact (reads_expression key.field).before (joins_row (by decide))
  · exact (reads_expression key.field).before (joins_condition (by decide))

theorem params_sql (key : SortKey) : key.sql.params = [] := by
  have hexpression : (expression key.field).params = [] := by
    unfold expression
    split
    · rfl
    · rfl
    · rfl
    · split <;> simp
  simp [sql, hexpression]

end SortKey

namespace Objects

/-- A list of distinct values has their field in quotes. -/
theorem reads_valueSource (schema : Schema) (field : String) :
    Reads (valueSource schema field) (pathQuotes field) := by
  unfold valueSource
  cases hdot : Text.contains field "." with
  | true => simpa using reads_path field false
  | false =>
    rw [pathQuotes_of_not_contains hdot]
    have hname := Reads.name field
    dsimp only
    split
    next h => cases h
    next =>
      split
      · exact (hname.after (joins_row (by decide))).before (joins_condition (by decide))
      · split
        · exact (hname.after (joins_row (by decide))).before (joins_condition (by decide))
        · exact hname
      · exact hname

theorem params_valueSource (schema : Schema) (field : String) :
    (valueSource schema field).params = [] := by
  unfold valueSource
  dsimp only
  split
  · simp
  · split
    · simp
    · split <;> simp
    · simp

end Objects

/-! ## Statements -/

namespace Objects

variable {c : Compiler} {field : String} {schema : Schema} {query : Object}
  {options : FindOptions} {filter : Filter} {action : RowAction}

/-- What the order of a search puts in quotes: the columns of its query that ask for an order, if
there are any, and else its sort keys. -/
def orderQuotes (c : Compiler) (query : Object) (sort : List SortKey) : List Quote :=
  if (c.orderings query).isEmpty then sort.flatMap fun key => pathQuotes (SortKey.column key.field)
  else (c.orderings query).flatten

/-- What a search puts in quotes: its columns, the class, its condition and its order. -/
def findQuotes (c : Compiler) (className : String) (schema : Schema) (query : Object)
    (options : FindOptions) : List Quote :=
  Projection.quotes schema query options.keys ++ [⟨.name, className⟩] ++ c.conditionQuotes query
    ++ orderQuotes c query options.sort

/-- What a list of distinct values puts in quotes: its field, the class and its condition. -/
def distinctQuotes (c : Compiler) (className : String) (query : Object) (field : String) :
    List Quote :=
  pathQuotes field ++ [⟨.name, className⟩] ++ c.conditionQuotes query

/-- The order of a search is read as that of its query, or as that of its sort keys. -/
theorem reads_orderClauses (h : Filter.ofQuery c query = .ok filter) (sort : List SortKey) :
    ReadsAll (RowStatement.orderClauses filter (sort.map SortKey.sql))
      (orderQuotes c query sort) := by
  have heach := Compiler.reads_eachSort h
  have hempty : filter.sorts.isEmpty = (c.orderings query).isEmpty := by
    rw [Bool.eq_iff_iff, List.isEmpty_iff_length_eq_zero, List.isEmpty_iff_length_eq_zero,
      heach.length_eq]
  unfold RowStatement.orderClauses orderQuotes
  rw [hempty]
  by_cases hnone : (c.orderings query).isEmpty = true
  · rw [if_pos hnone, if_pos hnone]
    exact ReadsAll.map sort fun key _ => SortKey.reads_sql key
  · rw [if_neg hnone, if_neg hnone]
    exact ReadsAll.ofEach heach

/-- The statement of a search has only what it puts in quotes, and its sort clauses bind nothing. -/
theorem reads_find (className : String) (h : Filter.ofQuery c query = .ok filter)
    (haction : IsFind schema query options action) :
    action.IsBare ∧ Reads (RowStatement.inline ⟨className, filter, action⟩)
      (findQuotes c className schema query options) := by
  obtain ⟨columns, hcolumns, rfl⟩ := haction
  constructor
  · exact List.forall_mem_map.mpr fun key _ => key.params_sql
  · exact RowStatement.reads_find (Projection.reads_sql hcolumns) (Compiler.reads_ofQuery h)
      (reads_orderClauses h options.sort)

/-- The statement of a list of distinct values has only what it puts in quotes, and its source binds
nothing. -/
theorem reads_distinct (className : String) (h : Filter.ofQuery c query = .ok filter)
    (haction : action = .distinct (valueSource schema field)) :
    action.IsBare ∧ Reads (RowStatement.inline ⟨className, filter, action⟩)
      (distinctQuotes c className query field) := by
  obtain rfl := haction
  constructor
  · exact params_valueSource schema field
  · exact RowStatement.reads_distinct (reads_valueSource schema field) (Compiler.reads_ofQuery h)

end Objects

end ObjectStore
