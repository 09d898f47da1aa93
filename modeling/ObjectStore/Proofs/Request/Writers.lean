import ObjectStore.Proofs.Relation.Kept
import ObjectStore.Proofs.Request.Columns
import ObjectStore.Proofs.Request.Roles

/-!
# Clients do not ask for the groups that may write

The column of the groups that may write a row is for the store alone. Two checks keep clients from
naming it: a query with the column as a key is refused, and so is one with a key that no query may
have, such as a path that starts with the column. Both look at all levels of the query once its
relations are resolved (`RowCall.PreparesFor.asked_allKeys`).

So a condition on rows names the column only where the query was restricted to the groups that may
write, in the two clauses of this restriction (`clausesNaming_restrictTo`). And a call whose query
keeps such a key is not prepared at all: it sends lookups of edges at most
(`sends_of_not_prepares`), or creates the class that an update was to insert into, which comes
before the query is looked at.
-/

namespace ObjectStore

open Access Result Work Statement Objects Query
open Compiler (AsksOnly leaves)

/-- The conditions of a filter that have a column in quotes. -/
def Filter.clausesNaming (filter : Filter) (column : String) : List Sql :=
  (filter.predicate.toList.flatMap Predicate.clauses).filter fun sql =>
    decide (⟨.name, column⟩ ∈ sql.quotes)

/-! ## The clauses of a query -/

namespace Compiler

variable {c : Compiler} {query : Object} {column : String} {P : String → Prop}

/-- The conditions of a query are those of its leaves. -/
theorem clauses_ofQuery {filter : Filter} (h : Filter.ofQuery c query = .ok filter) :
    ∃ parts, c.CompileTo (leaves query) parts
      ∧ filter.predicate.toList.flatMap Predicate.clauses = parts.flatMap Compiled.clauses := by
  obtain ⟨compiled, hcompile, h⟩ := bind_eq_ok.mp h
  obtain rfl := pure_eq_ok.mp h
  obtain ⟨parts, hparts, hclauses, _⟩ := compileEntries_leaves hcompile
  refine ⟨parts, hparts, ?_⟩
  rw [← hclauses, Compiled.clauses]
  cases hall : Predicate.all? compiled.predicates with
  | none =>
    rw [Predicate.all?_eq_none_iff.mp hall]
    rfl
  | some p => simp [Predicate.clauses_all? hall]

/-- A field whose path does not start with a column compiles to no condition that names it. -/
theorem not_mem_quotes_of_compileField {field : String × Json} {part : Compiled}
    (hfield : ⟨.name, column⟩ ∉ Sql.pathQuotes field.1)
    (h : c.compileField field.1 field.2 = .ok part) :
    ∀ sql ∈ part.clauses, ⟨.name, column⟩ ∉ sql.quotes := by
  intro sql hsql hname
  have hreads := reads_compileField h
  have hmem : ⟨.name, column⟩ ∈ part.clauses.flatMap Sql.quotes :=
    List.mem_flatMap.mpr ⟨sql, hsql, hname⟩
  rw [hreads.quotes_eq] at hmem
  exact hfield (mem_of_name_mem_fieldQuotes hmem)

/-- The conditions of a query that name a column are those of the leaves that are the column. -/
theorem clausesNaming_ofQuery {filter : Filter} (own : List Sql)
    (h : Filter.ofQuery c query = .ok filter)
    (hothers : AsksOnly (fun key => key ≠ column → ⟨.name, column⟩ ∉ Sql.pathQuotes key) query)
    (hown : ∀ field ∈ leaves query, field.1 = column → ∀ part,
      c.compileField field.1 field.2 = .ok part →
        part.clauses = own ∧ ∀ sql ∈ own, ⟨.name, column⟩ ∈ sql.quotes) :
    filter.clausesNaming column
      = (leaves query).flatMap fun field => if field.1 = column then own else [] := by
  obtain ⟨parts, hparts, hclauses⟩ := clauses_ofQuery h
  rw [Filter.clausesNaming, hclauses]
  clear h hclauses
  rw [AsksOnly] at hothers
  generalize leaves query = fields at hothers hown hparts ⊢
  induction hparts with
  | nil => rfl
  | @cons field part fields parts hfield _ ih =>
    rw [List.forall_mem_cons] at hothers hown
    rw [List.flatMap_cons, List.flatMap_cons, List.filter_append, ih hothers.2 hown.2]
    congr 1
    by_cases hkey : field.1 = column
    · obtain ⟨hpart, hnamed⟩ := hown.1 hkey part hfield
      rw [if_pos hkey, hpart, List.filter_eq_self]
      exact fun sql hsql => decide_eq_true (hnamed sql hsql)
    · rw [if_neg hkey, List.filter_eq_nil_iff]
      have hunnamed := not_mem_quotes_of_compileField (hothers.1 hkey) hfield
      exact fun sql hsql => by simpa using hunnamed sql hsql

/-- An entry under a key that a query does not ask about is one more leaf, with the others around
it. -/
theorem exists_leaves_insert (value : Json) (hkey : Combinator.ofKey? column = none)
    (h : AsksOnly (· ≠ column) query) :
    ∃ before after, leaves (query.insert column value) = before ++ (column, value) :: after
      ∧ ∀ field ∈ before ++ after, field.1 ≠ column := by
  have hone : leaves [(column, value)] = [(column, value)] := by
    rw [leaves, hkey, leaves]
    rfl
  induction query with
  | nil => exact ⟨[], [], hone, fun _ hf => (List.not_mem_nil hf).elim⟩
  | cons entry rest ih =>
    obtain ⟨other, found⟩ := entry
    have hentries := List.forall_mem_cons.mp (asksOnly_iff.mp h)
    have hne : other ≠ column := by
      rintro rfl
      exact (asksOnly_field hkey).mp hentries.1 rfl
    rw [Dict.insert, if_neg hne]
    by_cases hlt : column < other
    · rw [if_pos hlt, leaves_cons, hone]
      exact ⟨[], _, rfl, h⟩
    · rw [if_neg hlt, leaves_cons]
      obtain ⟨before, after, hleaves, hothers⟩ := ih (asksOnly_iff.mpr hentries.2)
      refine ⟨leaves [(other, found)] ++ before, after, ?_, ?_⟩
      · rw [hleaves, List.append_assoc]
      · rw [List.append_assoc]
        exact List.forall_mem_append.mpr ⟨hentries.1, hothers⟩

end Compiler

namespace Request

variable {store : Store} {settings : Settings} {className : String} {schema : Schema}
  {caller : Caller} {groups : List String} {call : RowCall} {s : Session} {op : Operation}
  {asked permitted restricted prepared : Object}

/-! ## What a prepared query asks of the column -/

/-- A key that a query may have leads to the column of writers only if it is the column. -/
theorem root_ne_writeColumn {key : String} (hkey : isQueryKey key = true)
    (hne : key ≠ writeColumn) :
    Compiler.root key ≠ writeColumn := by
  intro hroot
  apply hne
  refine name_eq_of_mem_pathQuotes (Or.inr rfl) hkey ?_
  rw [← hroot, Sql.pathQuotes, Compiler.root]
  cases hsplit : Text.split '.' key with
  | nil =>
    rw [Compiler.root, hsplit] at hroot
    exact absurd hroot hne
  | cons root rest => exact List.mem_cons_self

/-- As long as no constraint is moved, what a call restricts is valid as it is. -/
theorem RowCall.PreparesFor.restricted_isValid
    (h : call.PreparesFor settings className caller s asked restricted prepared)
    (hoff : settings.movesOrConstraints = false) : IsValid restricted := by
  have hvalid := h.prepared_eq
  rw [call.moves_eq_false hoff] at hvalid
  exact ⟨prepared, hvalid⟩

/-- No level of a query that is prepared has a key that leads to the column of writers. -/
theorem RowCall.PreparesFor.asked_allKeys
    (h : call.PreparesFor settings className caller s asked restricted prepared)
    (hoff : settings.movesOrConstraints = false) (hcaller : caller.groups? = some groups)
    (hq : call.query.Canonical) : AllKeys (fun key => Compiler.root key ≠ writeColumn) asked := by
  obtain ⟨hwriters, permitted, hpermitted, rfl⟩ :=
    (RowCall.restrict_eq_ok_iff hcaller).mp h.restricted_eq
  have hcanonical := canonical_restrictToPointers (h.canonical hq) hpermitted
  have hrestricted := allKeys_of_isValid (canonical_restrictTo hcanonical)
    (h.restricted_isValid hoff)
  rw [restrictTo_eq] at hrestricted
  have hcolumn : Combinator.ofKey? (permissionColumn call.operation) = none := by
    rcases isPermission_permissionColumn call.operation with heq | heq <;> rw [heq] <;> rfl
  have hquery := allKeys_of_restrictToPointers (h.canonical hq) hpermitted
    (allKeys_of_restrict hcolumn hcanonical.sorted hrestricted)
  have hwriters := allKeys_of_refuseWriterQuery hwriters
  intro level hlevel entry hentry
  exact root_ne_writeColumn (hquery level hlevel entry hentry) (hwriters level hlevel entry hentry)

/-- A field that points at someone is not the column of writers, where the class has none of its
own. -/
theorem ne_writeColumn_of_pointsTo {field user : String} {constraint : Json}
    (hcolumn : schema.field? writeColumn = none) (h : pointsTo schema field user = .ok constraint) :
    field ≠ writeColumn := by
  rintro rfl
  rw [pointsTo, hcolumn] at h
  cases h

/-! ## The conditions of a prepared query -/

theorem clausesNaming_openTo (column : String) (groups : List String) :
    ∀ sql ∈ (openTo column groups).clauses, ⟨.name, column⟩ ∈ sql.quotes := by
  intro sql hsql
  have hmem : sql = absentClause column ∨ sql = overlapClause column groups := by
    simpa [openTo] using hsql
  rcases hmem with rfl | rfl
  · simp [absentClause]
  · simp [overlapClause]

/-- The conditions that restricting a query for an operation puts on the column of writers: those on
the rows that the groups may write, where it is restricted to these. -/
def writerClauses (op : Operation) (groups : List String) : List Sql :=
  match op with
  | .update | .delete => (openTo writeColumn groups.eraseDups).clauses
  | .find | .get | .count | .create | .addField => []

/-- A query that is restricted to writers, and did not ask for them before, names their column in
the two conditions of the restriction. -/
theorem clausesNaming_insert {ignoreCase : Bool} {now : Timestamp} {filter : Filter}
    (hgroups : groups ≠ []) (hpermitted : AsksOnly (· ≠ writeColumn) permitted)
    (hothers : AsksOnly (fun key => key ≠ writeColumn → ⟨.name, writeColumn⟩ ∉ Sql.pathQuotes key)
      (permitted.insert writeColumn (oneOf groups)))
    (hf : Filter.ofQuery (.ofSchema schema ignoreCase now)
      (permitted.insert writeColumn (oneOf groups)) = .ok filter) :
    filter.clausesNaming writeColumn = (openTo writeColumn groups.eraseDups).clauses := by
  obtain ⟨before, after, hleaves, hbeside⟩ :=
    Compiler.exists_leaves_insert (oneOf groups) rfl hpermitted
  have hcompile := compileEntry_oneOf schema ignoreCase now (Or.inr rfl) (eraseDups_ne_nil hgroups)
  rw [Compiler.clausesNaming_ofQuery _ hf hothers, hleaves]
  · rw [List.forall_mem_append] at hbeside
    have hnone : ∀ fields : List (String × Json), (∀ field ∈ fields, field.1 ≠ writeColumn) →
        (fields.flatMap fun field =>
          if field.1 = writeColumn then (openTo writeColumn groups.eraseDups).clauses else [])
        = [] := by
      intro fields hfields
      exact List.flatMap_eq_nil_iff.mpr fun field hf => if_neg (hfields field hf)
    rw [List.flatMap_append, List.flatMap_cons, hnone before hbeside.1, hnone after hbeside.2,
      if_pos rfl, List.nil_append, List.append_nil]
  · intro field hfield hkey part hpart
    -- the leaves beside the restriction are other fields
    have hentry : field = (writeColumn, oneOf groups) := by
      rw [hleaves, List.mem_append, List.mem_cons] at hfield
      rcases hfield with hfield | hfield | hfield
      · exact absurd hkey (hbeside field (List.mem_append_left _ hfield))
      · exact hfield
      · exact absurd hkey (hbeside field (List.mem_append_right _ hfield))
    rw [hentry] at hpart
    obtain rfl := Except.ok.inj (hcompile.symm.trans hpart)
    refine ⟨?_, clausesNaming_openTo _ _⟩
    simp [Compiled.ofPredicate, Compiled.clauses]

/-- A restricted query whose keys are valid, and that did not ask for the writers before, names
their column in the conditions of the restriction only. -/
theorem clausesNaming_restrictTo {ignoreCase : Bool} {now : Timestamp} {filter : Filter}
    (hgroups : groups ≠ []) (hpermitted : AsksOnly (· ≠ writeColumn) permitted)
    (hkeys : AllKeys (fun key => isQueryKey key = true) (restrictTo op permitted groups))
    (hf : Filter.ofQuery (.ofSchema schema ignoreCase now) (restrictTo op permitted groups)
      = .ok filter) :
    filter.clausesNaming writeColumn = writerClauses op groups := by
  have hothers : AsksOnly (fun key => key ≠ writeColumn → ⟨.name, writeColumn⟩ ∉ Sql.pathQuotes key)
      (restrictTo op permitted groups) := by
    intro field hfield hne hname
    exact hne (name_eq_of_mem_pathQuotes (Or.inr rfl) (hkeys.asksOnly field hfield) hname)
  have hwriters : restrictToWriters permitted groups
      = permitted.insert writeColumn (oneOf groups) := by
    rw [restrictToWriters, restrict]
    cases hget : permitted.get? writeColumn with
    | none => rfl
    | some value => exact absurd rfl ((Compiler.asksOnly_field rfl).mp (hpermitted.get? hget))
  cases op with
  | update | delete =>
    change AsksOnly _ (restrictToWriters permitted groups) at hothers
    change Filter.ofQuery _ (restrictToWriters permitted groups) = _ at hf
    rw [hwriters] at hothers hf
    exact clausesNaming_insert hgroups hpermitted hothers hf
  | find | get | count | create | addField =>
    have hasks : AsksOnly (· ≠ writeColumn) (restrictToReaders permitted groups) :=
      asksOnly_restrict (by decide) rfl hpermitted
    rw [Compiler.clausesNaming_ofQuery [] hf hothers
      fun field hfield hkey => absurd hkey (hasks field hfield)]
    exact List.flatMap_eq_nil_iff.mpr fun _ _ => ite_self []

/-- What a call sends on rows names the column of writers in the conditions of its restriction
only. -/
theorem clausesNaming_of_filtersBy {filter : Filter}
    (hoff : store.settings.movesOrConstraints = false) (hcaller : caller.groups? = some groups)
    (hq : call.query.Canonical) (hcolumn : (s.schemaOf className).field? writeColumn = none)
    (h : call.FiltersBy store className caller s filter) :
    filter.clausesNaming writeColumn = writerClauses call.operation groups := by
  obtain ⟨asked, restricted, prepared, hp, hfilter⟩ := h.compiles
  have hasked := (hp.asked_allKeys hoff hcaller hq).asksOnly
  have hvalid := hp.restricted_isValid hoff
  have hprepared := hp.prepared_eq
  rw [call.moves_eq_false hoff] at hprepared
  obtain ⟨_, permitted, hpermitted, rfl⟩ := (RowCall.restrict_eq_ok_iff hcaller).mp hp.restricted_eq
  have hcanonical : (restrictTo call.operation permitted groups).Canonical :=
    canonical_restrictTo (canonical_restrictToPointers (hp.canonical hq) hpermitted)
  obtain rfl := validate_eq_self hcanonical hprepared
  have hwriters : AsksOnly (· ≠ writeColumn) asked := by
    intro field hfield heq
    exact hasked field hfield (by rw [heq]; rfl)
  refine clausesNaming_restrictTo (List.ne_nil_of_mem (publicGroup_mem hcaller)) ?_
    (allKeys_of_isValid hcanonical hvalid) hfilter
  refine asksOnly_restrictToPointers (hp.canonical hq) ?_ hpermitted hwriters
  intro field _ hpoints
  obtain ⟨user, constraint, hpoints⟩ := hpoints
  exact ne_writeColumn_of_pointsTo hcolumn hpoints

/-! ## Queries that name the column -/

/-- The keys that resolving relations settles on the levels of the query of a call; a call that
writes resolves none. -/
def RowCall.settles (call : RowCall) (schema : Schema) : String → Bool :=
  match call with
  | .update .. | .destroy _ => fun _ => false
  | .find .. | .get _ | .count _ | .distinct .. => JoinTables.isResolved schema

/-- The query of a call has the column of writers, or a path that starts with it, as a key on one of
its levels, where it is not a relation that is resolved. -/
def RowCall.NamesWriters (call : RowCall) (schema : Schema) : Prop :=
  Keeps (fun key => Compiler.root key = writeColumn) (call.settles schema) call.query

/-- What a call asks of the rows still names the column of writers where its query does. -/
theorem RowCall.NamesWriters.keeps_asked (h : call.NamesWriters (s.schemaOf className))
    (hq : call.query.Canonical) (hasked : call.asked className s = .ok asked) :
    Keeps (fun key => Compiler.root key = writeColumn) (call.settles (s.schemaOf className))
      asked := by
  have hread : call.settles (s.schemaOf className) = JoinTables.isResolved (s.schemaOf className) →
      ((resolveRelations className (s.schemaOf className) call.query).run s).1 = .ok asked →
      Keeps (fun key => Compiler.root key = writeColumn) (call.settles (s.schemaOf className))
        asked := by
    intro hsettles hrun
    rw [RowCall.NamesWriters, hsettles] at h
    rw [hsettles]
    have hresolved : Ensures IsLookup s
        (resolveRelations className (s.schemaOf className) call.query) fun resolved _ =>
          Keeps (fun key => Compiler.root key = writeColumn)
            (JoinTables.isResolved (s.schemaOf className)) resolved :=
      ensures_bind (sends_joinTables s) fun tables s₁ _ _ =>
        JoinTables.ensures_resolve_keeps className _ (by decide) hq h s₁
    exact hresolved.result asked hrun
  cases call with
  | update | destroy =>
    obtain rfl := Except.ok.inj hasked
    exact h
  | find | get | count | distinct => exact hread rfl hasked

/-- A call whose query names the column of writers is not prepared. -/
theorem RowCall.NamesWriters.not_prepares (h : call.NamesWriters (s.schemaOf className))
    (hoff : settings.movesOrConstraints = false) (hcaller : caller.groups? = some groups)
    (hq : call.query.Canonical) :
    ¬ call.PreparesFor settings className caller s asked restricted prepared := by
  intro hp
  exact (h.keeps_asked hq hp.asked_eq).not_allKeys (hp.asked_allKeys hoff hcaller hq)

/-! ## Calls that are not prepared -/

/-- Whether a call may create its class: an update may that inserts what it does not match. -/
def RowCall.mayCreateClass : RowCall → Bool
  | .update _ _ options => options.upsert
  | .find .. | .get _ | .count _ | .distinct .. | .destroy _ => false

/-- A statement that a call may send that is not prepared: it looks up edges, or creates a class
that the session does not know. -/
def RowCall.MaySendUnprepared (call : RowCall) (className : String) (s : Session)
    (statement : Statement) : Prop :=
  statement.IsLookup
    ∨ call.mayCreateClass = true ∧ s.classes.get? className = none ∧ statement.Creates className

/-- A call that reads and is not prepared goes on with nothing. -/
theorem ensures_bind_not_prepares {α : Type} (call : RowCall) {f : Option PreparedRead → Work α}
    {Q : α → Session → Prop}
    (h : ∀ asked restricted prepared,
      ¬ call.PreparesFor store.settings className caller s asked restricted prepared)
    (hrestrict : ∀ schema asked, call.restrict schema caller asked
      = (do pure ((← restrictRead schema call.operation caller asked).map Prod.fst)))
    (hasked : call.asked className s
      = ((resolveRelations className (s.schemaOf className) call.query).run s).1)
    (hmoves : call.moves store.settings = store.settings.movesOrConstraints)
    (hnone : ∀ s', Ensures (call.MaySendUnprepared className s) s' (f none) Q) :
    Ensures (call.MaySendUnprepared className s) s
      (prepareRead store className call.query call.operation caller >>= f) Q := by
  refine ensures_bind_prepareRead call (fun _ => Or.inl) hrestrict hasked hmoves hnone ?_
  intro read s' _ _ hprepares
  obtain ⟨asked, restricted, hprepares⟩ := hprepares
  exact absurd hprepares (h asked restricted read.query)

/-- A call that is not prepared sends lookups of edges at most, or creates its class. -/
theorem sends_of_not_prepares (call : RowCall)
    (h : ∀ asked restricted prepared,
      ¬ call.PreparesFor store.settings className caller s asked restricted prepared) :
    Ensures (call.MaySendUnprepared className s) s (call.run store className caller)
      fun _ _ => True := by
  cases call with
  | find query options =>
    have hfind : Ensures (RowCall.MaySendUnprepared (.find query options) className s) s
        (find store className query options caller) fun _ _ => True :=
      ensures_bind_not_prepares (.find query options) h (fun _ _ => rfl) rfl rfl
        fun s' => sends_ofResult _ s'
    exact ensures_bind hfind fun _ _ _ _ => ensures_pure trivial
  | get id =>
    have hfind : Ensures (RowCall.MaySendUnprepared (.get id) className s) s
        (find store className [(objectIdField, .str id)]
          { limit := some 1, operation := some .get } caller) fun _ _ => True :=
      ensures_bind_not_prepares (.get id) h (fun _ _ => rfl) rfl rfl fun s' => sends_ofResult _ s'
    have hget : Ensures (RowCall.MaySendUnprepared (.get id) className s) s
        (get store className id caller) fun _ _ => True := by
      refine ensures_bind hfind ?_
      intro objects s' _ _
      split
      · exact ensures_pure trivial
      · exact ensures_throw
    exact ensures_bind hget fun _ _ _ _ => ensures_pure trivial
  | count query =>
    have hcount : Ensures (RowCall.MaySendUnprepared (.count query) className s) s
        (count store className query caller) fun _ _ => True :=
      ensures_bind_not_prepares (.count query) h (fun _ _ => rfl) rfl rfl
        fun s' => ensures_pure trivial
    exact ensures_bind hcount fun _ _ _ _ => ensures_pure trivial
  | distinct query field =>
    have hdistinct : Ensures (RowCall.MaySendUnprepared (.distinct query field) className s) s
        (distinct store className query field caller) fun _ _ => True :=
      ensures_bind_not_prepares (.distinct query field) h (fun _ _ => rfl) rfl rfl
        fun s' => ensures_pure trivial
    exact ensures_bind hdistinct fun _ _ _ _ => ensures_pure trivial
  | update query submitted options =>
    have hupdate : Ensures (RowCall.MaySendUnprepared (.update query submitted options) className s)
        s (update store className query submitted options caller) fun _ _ => True := by
      refine ensures_bind (ensures_authorize className caller .update s) ?_
      intro _ s₁ _ hs
      obtain ⟨rfl, _⟩ := hs
      refine ensures_bind
        (ensures_classToUpdate fun hupsert hnone statement hst => Or.inr ⟨hupsert, hnone, hst⟩) ?_
      intro schema s₂ _ hschema
      obtain rfl := hschema
      refine ensures_bind_ofResult ?_
      intro prepared hprepared
      obtain ⟨restricted, hprepares⟩ := exists_preparesFor (.update query submitted options)
        store.settings (fun _ _ => rfl) rfl rfl hprepared
      exact absurd hprepares (h query restricted prepared)
    exact ensures_bind hupdate fun _ _ _ _ => ensures_pure trivial
  | destroy query =>
    refine ensures_bind (ensures_authorize className caller .delete s) ?_
    intro _ s₁ _ hs
    obtain ⟨rfl, _⟩ := hs
    refine ensures_bind (Classes.ensures_loaded? className s₁) ?_
    intro loaded s₂ _ hs
    obtain ⟨rfl, rfl⟩ := hs
    refine ensures_bind_ofResult ?_
    intro prepared hprepared
    obtain ⟨restricted, hprepares⟩ := exists_preparesFor (.destroy query) store.settings
      (fun _ _ => rfl) rfl rfl hprepared
    exact absurd hprepares (h query restricted prepared)

/-! ## All calls -/

/-- As long as no constraint is moved, and for a class without a column of that name of its own:
every condition that a caller who is no master has put on rows names the column of writers just
where an update or a deletion is restricted to the groups that may write; and a call whose query
names the column, on whatever level, sends nothing but lookups of edges, or creates the class that
an update is to insert into. -/
theorem writers_named_by_restriction_only (store : Store) (className : String) (call : RowCall)
    (caller : Caller) (groups : List String) (hoff : store.settings.movesOrConstraints = false)
    (hcaller : caller.groups? = some groups) (hq : call.query.Canonical) (s : Session)
    (hcolumn : (s.schemaOf className).field? writeColumn = none) :
    (∀ r, Statement.rows r ∈ (call.run store className caller).sent s →
      r.filter.clausesNaming writeColumn = writerClauses call.operation groups)
    ∧ (call.NamesWriters (s.schemaOf className) →
      ∀ statement ∈ (call.run store className caller).sent s,
        call.MaySendUnprepared className s statement) := by
  constructor
  · intro r hsent
    exact clausesNaming_of_filtersBy hoff hcaller hq hcolumn (filtersBy_of_mem_sent hcaller hsent)
  · intro hnames statement hsent
    have hsends :
        Ensures (call.MaySendUnprepared className s) s (call.run store className caller) _ :=
      sends_of_not_prepares call fun _ _ _ => hnames.not_prepares hoff hcaller hq
    exact hsends.of_mem_sent hsent

/-- Teams by a member, and by who may write them below a branch. -/
def writersBelowOr : RowCall :=
  .find [("$or", .arr [.obj [("_wperm.0", .str "u")]]), ("members", userPointer "u")] {}

/-- Deleting a team by its id names the writers in the restriction only; and finding teams by who
may write them sends no more than the lookup of their members. -/
theorem teams_writers_named_by_restriction_only :
    (∃ deletion, ((RowCall.destroy [(objectIdField, .str "t")]).run ⟨{}, .given⟩ "Team"
          (.user "u" [])).sent teams = [.rows deletion]
        ∧ deletion.filter.clausesNaming writeColumn
          = (openTo writeColumn [publicGroup, "u"]).clauses)
      ∧ ∃ lookup, (writersBelowOr.run ⟨{}, .given⟩ "Team" (.user "u" [])).sent teams = [lookup]
        ∧ writersBelowOr.MaySendUnprepared "Team" teams lookup := by
  have hdestroy : Object.Canonical [(objectIdField, .str "t")] :=
    Object.canonical_of_isCanonical (by decide)
  have hquery : writersBelowOr.query.Canonical := Object.canonical_of_isCanonical (by decide)
  have hor : (Combinator.ofKey? "$or").isSome = true := rfl
  have hnames : writersBelowOr.NamesWriters (teams.schemaOf "Team") :=
    .inside hor rfl List.mem_cons_self (List.mem_singleton.mpr rfl)
      (.here (List.mem_singleton.mpr rfl) rfl rfl)
  have hgroups : [publicGroup, "u"].eraseDups = [publicGroup, "u"] := by decide
  constructor
  · obtain ⟨deletion, hdeletion⟩ : ∃ deletion,
        ((RowCall.destroy [(objectIdField, .str "t")]).run ⟨{}, .given⟩ "Team"
          (.user "u" [])).sent teams = [.rows deletion] := ⟨_, rfl⟩
    have hnamed := (writers_named_by_restriction_only ⟨{}, .given⟩ "Team"
      (.destroy [(objectIdField, .str "t")]) (.user "u" []) [publicGroup, "u"] rfl rfl hdestroy
        teams
      rfl).1 deletion (hdeletion ▸ List.mem_singleton.mpr rfl)
    rw [RowCall.operation, writerClauses, hgroups] at hnamed
    exact ⟨deletion, hdeletion, hnamed⟩
  · obtain ⟨lookup, hlookup⟩ : ∃ lookup,
        (writersBelowOr.run ⟨{}, .given⟩ "Team" (.user "u" [])).sent teams = [lookup] := ⟨_, rfl⟩
    have hsent := (writers_named_by_restriction_only ⟨{}, .given⟩ "Team" writersBelowOr
      (.user "u" []) [publicGroup, "u"] rfl rfl hquery teams rfl).2 hnames lookup
      (hlookup ▸ List.mem_singleton.mpr rfl)
    exact ⟨lookup, hlookup, hsent⟩

/-- A session that knows no class. -/
def noClasses : Session where
  rowAnswers := []
  changeAnswers := []
  now := ⟨0, 0⟩
  randomBytes := fun _ => Vector.replicate 10 0
  classes := []

/-- An update of posts by who may write them, which may insert one. -/
def insertByWriters : RowCall :=
  .update [(writeColumn, .str "x")] [("title", .str "x")] { upsert := true }

/-- A session that knows one class, with a relation whose name starts like a path of the column of
writers. -/
def followedPosts : Session where
  rowAnswers := []
  changeAnswers := []
  now := ⟨0, 0⟩
  randomBytes := fun _ => Vector.replicate 10 0
  classes := [("Post", (Schema.ofClass "Post").withField "_wperm.x" (.relation userClass))]

/-- An update that names the writers creates its class before it is refused; a search that is made
on behalf of an update is restricted to the writers; and one by a relation that is named like a path
of the column is answered. -/
theorem writers_named_in_other_ways :
    (insertByWriters.NamesWriters (noClasses.schemaOf "Post")
      ∧ Statement.table (.createTable "Post" (Classes.columns (.ofClass "Post")))
        ∈ (insertByWriters.run ⟨{}, .recorded⟩ "Post" .anonymous).sent noClasses)
    ∧ (∃ search, ((RowCall.find [] { operation := some .update }).run ⟨{}, .given⟩ "Post"
          .anonymous).sent ownedPosts = [.rows search]
        ∧ search.filter.clausesNaming writeColumn = (openTo writeColumn [publicGroup]).clauses)
    ∧ (followedPosts.schemaOf "Post").field? writeColumn = none
      ∧ Compiler.root "_wperm.x" = writeColumn
      ∧ ∃ lookup search, ((RowCall.find [("_wperm.x", userPointer "u")] {}).run ⟨{}, .given⟩ "Post"
          .anonymous).sent followedPosts = [.relation lookup, .rows search] := by
  refine ⟨⟨.here List.mem_cons_self rfl rfl, ?_⟩, ⟨_, rfl, ?_⟩, rfl, rfl, _, _, rfl⟩
  · obtain ⟨record, hsent⟩ : ∃ record,
        (insertByWriters.run ⟨{}, .recorded⟩ "Post" .anonymous).sent noClasses
          = [.table (.createTable "Post" (Classes.columns (.ofClass "Post"))), .metadata record] :=
      ⟨_, rfl⟩
    exact hsent ▸ List.mem_cons_self
  · rfl

end Request

end ObjectStore
