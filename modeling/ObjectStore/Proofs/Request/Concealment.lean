import ObjectStore.Proofs.Access.Redaction
import ObjectStore.Proofs.Engine.Agreement
import ObjectStore.Proofs.Request.Sending
import ObjectStore.Relation.Resolve

/-!
# What is kept from callers

A class may keep fields from a caller. Whoever finds or gets objects then sees nothing of these
fields: from rows that differ in them only, the answer is the same (`answer_eq_of_alike`). The one
way around it is the `ACL`, which is made of two columns and has to be kept as well where one of
these is.

Listing distinct values prepares its query in the same way but drops nothing from its answer, so a
field that is kept from a caller may still be listed (`distinct_tells_hidden`).
-/

/-!
## Resolving relations from rows that are alike

Lookups of edges read the two columns of ids only. So where rows that are alike hold the same ids,
lookups agree, and so does all that is resolved with them.
-/

namespace ObjectStore

/-- Rows that are alike hold the same ids. -/
def Row.KeepIds (R : Row → Row → Prop) : Prop :=
  ∀ row row', R row row' → row.text owningColumn = row'.text owningColumn
    ∧ row.text relatedColumn = row'.text relatedColumn

namespace JoinTables

open Work

variable {R : Row → Row → Prop} {tables : JoinTables}

/-- A lookup reads one column of ids, so it agrees where that is the same. -/
theorem agree_idsOf {column : String} (hcolumn : ∀ row row', R row row' →
    row.text column = row'.text column) (statement : RelationStatement) :
    Agree R Eq (idsOf column statement) (idsOf column statement) := by
  refine agree_bind (agree_orIfUndefined (agree_query _ _) .nil) fun rows rows' hrows =>
    agree_ofResult ?_
  have htexts : Result.Agree (List.Forall₂ Eq) (rows.mapM (·.text column))
      (rows'.mapM (·.text column)) :=
    .mapM hrows fun row row' h => hcolumn row row' h ▸ .refl _
  rwa [List.forall₂_eq_eq_eq] at htexts

/-- The owners of objects are the same from rows that hold the same ids. -/
theorem agree_owningIds (hR : Row.KeepIds R) (className field : String) (relatedIds : List String) :
    Agree R Eq (tables.owningIds className field relatedIds)
      (tables.owningIds className field relatedIds) := by
  unfold owningIds
  split
  · exact agree_pure rfl
  · split
    · exact agree_pure rfl
    · exact agree_idsOf (fun row row' h => (hR row row' h).1) _

/-- The objects related to an owner are the same from rows that hold the same ids. -/
theorem agree_relatedIds (hR : Row.KeepIds R) (className field owningId : String) :
    Agree R Eq (tables.relatedIds className field owningId)
      (tables.relatedIds className field owningId) := by
  unfold relatedIds
  split
  · exact agree_pure rfl
  · exact agree_idsOf (fun row row' h => (hR row row' h).2) _

/-- The relations of one level are resolved to the same ids. -/
theorem agree_resolveOwnFields (hR : Row.KeepIds R) (className : String) (schema : Schema)
    (query : Object) :
    Agree R Eq (tables.resolveOwnFields className schema query)
      (tables.resolveOwnFields className schema query) := by
  refine isClosed_agree.foldlM ?_ _ _
  intro query field
  unfold resolveField
  split
  · exact agree_pure rfl
  -- every filter on the field takes one lookup and then changes the query alone
  · refine isClosed_agree.foldlM ?_ _ _
    intro query filter
    exact isClosed_agree.bind (agree_owningIds hR _ _ _) fun _ => agree_pure rfl

/-- The `$relatedTo` of one level is resolved to the same ids. -/
theorem agree_resolveOwnRelatedTo (hR : Row.KeepIds R) (query : Object) :
    Agree R Eq (tables.resolveOwnRelatedTo query) (tables.resolveOwnRelatedTo query) := by
  unfold resolveOwnRelatedTo
  split
  · exact agree_pure rfl
  · refine isClosed_agree.bind (agree_ofResult (.refl _)) ?_
    intro owner
    exact isClosed_agree.bind (agree_relatedIds hR _ _ _) fun ids => agree_pure rfl

/-- Relations are resolved to the same query from rows that hold the same ids. -/
theorem agree_resolve (hR : Row.KeepIds R) (className : String) (schema : Schema) (query : Object) :
    Agree R Eq (do tables.resolveFields className schema (← tables.resolveRelatedTo query))
      (do tables.resolveFields className schema (← tables.resolveRelatedTo query)) := by
  have hrelated : Agree R Eq (tables.resolveRelatedTo query) (tables.resolveRelatedTo query) :=
    isClosed_agree.descend (agree_resolveOwnRelatedTo hR) query
  refine isClosed_agree.bind hrelated ?_
  intro related
  exact isClosed_agree.descend (agree_resolveOwnFields hR className schema) related

end JoinTables

end ObjectStore

namespace ObjectStore

/-! ## Rows that are alike -/

/-- The column in which distinct values come back. -/
def Row.valueColumn : String := "_value"

/-- Two rows are the same but for the records that they carry, and these differ in some fields only;
or neither carries a record, for the same reason. -/
structure Row.AlikeRecords (schema : Schema) (fields : List String) (row row' : Row) : Prop where
  others : ∀ column, column ≠ Row.recordColumn → Dict.get? row column = Dict.get? row' column
  record : Result.Agree (schema.AlikeOutside fields) row.toRecord row'.toRecord

/-- Two rows are the same but for the values of a field that they carry; these differ only if it is
one of some fields, and in what can be decoded. -/
structure Row.AlikeValues (schema : Schema) (fields : List String) (field : String)
    (row row' : Row) : Prop where
  others : ∀ column, column ≠ Row.valueColumn → Dict.get? row column = Dict.get? row' column
  value : row.json? Row.valueColumn = row'.json? Row.valueColumn ∨
    (Compiler.root field ∈ fields ∧
      (∃ value, Objects.decodeValue schema field row = .ok value) ∧
      ∃ value, Objects.decodeValue schema field row' = .ok value)

/-- A column with the same cell has the same text. -/
theorem Row.text_eq_of_get?_eq {row row' : Row} {column : String}
    (h : Dict.get? row column = Dict.get? row' column) : row.text column = row'.text column := by
  rw [text, text, h]

/-- Records are kept in a column of their own, which is none of ids. -/
theorem Row.keepIds_alikeRecords (schema : Schema) (fields : List String) :
    Row.KeepIds (Row.AlikeRecords schema fields) := by
  intro row row' h
  constructor
  · exact text_eq_of_get?_eq (h.others _ (by decide))
  · exact text_eq_of_get?_eq (h.others _ (by decide))

/-- Values are kept in a column of their own, which is none of ids. -/
theorem Row.keepIds_alikeValues (schema : Schema) (fields : List String) (field : String) :
    Row.KeepIds (Row.AlikeValues schema fields field) := by
  intro row row' h
  constructor
  · exact text_eq_of_get?_eq (h.others _ (by decide))
  · exact text_eq_of_get?_eq (h.others _ (by decide))

/-! ## Operations on rows -/

namespace Objects

open Work Access

variable {R : Row → Row → Prop} {className : String} {schema : Schema} {query : Object}
  {fields : List String}

/-- Two objects of which redaction leaves the same. -/
def LeaveSame (fields : List String) (object object' : Object) : Prop :=
  object.Sorted ∧ object'.Sorted ∧ redact object fields = redact object' fields

/-- Two sessions at the same time compile a query to the same filter. -/
theorem agree_filterOf {ignoreCase : Bool} :
    Agree R Eq (filterOf schema query ignoreCase) (filterOf schema query ignoreCase) :=
  isClosed_agree.bind agree_now fun _ => agree_ofResult (.refl _)

/-- Rows with records that differ in dropped fields are decoded to objects that leave the same. -/
theorem agree_decodeRows {rows rows' : List Row}
    (h : List.Forall₂ (Row.AlikeRecords schema fields) rows rows') :
    Result.Agree (List.Forall₂ (LeaveSame fields)) (decodeRows schema rows)
      (decodeRows schema rows') :=
  .mapM h fun _ _ hrow => hrow.record.bind fun _ _ => Schema.agree_decodeRow

/-- A search from such rows gives objects that leave the same. -/
theorem agree_find {settings : Settings} {options : FindOptions} :
    Agree (Row.AlikeRecords schema fields) (List.Forall₂ (LeaveSame fields))
      (find settings className schema query options)
      (find settings className schema query options) := by
  refine agree_bind agree_filterOf ?_
  intro filter _ hfilter
  obtain rfl := hfilter
  refine agree_bind (agree_ofResult (.refl _)) ?_
  intro columns _ hcolumns
  obtain rfl := hcolumns
  exact agree_bind (agree_orIfUndefined (agree_query _ _) .nil) fun _ _ hrows =>
    agree_ofResult (agree_decodeRows hrows)

/-- The values of a field that is not kept are the same. -/
theorem decodeValue_eq_of_alike {field : String} {row row' : Row}
    (hfield : Compiler.root field ∉ fields) (h : Row.AlikeValues schema fields field row row') :
    decodeValue schema field row = decodeValue schema field row' := by
  have hvalue : row.json? "_value" = row'.json? "_value" :=
    h.value.resolve_right fun hmem => hfield hmem.1
  rw [decodeValue, decodeValue, hvalue]

/-- Listing a field that is not kept gives the same values. -/
theorem agree_distinct {field : String} (hfield : Compiler.root field ∉ fields) :
    Agree (Row.AlikeValues schema fields field) Eq (distinct className schema query field)
      (distinct className schema query field) := by
  refine agree_bind agree_filterOf ?_
  intro filter _ hfilter
  obtain rfl := hfilter
  refine agree_bind (agree_recover (agree_query _ _) fun e => ?_) fun rows rows' hrows => ?_
  -- a class without a table or the column has no values, on both sides
  · split
    · exact agree_pure .nil
    · exact agree_throw e
  · have hvalues : Result.Agree (List.Forall₂ Eq) (rows.mapM (decodeValue schema field))
        (rows'.mapM (decodeValue schema field)) :=
      .mapM hrows fun row row' h => decodeValue_eq_of_alike hfield h ▸ .refl _
    rw [List.forall₂_eq_eq_eq] at hvalues
    exact agree_bind (agree_ofResult hvalues) fun _ _ hvalue => agree_pure (hvalue ▸ rfl)

end Objects

namespace Request

open Access Work Objects

/-! ## Calls -/

/-- A call that answers with objects of a class, or with values of a field. -/
inductive ReadCall where
  | find (query : Object) (options : FindOptions)
  | get (id : String)
  | distinct (query : Object) (field : String)

namespace ReadCall

/-- The call among all calls on rows. -/
def toRowCall : ReadCall → RowCall
  | .find query options => .find query options
  | .get id => .get id
  | .distinct query field => .distinct query field

/-- What a call answers. -/
def answer (store : Store) (className : String) (caller : Caller) : ReadCall → Work (List Json)
  | .find query options => do
    pure ((← Request.find store className query options caller).map Json.obj)
  | .get id => do pure [.obj (← Request.get store className id caller)]
  | .distinct query field => Request.distinct store className query field caller

/-- What is prepared for a call. -/
def prepare (store : Store) (className : String) (caller : Caller) (call : ReadCall) :
    Work (Option PreparedRead) :=
  prepareRead store className call.toRowCall.query call.toRowCall.operation caller

/-- Rows that differ, for what a call reads of them, only in the values of some fields. -/
def RowsAlike (schema : Schema) (fields : List String) : ReadCall → Row → Row → Prop
  | .find .. | .get _ => Row.AlikeRecords schema fields
  | .distinct _ field => Row.AlikeValues schema fields field

/-- A call has no way around what is kept: the `ACL` is not made of it, and it is not listed. -/
def Conceals (fields : List String) : ReadCall → Prop
  | .find .. | .get _ => ConcealsAcl fields
  | .distinct _ field => Compiler.root field ∉ fields

end ReadCall

variable {R : Row → Row → Prop} {store : Store} {className : String} {op : Operation}
  {caller : Caller} {query : Object} {s s' : Session} {read : PreparedRead} {fields : List String}

/-! ## Preparing -/

/-- Preparing a read comes to the same: it reads the classes, and rows of ids only. -/
theorem agree_prepareRead (hR : Row.KeepIds R) :
    Agree R Eq (prepareRead store className query op caller)
      (prepareRead store className query op caller) := by
  have hloaded : Agree R Eq (Classes.loaded? className) (Classes.loaded? className) :=
    isClosed_agree.bind agree_classes fun _ => agree_pure rfl
  have hauthorize : Agree R Eq (authorize className caller op) (authorize className caller op) := by
    unfold authorize
    split
    · refine isClosed_agree.bind (isClosed_agree.bind hloaded fun _ => agree_pure rfl) ?_
      intro permissions
      exact agree_ofResult (.refl _)
    · exact agree_pure rfl
  -- the class, the right to read it, its relations, and the restriction to what the caller may see
  refine isClosed_agree.bind hloaded ?_
  intro loaded
  cases loaded with
  | none => exact agree_pure rfl
  | some schema =>
    refine isClosed_agree.bind hauthorize fun _ => ?_
    have hresolve : Agree R Eq (resolveRelations className schema query)
        (resolveRelations className schema query) := by
      refine isClosed_agree.bind ?_ fun tables => JoinTables.agree_resolve hR className schema query
      exact isClosed_agree.bind (isClosed_agree.bind agree_classes fun _ => agree_pure rfl)
        fun _ => agree_pure rfl
    refine isClosed_agree.bind hresolve ?_
    intro resolved
    refine isClosed_agree.bind (agree_ofResult (.refl _)) ?_
    intro restricted
    cases restricted with
    | none => exact agree_pure rfl
    | some restricted =>
      exact isClosed_agree.bind (agree_ofResult (.refl _)) fun _ => agree_pure rfl

/-- What is prepared in one session is prepared in any that is alike. -/
theorem agreeFrom_prepareRead (hR : Row.KeepIds R) (hs : Session.Alike R s s')
    (h : ((prepareRead store className query op caller).run s).1 = .ok (some read)) :
    AgreeFrom R (fun prepared prepared' => prepared = some read ∧ prepared' = some read) s s'
      (prepareRead store className query op caller)
      (prepareRead store className query op caller) := by
  obtain ⟨hresult, hafter⟩ := agree_prepareRead hR s s' hs
  refine ⟨?_, hafter⟩
  rw [← hresult.eq, h]
  exact .ok ⟨rfl, rfl⟩

/-! ## Answering -/

/-- Objects of which redaction leaves the same are presented alike. -/
theorem map_present_eq (hconceals : ConcealsAcl fields) {objects objects' : List Object}
    (h : List.Forall₂ (LeaveSame fields) objects objects') :
    objects.map (present (some fields)) = objects'.map (present (some fields)) := by
  induction h with
  | nil => rfl
  | cons hobject _ ih =>
    obtain ⟨hsorted, hsorted', hsame⟩ := hobject
    rw [List.map_cons, List.map_cons, ih, present, present, Option.getD_some,
      redact_toWire_congr hconceals hsorted hsorted' hsame]

/-- A search that is prepared to keep some fields presents the same objects. -/
theorem agreeFrom_find {options : FindOptions} (hhidden : read.hidden = some fields)
    (hconceals : ConcealsAcl fields)
    (hs : Session.Alike (Row.AlikeRecords read.schema fields) s s')
    (h : ((prepareRead store className query (options.operation.getD .find) caller).run s).1
      = .ok (some read)) :
    AgreeFrom (Row.AlikeRecords read.schema fields) Eq s s'
      (find store className query options caller) (find store className query options caller) := by
  refine agreeFrom_bind (agreeFrom_prepareRead (Row.keepIds_alikeRecords _ _) hs h) ?_
  intro _ _ hprepared
  obtain ⟨rfl, rfl⟩ := hprepared
  refine isClosed_agree.bind (agree_ofResult (.refl _)) ?_
  intro sort
  refine agree_bind (agree_rewordFailure Objects.agree_find) fun objects objects' hobjects =>
    agree_pure ?_
  rw [hhidden]
  exact map_present_eq hconceals hobjects

/-- What a call that has no way around them answers does not depend on the fields that are kept from
the caller: it is the same from rows that differ in these fields only. -/
theorem answer_eq_of_alike (store : Store) (className : String) (call : ReadCall)
    (hprepared : ((call.prepare store className caller).run s).1 = .ok (some read))
    (hhidden : read.hidden = some fields) (hconceals : call.Conceals fields)
    (hs : Session.Alike (call.RowsAlike read.schema fields) s s') :
    ((call.answer store className caller).run s).1
      = ((call.answer store className caller).run s').1 := by
  have hagree : AgreeFrom (call.RowsAlike read.schema fields) Eq s s'
      (call.answer store className caller) (call.answer store className caller) := by
    cases call with
    | find query options =>
      exact agreeFrom_bind (agreeFrom_find hhidden hconceals hs hprepared) fun _ _ h =>
        agree_pure (h ▸ rfl)
    -- getting an object is searching for it and failing where nothing is found
    | get id =>
      have hget : AgreeFrom (Row.AlikeRecords read.schema fields) Eq s s'
          (get store className id caller) (get store className id caller) := by
        refine agreeFrom_bind (agreeFrom_find hhidden hconceals hs hprepared) ?_
        intro objects _ h
        obtain rfl := h
        cases objects with
        | nil => exact agree_throw _
        | cons object rest => exact agree_pure rfl
      exact agreeFrom_bind hget fun _ _ h => agree_pure (h ▸ rfl)
    | distinct query field =>
      refine agreeFrom_bind (agreeFrom_prepareRead (Row.keepIds_alikeValues _ _ _) hs hprepared) ?_
      intro _ _ h
      obtain ⟨rfl, rfl⟩ := h
      exact agree_rewordFailure (Objects.agree_distinct hconceals)
  exact hagree.1.eq

/-- A session that knows one class, one field of which is kept from everyone, and that is about to
be given one row. -/
def guardedPosts (row : Row) : Session where
  rowAnswers := [.ok [row]]
  changeAnswers := []
  now := ⟨0, 0⟩
  randomBytes := fun _ => Vector.replicate 10 0
  classes :=
    [("Post", { (Schema.ofClass "Post").withField "secret" .string with
      permissions := some { protectedFields := [(publicGroup, ["secret"])] } })]

/-- A row that carries a post with a secret. -/
def postRow (secret : String) : Row :=
  [(Row.recordColumn, .json (some (.obj [(objectIdField, .str "p"), ("secret", .str secret)])))]

/-- A row that carries a value. -/
def valueRow (value : String) : Row := [(Row.valueColumn, .json (some (.str value)))]

/-- Everyone finds the same post, whatever its secret is. -/
theorem find_conceals_secret :
    (((ReadCall.find [] {}).answer ⟨{}, .given⟩ "Post" .anonymous).run
        (guardedPosts (postRow "x"))).1
      = (((ReadCall.find [] {}).answer ⟨{}, .given⟩ "Post" .anonymous).run
          (guardedPosts (postRow "y"))).1 := by
  have hlt : objectIdField < "secret" := by decide
  have hsorted : ∀ secret, Dict.Sorted [(objectIdField, Json.str "p"), ("secret", .str secret)] :=
    fun secret => Dict.sorted_cons.mpr ⟨List.forall_mem_singleton.mpr hlt, Dict.sorted_singleton _⟩
  refine answer_eq_of_alike ⟨{}, .given⟩ "Post" (.find [] {}) rfl rfl (Or.inr (by decide))
    ⟨rfl, rfl, .cons (.ok (.cons ⟨?_, .ok ?_⟩ .nil)) .nil⟩
  · intro column hcolumn
    simp [postRow, Dict.get?, Ne.symm hcolumn]
  · refine ⟨hsorted "x", hsorted "y", ?_⟩
    intro name
    by_cases hname : name = "secret"
    · subst hname
      exact Or.inr ⟨List.mem_singleton.mpr rfl, fun _ h => Option.some.inj h ▸ ⟨_, rfl⟩,
        fun _ h => Option.some.inj h ▸ ⟨_, rfl⟩⟩
    · exact Or.inl (by simp [Dict.get?, Ne.symm hname])

/-- Listing the values of a field that is kept from everyone tells them to everyone. -/
theorem distinct_tells_hidden :
    (∃ read, (((ReadCall.distinct [] "secret").prepare ⟨{}, .given⟩ "Post" .anonymous).run
          (guardedPosts (valueRow "x"))).1 = .ok (some read) ∧
        read.hidden = some ["secret"] ∧
        Session.Alike ((ReadCall.distinct [] "secret").RowsAlike read.schema ["secret"])
          (guardedPosts (valueRow "x")) (guardedPosts (valueRow "y"))) ∧
      (((ReadCall.distinct [] "secret").answer ⟨{}, .given⟩ "Post" .anonymous).run
          (guardedPosts (valueRow "x"))).1
        ≠ (((ReadCall.distinct [] "secret").answer ⟨{}, .given⟩ "Post" .anonymous).run
            (guardedPosts (valueRow "y"))).1 := by
  have hanswer : ∀ value, (((ReadCall.distinct [] "secret").answer ⟨{}, .given⟩ "Post"
      .anonymous).run (guardedPosts (valueRow value))).1 = .ok [.str value] := fun _ => rfl
  refine ⟨⟨_, rfl, rfl, rfl, rfl, .cons (.ok (.cons ⟨?_, Or.inr ?_⟩ .nil)) .nil⟩, ?_⟩
  · intro column hcolumn
    simp [valueRow, Dict.get?, Ne.symm hcolumn]
  · exact ⟨List.mem_singleton.mpr rfl, ⟨_, rfl⟩, ⟨_, rfl⟩⟩
  · intro heq
    rw [hanswer, hanswer] at heq
    exact absurd (Json.str.inj (List.head_eq_of_cons_eq (Except.ok.inj heq))) (by decide)

end Request

end ObjectStore
