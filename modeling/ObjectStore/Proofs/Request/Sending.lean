import ObjectStore.Proofs.Objects.Sending
import ObjectStore.Proofs.Request.Prepare
import ObjectStore.Request.Read
import ObjectStore.Request.Write

/-!
# What calls on rows send

Every call on the rows of a class prepares its query (`RowCall.Prepares`) and hands it to one
operation on rows, which compiles it and sends its statements; the rest is bookkeeping, an insertion
by an upsert, or an estimate where there is nothing to filter by. `Covers` puts together what a
property must hold of for this, and `ensures_run` goes through the calls one by one, each from its
first piece of work to its last.
-/

namespace ObjectStore

namespace Request

open Access Result Work Statement Objects

/-! ## Calls on rows -/

/-- A call that reads, changes or deletes rows of a class. -/
inductive RowCall where
  | find (query : Object) (options : FindOptions)
  | get (id : String)
  | count (query : Object)
  | distinct (query : Object) (field : String)
  | update (query submitted : Object) (options : UpdateOptions)
  | destroy (query : Object)

namespace RowCall

/-- What the client asks for. -/
def query : RowCall → Object
  | .get id => [(objectIdField, .str id)]
  | .find query _ | .count query | .distinct query _ | .update query .. | .destroy query => query

/-- The operation that a caller must be granted. -/
def operation : RowCall → Operation
  | .find _ options => options.operation.getD .find
  | .get _ => .get
  | .count _ => .count
  | .distinct query _ => distinctOperation query
  | .update .. => .update
  | .destroy _ => .delete

/-- What a call does. -/
def run (store : Store) (className : String) (caller : Caller) : RowCall → Work Unit
  | .find query options => do let _ ← Request.find store className query options caller
  | .get id => do let _ ← Request.get store className id caller
  | .count query => do let _ ← Request.count store className query caller
  | .distinct query field => do let _ ← Request.distinct store className query field caller
  | .update query submitted options => do
    let _ ← Request.update store className query submitted options caller
  | .destroy query => Request.destroy className query caller

/-- What the query of a call is compiled against. -/
def compiler (call : RowCall) (settings : Settings) (className : String) (s : Session) : Compiler :=
  let ignoreCase := match call with
    | .find _ options => options.ignoreCase || settings.ignoresCase
    | .get _ => settings.ignoresCase
    | _ => false
  .ofSchema (s.schemaOf className) ignoreCase s.now

/-- What a call asks of the rows: on reads, the query with its relations resolved. -/
def asked (call : RowCall) (className : String) (s : Session) : Result Object :=
  match call with
  | .update query .. | .destroy query => .ok query
  | _ => ((resolveRelations className (s.schemaOf className) call.query).run s).1

/-- Whether constraints may move into branches, which only reads let them. -/
def moves (call : RowCall) (settings : Settings) : Bool :=
  match call with
  | .update .. | .destroy _ => false
  | _ => settings.movesOrConstraints

/-- What a call is prepared to: what it asks, restricted to what pointer fields permit and then to
the rows that are open to the groups of the caller, and found valid. -/
structure Prepares (call : RowCall) (settings : Settings) (className : String)
    (groups : List String) (s : Session) (asked permitted prepared : Object) : Prop where
  asked_eq : call.asked className s = .ok asked
  canonical : asked.Canonical
  permitted_eq : restrictToPointers (s.schemaOf className) call.operation asked groups
    = .ok (some permitted)
  prepared_eq : validate (call.moves settings) (restrictTo call.operation permitted groups)
    = .ok prepared

/-- The query of a call restricted for its caller; nothing if the caller can see nothing. -/
def restrict (call : RowCall) (schema : Schema) (caller : Caller) (query : Object) :
    Result (Option Object) :=
  match call with
  | .update .. | .destroy _ => do pure (some (← restrictWrite schema call.operation caller query))
  | _ => do pure ((← restrictRead schema call.operation caller query).map Prod.fst)

/-- What a call of any caller is prepared to: what it asks, restricted for the caller and found
valid. -/
structure PreparesFor (call : RowCall) (settings : Settings) (className : String) (caller : Caller)
    (s : Session) (asked restricted prepared : Object) : Prop where
  asked_eq : call.asked className s = .ok asked
  canonical : call.query.Canonical → asked.Canonical
  restricted_eq : call.restrict (s.schemaOf className) caller asked = .ok (some restricted)
  prepared_eq : validate (call.moves settings) restricted = .ok prepared

/-- A query is restricted for a caller by pointer fields first and by its column then. -/
theorem restrict_eq_ok {call : RowCall} {schema : Schema} {caller : Caller} {groups : List String}
    {asked restricted : Object} (hcaller : caller.groups? = some groups)
    (h : call.restrict schema caller asked = .ok (some restricted)) :
    ∃ permitted, restrictToPointers schema call.operation asked groups = .ok (some permitted)
      ∧ restricted = restrictTo call.operation permitted groups := by
  have hread : ∀ op, (do pure ((← restrictRead schema op caller asked).map Prod.fst))
      = .ok (some restricted) → ∃ permitted,
        restrictToPointers schema op asked groups = .ok (some permitted)
          ∧ restricted = restrictTo op permitted groups := by
    intro op h
    obtain ⟨found, hfound, h⟩ := bind_eq_ok.mp h
    obtain ⟨⟨_, hidden⟩, rfl, rfl⟩ := Option.map_eq_some_iff.mp (pure_eq_ok.mp h)
    exact restrictRead_eq_ok hcaller hfound
  have hwrite : ∀ op, op = .update ∨ op = .delete →
      (do pure (some (← restrictWrite schema op caller asked))) = .ok (some restricted) →
      ∃ permitted, restrictToPointers schema op asked groups = .ok (some permitted)
        ∧ restricted = restrictTo op permitted groups := by
    intro op hop h
    obtain ⟨found, hfound, h⟩ := bind_eq_ok.mp h
    obtain rfl := Option.some.inj (pure_eq_ok.mp h)
    exact restrictWrite_eq_ok hop hcaller hfound
  cases call with
  | update => exact hwrite _ (Or.inl rfl) h
  | destroy => exact hwrite _ (Or.inr rfl) h
  | find | get | count | distinct => exact hread _ h

/-- The query of a master is not restricted. -/
theorem restrict_eq_ok_of_master {call : RowCall} {schema : Schema} {caller : Caller}
    {asked restricted : Object} (hcaller : caller.groups? = none)
    (h : call.restrict schema caller asked = .ok (some restricted)) : restricted = asked := by
  have hread : ∀ op, restrictRead schema op caller asked = .ok (some (asked, none)) := by
    intro op
    rw [restrictRead, hcaller]
  have hwrite : ∀ op, restrictWrite schema op caller asked = .ok asked := by
    intro op
    rw [restrictWrite, hcaller]
  have hrestrict : call.restrict schema caller asked = .ok (some asked) := by
    cases call <;> simp only [restrict, hread, hwrite] <;> rfl
  exact Option.some.inj (Except.ok.inj (h.symm.trans hrestrict))

/-- What a call is prepared to on behalf of some groups. -/
theorem PreparesFor.exists_prepares {call : RowCall} {settings : Settings} {className : String}
    {caller : Caller} {groups : List String} {s : Session} {asked restricted prepared : Object}
    (h : call.PreparesFor settings className caller s asked restricted prepared)
    (hcaller : caller.groups? = some groups) (hq : call.query.Canonical) :
    ∃ permitted, call.Prepares settings className groups s asked permitted prepared := by
  obtain ⟨permitted, hpermitted, rfl⟩ := restrict_eq_ok hcaller h.restricted_eq
  exact ⟨permitted, h.asked_eq, h.canonical hq, hpermitted, h.prepared_eq⟩

/-- A call may insert a row: it is an update of one object that may create what it does not
match. -/
def mayInsert : RowCall → Bool
  | .update _ _ options => !options.many && options.upsert
  | _ => false

end RowCall

/-- A property of all that a call may send on behalf of some groups. -/
structure Covers (P : Statement → Prop) (call : RowCall) (settings : Settings) (className : String)
    (groups : List String) (s : Session) : Prop where
  bookkeeping : ∀ statement, statement.IsBookkeeping → P statement
  insertion : OnInsert P className (s.schemaOf className)
  filtered : ∀ asked permitted prepared,
    call.Prepares settings className groups s asked permitted prepared →
      OnFilter (fun _ => True) P className (call.compiler settings className s) prepared
  estimate : ∀ asked permitted prepared filter,
    call.Prepares settings className groups s asked permitted prepared →
      Filter.ofQuery (call.compiler settings className s) prepared = .ok filter →
      filter.predicate = none → P (.metadata (.rowEstimate className))

/-- A property of all that a call may send on behalf of any caller. -/
structure CoversFor (P : Statement → Prop) (call : RowCall) (settings : Settings)
    (className : String) (caller : Caller) (s : Session) : Prop where
  bookkeeping : ∀ statement, statement.IsBookkeeping → P statement
  insertion : call.mayInsert = true → s.Permits className caller call.operation →
    OnInsert P className (s.schemaOf className)
  filtered : ∀ asked restricted prepared,
    call.PreparesFor settings className caller s asked restricted prepared →
      OnFilter (fun _ => True) P className (call.compiler settings className s) prepared
  estimate : ∀ asked restricted prepared filter,
    call.PreparesFor settings className caller s asked restricted prepared →
      Filter.ofQuery (call.compiler settings className s) prepared = .ok filter →
      filter.predicate = none → P (.metadata (.rowEstimate className))

variable {P : Statement → Prop} {store : Store} {className : String} {schema : Schema}
  {op : Operation} {caller : Caller} {groups : List String} {query : Object} {s : Session}

/-- What is sent on behalf of some groups is sent on behalf of a caller. -/
theorem Covers.toCaller {call : RowCall} {settings : Settings}
    (h : Covers P call settings className groups s) (hcaller : caller.groups? = some groups)
    (hq : call.query.Canonical) : CoversFor P call settings className caller s where
  bookkeeping := h.bookkeeping
  insertion _ _ := h.insertion
  filtered asked restricted prepared hp := by
    obtain ⟨permitted, hprepares⟩ := hp.exists_prepares hcaller hq
    exact h.filtered asked permitted prepared hprepares
  estimate asked restricted prepared filter hp := by
    obtain ⟨permitted, hprepares⟩ := hp.exists_prepares hcaller hq
    exact h.estimate asked permitted prepared filter hprepares

/-! ## Reading -/

/-- A call that reads goes on with what is prepared for it. -/
theorem ensures_bind_prepareRead {α : Type} (call : RowCall) {f : Option PreparedRead → Work α}
    {Q : α → Session → Prop} (hlookup : ∀ statement, statement.IsLookup → P statement)
    (hrestrict : ∀ schema asked, call.restrict schema caller asked
      = (do pure ((← restrictRead schema call.operation caller asked).map Prod.fst)))
    (hasked : call.asked className s
      = ((resolveRelations className (s.schemaOf className) call.query).run s).1)
    (hmoves : call.moves store.settings = store.settings.movesOrConstraints)
    (hnone : ∀ s', Ensures P s' (f none) Q)
    (hsome : ∀ read s', s'.now = s.now → read.schema = s.schemaOf className →
      (∃ asked restricted,
        call.PreparesFor store.settings className caller s asked restricted read.query) →
      Ensures P s' (f (some read)) Q) :
    Ensures P s (prepareRead store className call.query call.operation caller >>= f) Q := by
  refine ensures_bind
    ((ensures_prepareRead store className call.query call.operation caller s).weaken hlookup) ?_
  intro prepared s' hs hprepared
  cases prepared with
  | none => exact hnone s'
  | some read =>
    obtain ⟨hschema, asked, restricted, hrun, hcanonical, hrestricted, hvalid⟩ :=
      hprepared read rfl
    refine hsome read s' hs.now hschema ⟨asked, restricted, hasked.trans hrun, hcanonical,
      ?_, hmoves ▸ hvalid⟩
    rw [hrestrict, hrestricted]
    rfl

/-- What is covered holds of lookups. -/
theorem CoversFor.lookup {call : RowCall} {settings : Settings}
    (h : CoversFor P call settings className caller s) {statement : Statement}
    (hlookup : statement.IsLookup) : P statement :=
  h.bookkeeping statement hlookup.isBookkeeping

/-- A search sends what it is covered for: lookups, and a statement with the filter of its query. -/
theorem ensures_find {options : FindOptions}
    (h : CoversFor P (.find query options) store.settings className caller s) :
    Ensures P s (find store className query options caller) fun _ _ => True := by
  refine ensures_bind_prepareRead (.find query options) (fun _ => h.lookup) (fun _ _ => rfl) rfl rfl
    (fun s' => sends_ofResult _ s') ?_
  intro read s' hnow hschema hprepares
  obtain ⟨asked, restricted, hprepares⟩ := hprepares
  have hfiltered := h.filtered asked restricted read.query hprepares
  refine ensures_bind (sends_ofResult _ s') ?_
  intro sort s₁ hs₁ _
  have hsent : Ensures P s₁ ((Objects.find store.settings className read.schema read.query
      { options with sort }).rewordFailure concealStorage) fun _ _ => True := by
    refine ensures_rewordFailure (Objects.ensures_find (OnFilter.only ?_ fun _ _ => trivial))
    rwa [hschema, hs₁.now, hnow]
  exact ensures_bind hsent fun _ s₂ _ _ => ensures_pure trivial

/-- Getting an object is finding it by its id. -/
theorem CoversFor.find_of_get {id : String}
    (h : CoversFor P (.get id) store.settings className caller s) :
    CoversFor P (.find [(objectIdField, .str id)] { limit := some 1, operation := some .get })
      store.settings className caller s where
  bookkeeping := h.bookkeeping
  insertion := h.insertion
  filtered asked restricted prepared hp := h.filtered asked restricted prepared
    ⟨hp.asked_eq, hp.canonical, hp.restricted_eq, hp.prepared_eq⟩
  estimate asked restricted prepared filter hp := h.estimate asked restricted prepared filter
    ⟨hp.asked_eq, hp.canonical, hp.restricted_eq, hp.prepared_eq⟩

/-- Getting an object sends what finding it does. -/
theorem ensures_get {id : String} (h : CoversFor P (.get id) store.settings className caller s) :
    Ensures P s (get store className id caller) fun _ _ => True := by
  refine ensures_bind (ensures_find h.find_of_get) ?_
  intro objects s' _ _
  split
  · exact ensures_pure trivial
  · exact ensures_throw

/-- A count sends a statement with the filter of its query, or asks for the estimate where it has
none. -/
theorem ensures_count (h : CoversFor P (.count query) store.settings className caller s) :
    Ensures P s (count store className query caller) fun _ _ => True := by
  refine ensures_bind_prepareRead (.count query) (fun _ => h.lookup) (fun _ _ => rfl) rfl rfl
    (fun s' => ensures_pure trivial) ?_
  intro read s' hnow hschema hprepares
  obtain ⟨asked, restricted, hprepares⟩ := hprepares
  have hfiltered := h.filtered _ _ _ hprepares
  have hestimate := fun filter => h.estimate _ _ _ filter hprepares
  refine ensures_rewordFailure (Objects.ensures_count (OnFilter.only ?_ fun _ _ => trivial) ?_)
  · rwa [hschema, hnow]
  · rwa [hschema, hnow]

/-- A list of distinct values sends a statement with the filter of its query. -/
theorem ensures_distinct {field : String}
    (h : CoversFor P (.distinct query field) store.settings className caller s) :
    Ensures P s (distinct store className query field caller) fun _ _ => True := by
  refine ensures_bind_prepareRead (.distinct query field) (fun _ => h.lookup) (fun _ _ => rfl) rfl
    rfl (fun s' => ensures_pure trivial) ?_
  intro read s' hnow hschema hprepares
  obtain ⟨asked, restricted, hprepares⟩ := hprepares
  have hfiltered := h.filtered asked restricted read.query hprepares
  refine ensures_rewordFailure (Objects.ensures_distinct (OnFilter.only ?_ fun _ _ => trivial))
  rwa [hschema, hnow]

/-! ## Writing -/

/-- What the query of a call that writes is prepared to is what the call is prepared to. -/
theorem exists_preparesFor (call : RowCall) (settings : Settings) {prepared : Object}
    (hrestrict : ∀ schema asked, call.restrict schema caller asked
      = (do pure (some (← restrictWrite schema call.operation caller asked))))
    (hasked : call.asked className s = .ok call.query) (hmoves : call.moves settings = false)
    (h : prepareWrite (s.schemaOf className) call.operation caller call.query = .ok prepared) :
    ∃ restricted, call.PreparesFor settings className caller s call.query restricted prepared := by
  obtain ⟨restricted, hrestricted, hvalid⟩ := bind_eq_ok.mp h
  refine ⟨restricted, hasked, id, ?_, hmoves ▸ hvalid⟩
  rw [hrestrict, hrestricted]
  rfl

/-- A deletion sends a statement with the filter of its query. -/
theorem ensures_destroy (h : CoversFor P (.destroy query) store.settings className caller s) :
    Ensures P s (destroy className query caller) fun _ _ => True := by
  refine ensures_bind (ensures_authorize className caller .delete s) ?_
  intro _ s₁ _ hs
  obtain ⟨rfl, _⟩ := hs
  refine ensures_bind (Classes.ensures_loaded? className s₁) ?_
  intro loaded s₂ _ hs
  obtain ⟨rfl, rfl⟩ := hs
  refine ensures_bind_ofResult ?_
  intro prepared hprepared
  obtain ⟨restricted, hprepares⟩ := exists_preparesFor (.destroy query) store.settings
    (fun _ _ => rfl) rfl rfl hprepared
  have hfiltered := h.filtered query restricted prepared hprepares
  exact ensures_bind (Objects.ensures_delete (hfiltered.only fun _ _ => trivial))
    fun _ _ _ _ => ensures_pure trivial

/-- The class of an update is the loaded one, or a new one if there may be none. -/
theorem ensures_classToUpdate {upsert : Bool} (hcreates : upsert = true →
    s.classes.get? className = none → ∀ statement, statement.Creates className → P statement) :
    Ensures P s (classToUpdate store className upsert) fun schema _ =>
      schema = s.schemaOf className := by
  refine ensures_bind (Classes.ensures_loaded? className s) ?_
  intro loaded s₁ _ h
  obtain ⟨rfl, rfl⟩ := h
  cases hget : s₁.classes.get? className with
  | some schema => exact ensures_pure (by rw [Session.schemaOf, hget]; rfl)
  | none =>
    dsimp only
    split
    next hupsert => exact Classes.ensures_require store.source s₁ (hcreates hupsert)
    next => exact ensures_throw

/-- The current date is the time at which the call began. -/
theorem ensures_currentDate :
    Ensures P s currentDate fun date _ => ∃ iso, s.now.toIso = .ok iso ∧ date = .ofDate iso := by
  refine ensures_bind ensures_now ?_
  intro now s' _ h
  obtain ⟨rfl, rfl⟩ := h
  exact ensures_bind_ofResult fun iso hiso => ensures_pure ⟨iso, hiso, rfl⟩

/-- An update as it is written at a time: with this time, if its class has a place for it. -/
def IsTimed (schema : Schema) (now : Timestamp) (stored written : Object) : Prop :=
  if schema.hasField updatedAtField then
    ∃ iso, now.toIso = .ok iso ∧ written = stored.insert updatedAtField (.ofDate iso)
  else written = stored

/-- An update gets the time at which the call began. -/
theorem ensures_withUpdateTime (schema : Schema) (stored : Object) :
    Ensures P s (withUpdateTime schema stored) fun written _ =>
      IsTimed schema s.now stored written := by
  unfold withUpdateTime IsTimed
  split
  · refine ensures_bind ensures_currentDate ?_
    intro date s' _ h
    obtain ⟨iso, hiso, rfl⟩ := h
    exact ensures_pure ⟨iso, hiso, rfl⟩
  · exact ensures_pure rfl

/-- Applying changes to relations is bookkeeping. -/
theorem sends_applyRelations (className : String) (id : Option String)
    (updates : List RelationUpdate) :
    Sends IsBookkeeping (applyRelations className id updates) := by
  unfold applyRelations
  split
  · exact sends_pure _
  · split
    · exact sends_pure _
    · exact sends_bind sends_joinTables fun tables => JoinTables.sends_applyUpdates _ _ _

/-- A new object as it is inserted at a time: with an id, and with this time where its class has a
place for it, as far as it had none. -/
def IsCompleted (schema : Schema) (now : Timestamp) (stored object : Object) : Prop :=
  ∃ id iso, now.toIso = .ok iso ∧
    object = ([createdAtField, updatedAtField].filter schema.hasField).foldl
      (fun object field => withDefault object field (.ofDate iso))
      (withDefault stored objectIdField (.str id))

/-- A new object gets an id if it has none. -/
theorem ensures_withId (object : Object) :
    Ensures P s (withId object) fun created _ =>
      ∃ id, created = withDefault object objectIdField (.str id) := by
  unfold withId withDefault
  split
  · exact ensures_pure ⟨"", rfl⟩
  · exact ensures_bind (sends_freshId s) fun id s' _ _ => ensures_pure ⟨id, rfl⟩

/-- A new object gets the time at which the call began where it has no time. -/
theorem ensures_withTimestamps (schema : Schema) (object : Object) :
    Ensures P s (withTimestamps schema object) fun created _ => ∃ iso, s.now.toIso = .ok iso ∧
      created = ([createdAtField, updatedAtField].filter schema.hasField).foldl
        (fun object field => withDefault object field (.ofDate iso)) object := by
  refine ensures_bind ensures_currentDate ?_
  intro date s' _ h
  obtain ⟨iso, hiso, rfl⟩ := h
  exact ensures_pure ⟨iso, hiso, rfl⟩

/-- What creating an object sends is bookkeeping, or inserts what its stored form is completed to.
-/
theorem ensures_create_of {submitted : Object}
    (hbook : ∀ statement, statement.IsBookkeeping → P statement)
    (h : ∀ stored object, s.Permits className caller .create → storedForm submitted = .ok stored →
      IsCompleted (s.schemaOf className) s.now (RelationUpdate.remaining stored) object →
        OnInsertOf P className (s.schemaOf className) object) :
    Ensures P s (create store className submitted caller) fun _ _ => True := by
  refine ensures_bind_ofResult ?_
  intro stored hstored
  refine ensures_bind (ensures_authorize className caller .create s) ?_
  intro _ s₁ _ hs
  obtain ⟨rfl, hpermits⟩ := hs
  refine ensures_bind (Classes.ensures_require store.source s₁
    fun _ statement hst => hbook statement hst.isBookkeeping) ?_
  intro schema s₂ hs₂ hschema
  obtain rfl := hschema
  refine ensures_bind (ensures_withId _) ?_
  intro identified s₃ hs₃ hid
  obtain ⟨id, rfl⟩ := hid
  refine ensures_bind (ensures_withTimestamps _ _) ?_
  intro object s₄ hs₄ htimes
  obtain ⟨iso, hiso, rfl⟩ := htimes
  have hnow : s₃.now = s₁.now := hs₃.now.trans hs₂.now
  -- the one insertion, which the authorization went before
  have hinsert := sends_insertOf (h stored _ hpermits hstored ⟨id, iso, hnow ▸ hiso, rfl⟩)
  refine ensures_bind (hinsert s₄) ?_
  intro created s₅ _ _
  exact ensures_bind ((sends_applyRelations _ _ _).weaken hbook s₅) fun _ _ _ _ =>
    ensures_pure trivial

/-- However an update is written, what it sends to rows has the filter of its query and assigns
what it says; one that may create the object that it does not match may insert it first. -/
theorem ensures_writeUpdate {update : Object} (options : UpdateOptions)
    (h : OnFilter (fun action => IsUpdate schema update action ∨ IsUpdateOne schema update action) P
      className (.ofSchema schema false s.now) query)
    (hinsert : options.many = false → options.upsert = true →
      OnInsertOf P className schema (described query update)) :
    Ensures P s (writeUpdate className schema query update options) fun _ _ => True := by
  have hone := h.only fun _ => Or.inr
  unfold writeUpdate
  cases hmany : options.many with
  | true => exact Objects.ensures_updateAll (h.only fun _ => Or.inl)
  | false =>
    cases hupsert : options.upsert with
    | true =>
      exact ensures_bind (Objects.ensures_upsert hone (hinsert hmany hupsert))
        fun _ _ _ _ => ensures_pure trivial
    | false =>
      refine ensures_bind (Objects.ensures_updateOne hone) ?_
      intro changed s₁ _ _
      split
      · exact ensures_pure trivial
      · exact ensures_throw

/-- What an update is prepared to: its query restricted for the caller and found valid, and what it
writes. -/
structure RowCall.Updates (className : String) (caller : Caller) (s : Session)
    (query submitted prepared written : Object) : Prop where
  prepared_eq : prepareWrite (s.schemaOf className) .update caller query = .ok prepared
  written_eq : ∃ stored, storedUpdate (RelationUpdate.remaining submitted) = .ok stored ∧
    IsTimed (s.schemaOf className) s.now stored written

/-- What an update sends is bookkeeping, changes rows by what it is prepared to, or inserts the
object that its query and itself describe. -/
theorem ensures_update_of {submitted : Object} {options : UpdateOptions}
    (hbook : ∀ statement, statement.IsBookkeeping → P statement)
    (h : ∀ prepared written, s.Permits className caller .update →
      RowCall.Updates className caller s query submitted prepared written →
        OnFilter (fun action => IsUpdate (s.schemaOf className) written action
          ∨ IsUpdateOne (s.schemaOf className) written action) P className
          (.ofSchema (s.schemaOf className) false s.now) prepared
        ∧ (options.many = false → options.upsert = true →
          OnInsertOf P className (s.schemaOf className) (described prepared written))) :
    Ensures P s (update store className query submitted options caller) fun _ _ => True := by
  refine ensures_bind (ensures_authorize className caller .update s) ?_
  intro _ s₁ _ hs
  obtain ⟨rfl, hpermits⟩ := hs
  refine ensures_bind
    (ensures_classToUpdate fun _ _ statement hst => hbook statement hst.isBookkeeping) ?_
  intro schema s₂ hs₂ hschema
  obtain rfl := hschema
  refine ensures_bind_ofResult ?_
  intro prepared hprepared
  refine ensures_bind_ofResult ?_
  intro stored hstored
  refine ensures_bind (ensures_withUpdateTime _ _) ?_
  intro written s₃ hs₃ hwritten
  -- the query is compiled only now, at the time at which the call began
  have hnow : s₃.now = s₁.now := hs₃.now.trans hs₂.now
  obtain ⟨hfiltered, hinsert⟩ :=
    h prepared written hpermits ⟨hprepared, stored, hstored, hs₂.now ▸ hwritten⟩
  refine ensures_bind (ensures_writeUpdate options (hnow ▸ hfiltered) hinsert) ?_
  intro rows s₄ _ _
  have hrelations : Sends P (rows.forM fun row =>
      applyRelations className (idOf row) (RelationUpdate.collect submitted)) :=
    sends_forM fun row _ => (sends_applyRelations _ _ _).weaken hbook
  exact ensures_bind (hrelations s₄) fun _ _ _ _ => ensures_pure trivial

/-- An update sends what it is covered for. -/
theorem ensures_update {submitted : Object} {options : UpdateOptions}
    (h : CoversFor P (.update query submitted options) store.settings className caller s) :
    Ensures P s (update store className query submitted options caller) fun _ _ => True := by
  refine ensures_update_of h.bookkeeping ?_
  intro prepared written hpermits hupdates
  obtain ⟨restricted, hprepares⟩ := exists_preparesFor (.update query submitted options)
    store.settings (fun _ _ => rfl) rfl rfl hupdates.prepared_eq
  refine ⟨(h.filtered query restricted prepared hprepares).only fun _ _ => trivial, ?_⟩
  intro hmany hupsert
  refine (h.insertion ?_ hpermits).of
  simp [RowCall.mayInsert, hmany, hupsert]

/-! ## All calls -/

/-- All that a call sends on behalf of a caller has every property that covers it. -/
theorem ensures_runFor (call : RowCall)
    (h : CoversFor P call store.settings className caller s) :
    Ensures P s (call.run store className caller) fun _ _ => True := by
  cases call with
  | find query options =>
    exact ensures_bind (ensures_find h) fun _ _ _ _ => ensures_pure trivial
  | get id =>
    exact ensures_bind (ensures_get h) fun _ _ _ _ => ensures_pure trivial
  | count query =>
    exact ensures_bind (ensures_count h) fun _ _ _ _ => ensures_pure trivial
  | distinct query field =>
    exact ensures_bind (ensures_distinct h) fun _ _ _ _ => ensures_pure trivial
  | update query submitted options =>
    exact ensures_bind (ensures_update h) fun _ _ _ _ => ensures_pure trivial
  | destroy query => exact ensures_destroy h

/-- All that a call sends on behalf of some groups has every property that covers it. -/
theorem ensures_run (hcaller : caller.groups? = some groups) (call : RowCall)
    (hq : call.query.Canonical) (h : Covers P call store.settings className groups s) :
    Ensures P s (call.run store className caller) fun _ _ => True :=
  ensures_runFor call (h.toCaller hcaller hq)

end Request

end ObjectStore
