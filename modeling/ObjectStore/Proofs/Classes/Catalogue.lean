import Mathlib.Data.Set.Insert
import Mathlib.Logic.Function.Basic
import ObjectStore.Proofs.Engine.Transactions
import ObjectStore.Statement.Relation

/-!
# The catalogue behind a journal

What a journal leaves of the classes: `Catalogue` holds the tables that there are and the rows of
the metadata table, and `Replay` goes through the events of a journal and keeps what the engine
would have, also in the middle of transactions. A statement that failed has no effect; a transaction
that is undone has none either, and nor has one that is kept although a statement failed in it.

So an operation that leaves its one transaction undone changes nothing of the classes
(`Journal.Transacted.after_eq`).
-/

namespace ObjectStore

/-- The tables that there are, and the rows of the metadata table by class: each holds a document or
none. -/
structure Catalogue where
  tables : Set String
  documents : String → Option (Option Json)

namespace Json

/-- A document with a part set. What is no object becomes the first element of an array. -/
def withPart (document : Json) (key : String) (value : Json) : Json :=
  match document with
  | .obj members => .obj (Dict.insert members key value)
  | .arr items => .arr (items ++ [.obj [(key, value)]])
  | other => .arr [other, .obj [(key, value)]]

/-- A document with a field set, if it has fields. -/
def withField (document : Json) (field : String) (type : Json) : Json :=
  match document with
  | .obj members =>
    match Dict.get? members "fields" with
    | some (.obj fields) =>
      .obj (Dict.insert members "fields" (.obj (Dict.insert fields field type)))
    | _ => document
  | _ => document

end Json

/-! ## Statements -/

/-- The rows of the metadata table once a statement is done. -/
def MetadataStatement.done (documents : String → Option (Option Json)) :
    MetadataStatement → String → Option (Option Json)
  | .record schema => Function.update documents schema.className
    (documents schema.className <|> some (some schema.toJson))
  | .replace schema => Function.update documents schema.className
    ((documents schema.className).map fun _ => some schema.toJson)
  | .setPart className key value => Function.update documents className
    ((documents className).map fun document =>
      some ((document.getD (.obj [])).withPart key value))
  | .recordField className field type => Function.update documents className
    ((documents className).map fun document =>
      some ((document.getD (.obj [("fields", .obj [])])).withField field type.toJson))
  | .setField className field type => Function.update documents className
    ((documents className).map fun document => document.map (·.withField field type.toJson))
  | .forget className => Function.update documents className none
  | .forgetAll => fun _ => none
  | _ => documents

/-- The catalogue once a statement is done that defines something. -/
def TableStatement.done (c : Catalogue) : TableStatement → Catalogue
  | .createTable table _ => { c with tables := insert table c.tables }
  | .createJoinTable table => { c with tables := insert table.name c.tables }
  | .createMetadataTable => { c with tables := insert metadataTable c.tables }
  | .dropTable table =>
    { tables := c.tables \ {table}
      documents := if table = metadataTable then fun _ => none else c.documents }
  | _ => c

/-- The catalogue once a statement is done. -/
def Statement.done (c : Catalogue) : Statement → Catalogue
  | .metadata statement => { c with documents := statement.done c.documents }
  | .table statement => statement.done c
  | _ => c

/-- A statement that changes nothing of the classes leaves the catalogue as it is. -/
theorem Statement.done_of_not_changesClasses {statement : Statement}
    (h : ¬ statement.ChangesClasses) (c : Catalogue) : statement.done c = c := by
  cases statement with
  | table => exact absurd trivial h
  | metadata statement =>
    -- a statement on the metadata table reads it, or changes what is recorded
    cases statement <;> first | rfl | exact absurd trivial h
  | rows | insert | aggregate | relation => rfl

/-- The name of no join table is that of the metadata table. -/
theorem JoinTable.name_ne_metadataTable (table : JoinTable) : table.name ≠ metadataTable := by
  intro h
  have hsecond := congrArg (fun name => name.toList[1]?) h
  simp [name, metadataTable] at hsecond

/-- Dropping a join table leaves what is recorded of the classes. -/
@[simp] theorem TableStatement.done_dropJoinTable (c : Catalogue) (table : JoinTable) :
    (TableStatement.dropTable table.name).done c
      = { c with tables := c.tables \ {table.name} } := by
  rw [done, if_neg table.name_ne_metadataTable]

/-! ## Journals -/

/-- An open transaction: what there was when it began, and whether a statement has failed in it. -/
structure OpenTransaction where
  before : Catalogue
  failed : Bool

/-- A catalogue in the middle of transactions, the innermost first. -/
structure Replay where
  now : Catalogue
  transactions : List OpenTransaction := []

namespace Replay

/-- What one more event makes of it. -/
def next (r : Replay) : Event → Replay
  | .began _ => { r with transactions := ⟨r.now, false⟩ :: r.transactions }
  | .kept _ =>
    match r.transactions with
    | [] => r
    | transaction :: outer => ⟨if transaction.failed then transaction.before else r.now, outer⟩
  | .undone _ =>
    match r.transactions with
    | [] => r
    | transaction :: outer => ⟨transaction.before, outer⟩
  | .sent statement outcome =>
    if outcome.succeeded then { r with now := statement.done r.now }
    else { r with transactions := r.transactions.modifyHead ({ · with failed := true }) }

/-- What some more events make of it. -/
def after (r : Replay) (events : List Event) : Replay := events.foldl next r

variable {r : Replay} {c : Catalogue} {outer : List OpenTransaction} {depth : Nat}
  {event : Event} {events later : List Event} {statement : Statement} {outcome : Outcome}

@[simp] theorem after_nil (r : Replay) : r.after [] = r := rfl

@[simp] theorem after_cons (r : Replay) (event : Event) (events : List Event) :
    r.after (event :: events) = (r.next event).after events := rfl

/-- Events one after another are gone through one after another. -/
theorem after_append (r : Replay) (events later : List Event) :
    r.after (events ++ later) = (r.after events).after later := List.foldl_append

/-- A statement that succeeds is done. -/
theorem next_succeeded (h : outcome.succeeded = true) (r : Replay) :
    r.next (.sent statement outcome) = { r with now := statement.done r.now } := if_pos h

/-- A statement that fails outside of all transactions has no effect. -/
theorem next_failed (h : outcome.succeeded = false) (c : Catalogue) :
    (⟨c, []⟩ : Replay).next (.sent statement outcome) = ⟨c, []⟩ := by
  simp [next, h]

/-- A read changes nothing, outside of all transactions not even if it fails. -/
theorem next_read (h : event.IsRead) (c : Catalogue) : (⟨c, []⟩ : Replay).next event = ⟨c, []⟩ := by
  cases event with
  | sent statement outcome =>
    have hdone : statement.done c = c := Statement.done_of_not_changesClasses h c
    simp [next, hdone]
  | began | kept | undone => exact h.elim

/-- Reads leave the catalogue as it is. -/
theorem after_reads (h : Event.Reads depth events) (c : Catalogue) :
    (⟨c, []⟩ : Replay).after events = ⟨c, []⟩ := by
  induction events with
  | nil => rfl
  | cons event rest ih =>
    obtain ⟨hevent, hrest⟩ := List.forall_mem_cons.mp h
    rw [after_cons, next_read hevent, ih hrest]

/-! ### Inside a transaction -/

/-- Whatever a statement does, it leaves open the transaction that it is sent in, and no other. -/
theorem exists_next_sent (c : Catalogue) (transaction : OpenTransaction)
    (outer : List OpenTransaction) (statement : Statement) (outcome : Outcome) :
    ∃ now failed, (⟨c, transaction :: outer⟩ : Replay).next (.sent statement outcome)
      = ⟨now, { transaction with failed } :: outer⟩ := by
  cases h : outcome.succeeded with
  | true => exact ⟨statement.done c, transaction.failed, next_succeeded h _⟩
  | false => exact ⟨c, true, by simp [next, h]⟩

/-- What a savepoint around one statement leaves is what the statement does if it succeeds, and what
there was if it fails. -/
theorem after_savepoint (c : Catalogue) (transactions : List OpenTransaction) (depth : Nat)
    (statement : Statement) (outcome : Outcome) (later : List Event) :
    (⟨c, transactions⟩ : Replay).after
        (.began depth :: .sent statement outcome :: .closing depth outcome.succeeded :: later)
      = (⟨if outcome.succeeded then statement.done c else c, transactions⟩ : Replay).after
        later := by
  cases h : outcome.succeeded with
  | true => simp [next, Event.closing, h]
  | false => simp [next, Event.closing, h]

/-- Whatever work in a transaction does, the transaction is open in the end, and what there was when
it began is still known. -/
theorem exists_after_body (h : Event.Body depth events) (c : Catalogue)
    (transaction : OpenTransaction) (outer : List OpenTransaction) :
    ∃ now failed, (⟨c, transaction :: outer⟩ : Replay).after events
      = ⟨now, { transaction with failed } :: outer⟩ := by
  induction h generalizing c transaction with
  | nil => exact ⟨c, transaction.failed, rfl⟩
  | sent statement outcome _ ih =>
    obtain ⟨now, failed, hnext⟩ := exists_next_sent c transaction outer statement outcome
    rw [after_cons, hnext]
    exact ih now { transaction with failed }
  | savepoint statement outcome _ ih =>
    rw [after_savepoint]
    exact ih _ transaction

end Replay

/-- An operation that does not leave its transaction kept changes nothing of the classes. -/
theorem Journal.Transacted.after_eq {depth : Nat} {events : List Event}
    (h : Transacted depth false events) (c : Catalogue) :
    (⟨c, []⟩ : Replay).after events = ⟨c, []⟩ := by
  cases h with
  | unopened hreads => exact Replay.after_reads hreads c
  | opened hreads hbody =>
    -- whatever the body did, undoing goes back to what there was before it
    obtain ⟨now, failed, hafter⟩ := Replay.exists_after_body hbody c ⟨c, false⟩ []
    rw [Replay.after_append, Replay.after_append, Replay.after_reads hreads, Replay.after_cons]
    change ((⟨c, [⟨c, false⟩]⟩ : Replay).after _).after [.undone depth] = _
    rw [hafter]
    rfl

end ObjectStore
