import ObjectStore.Proofs.Classes.Bookkeeping
import ObjectStore.Proofs.Classes.Transactions
import ObjectStore.Proofs.Engine.Traces
import ObjectStore.Proofs.Schema.RoundTrip

/-!
# Classes are read as they were recorded

Creating a class records one schema document under the name of the class. Whoever reads the class
later gets the schema back from that document: its types, permissions and indexes, with what was
absent still absent and what was empty still empty.
-/

namespace ObjectStore.Classes

open Work

variable {schema : Schema}

/-- A statement on the metadata table is the one that records a class. -/
def RecordsOnly (schema : Schema) (statement : Statement) : Prop :=
  ∀ m, statement = .metadata m → m = .record schema

/-- Creating a class changes the metadata table in no other way. -/
theorem ensures_create_recordsOnly (schema : Schema) (s : Session) :
    Ensures (RecordsOnly schema) s (create schema) fun created _ => created = schema :=
  ensures_create (fun _ h => nomatch h) (fun _ _ _ h => nomatch h)
    (fun _ h => (Statement.metadata.inj h).symm) s

/-- A class that was created was recorded. -/
theorem leaves_create (schema : Schema) : Leaves (fun result events => result.isOk →
    ∃ outcome, Event.sent (.metadata (.record schema)) outcome ∈ events) (create schema) := by
  have hsent : Leaves (fun _ events =>
      ∃ outcome, Event.sent (.metadata (.record schema)) outcome ∈ events)
      (execute (.metadata (.record schema))) :=
    leaves_execute (fun _ => ⟨_, List.mem_singleton.mpr rfl⟩)
      fun _ => ⟨_, List.mem_singleton.mpr rfl⟩
  have hrecord : Leaves (fun _ events =>
      ∃ outcome, Event.sent (.metadata (.record schema)) outcome ∈ events)
      (changeMetadata (.record schema)) :=
    leaves_bind hsent (fun _ events h => leaves_pure ((List.append_nil events).symm ▸ h))
      fun _ _ h => h
  have hbody : Leaves (fun result events => result.isOk →
      ∃ outcome, Event.sent (.metadata (.record schema)) outcome ∈ events)
      (createAndRecord schema) :=
    leaves_bind (leaves_of_keeps (keeps_createTables schema))
      (fun _ _ _ => hrecord.mono fun _ _ ⟨outcome, hmem⟩ _ =>
        ⟨outcome, List.mem_append_right _ hmem⟩) fun _ _ _ => nofun
  have hkept : Leaves (fun result events => result.isOk →
      ∃ outcome, Event.sent (.metadata (.record schema)) outcome ∈ events)
      (createAndRecord schema).transaction := by
    refine leaves_transaction (hbody.mono ?_)
    intro _ _ h depth hok
    obtain ⟨outcome, hmem⟩ := h hok
    exact ⟨outcome, List.mem_append_left _ (List.mem_cons_of_mem _ hmem)⟩
  refine leaves_bind hkept (fun _ events h => leaves_of_journal_eq fun _ => ⟨rfl, fun _ => ?_⟩)
    fun _ _ _ => nofun
  exact (List.append_nil events).symm ▸ h rfl

/-- A schema is read back under its own name from its document. -/
theorem ofDocument_toJson {schema : Schema} (h : schema.IsFlat) :
    ofDocument schema.className schema.toJson = .ok schema := by
  have hnull : schema.toJson.isNull = false := rfl
  rw [ofDocument, hnull, Schema.ofJson?_toJson h]
  rfl

/-- The recorded schema of a class is the one that its document describes. -/
theorem run_recorded? {className : String} {s : Session} {row : Row} {rows : List Row}
    {answers : List (Result (List Row))} {document : Json}
    (hanswers : s.rowAnswers = .ok (row :: rows) :: answers)
    (hrow : row.json? "schema" = some document) :
    ((recorded? className).run s).1 = (ofDocument className document).map some := by
  have hquery : (Work.query (.metadata (.document className))).run s
      = (.ok (row :: rows), ((Work.query (.metadata (.document className))).run s).2) := by
    refine Prod.ext ?_ rfl
    change s.rowAnswers.headD (.ok []) = _
    rw [hanswers]
    rfl
  have hdocument : ((document? className).run s).1 = .ok (some document) := by
    rw [document?, run_bind, orIfUndefined, run_recover, hquery]
    change Except.ok (row.json? "schema") = _
    rw [hrow]
  rw [recorded?, run_bind]
  rcases hrun : (document? className).run s with ⟨result, s'⟩
  obtain rfl : result = .ok (some document) := by rwa [hrun] at hdocument
  cases hschema : ofDocument className document with
  | ok schema => simp only [hschema]; rfl
  | error e => simp only [hschema]; rfl

/-- For every document that describes a class: creating the class records it if it succeeds, and
changes the metadata table in no other way. What is bound there is a document from which the same
schema is read under the name of the class, so that writing it again gives the same document; and
whoever is given that document for the class gets the schema. -/
theorem recorded_after_create {document : Json} (hcanonical : document.Canonical) {schema : Schema}
    (hread : Schema.ofJson? document = some schema) :
    (∀ s, ((create schema).run s).1.isOk →
        .metadata (.record schema) ∈ (create schema).sent s) ∧
      (∀ s m, .metadata m ∈ (create schema).sent s → m.sql.params
        = [.text (some schema.className), .json schema.toJson, .bool true]) ∧
      ofDocument schema.className schema.toJson = .ok schema ∧
      (ofDocument schema.className schema.toJson).map Schema.toJson = .ok schema.toJson ∧
      ∀ s row rows answers, s.rowAnswers = .ok (row :: rows) :: answers →
        row.json? "schema" = some schema.toJson →
        ((recorded? schema.className).run s).1 = .ok (some schema) := by
  have hback : ofDocument schema.className schema.toJson = .ok schema :=
    ofDocument_toJson (Schema.isFlat_of_ofJson? hcanonical hread)
  refine ⟨fun s hok => (leaves_create schema).mem_sent hok, ?_, hback, ?_, ?_⟩
  · intro s m hm
    obtain rfl : m = .record schema := (ensures_create_recordsOnly schema s).of_mem_sent hm m rfl
    rfl
  · rw [hback]
    rfl
  · intro s row rows answers hanswers hrow
    rw [run_recorded? hanswers hrow, hback]
    rfl

/-- A class in which no one may search, everyone may get, and coaches and owners may update. -/
def teamDocument : Json :=
  .obj
    [("classLevelPermissions", .obj
      [("find", .obj []),
        ("protectedFields", .obj [("*", .arr [.str "notes"])]),
        ("update", .obj [("pointerFields", .arr [.str "owner"]), ("role:coach", .bool true)])]),
    ("className", .str "Team"),
    ("fields", .obj
      [("owner", .obj [("targetClass", .str "_User"), ("type", .str "Pointer")]),
        ("scores", .obj
          [("contents", .obj
              [("contents", .obj [("type", .str "Number")]), ("type", .str "Array")]),
            ("type", .str "Array")])]),
    ("indexes", .obj [("byOwner", .obj [("owner", .int 1)])])]

/-- The closed search stays closed and the open getting stays open. -/
theorem team_recorded_after_create :
    teamDocument.Canonical ∧ ∃ schema, Schema.ofJson? teamDocument = some schema ∧
      schema.permissions.bind (·.find) = some .none ∧ schema.permissions.bind (·.get) = none ∧
      schema.field? "scores" = some (.arrayOf (.arrayOf .number)) ∧
      ofDocument "Team" schema.toJson = .ok schema := by
  have hcanonical : teamDocument.Canonical := Json.canonical_of_isCanonical (by decide)
  obtain ⟨schema, hread, hname, hfind, hget, hscores⟩ : ∃ schema,
      Schema.ofJson? teamDocument = some schema ∧ schema.className = "Team" ∧
      schema.permissions.bind (·.find) = some .none ∧ schema.permissions.bind (·.get) = none ∧
      schema.field? "scores" = some (.arrayOf (.arrayOf .number)) := ⟨_, rfl, rfl, rfl, rfl, rfl⟩
  have h := (recorded_after_create hcanonical hread).2.2.1
  exact ⟨hcanonical, schema, hread, hfind, hget, hscores, hname ▸ h⟩

end ObjectStore.Classes
