import ObjectStore.Proofs.Access.Asked
import ObjectStore.Proofs.Access.Unasked
import ObjectStore.Proofs.Relation.Unresolved
import ObjectStore.Proofs.Request.Sending

/-!
# Relations are no columns

A relation has its edges in a join table, so no condition on the rows of its class may name it as a
column. Reads resolve the relations on all levels of their queries first; what stands below `$nor`,
and the query of a write, goes to the compiler as it is (`RowCall.unresolved`). As long as this
names no relation, no statement does: all that restricting and validating a query add are pointer
fields and permission columns.
-/

namespace ObjectStore

/-- A class has a relation as a column of its rows, which it must not. -/
def Schema.isRelationColumn (schema : Schema) (name : String) : Bool :=
  (schema.forStorage.field? name).any FieldType.isRelation

/-- Whether the column that a field is written with is that of a relation. -/
def Schema.asksRelation (schema : Schema) (field : String) : Bool :=
  schema.isRelationColumn (Compiler.root field)

/-- A statement on rows whose condition names a relation as a column. -/
def Statement.NamesRelation (schema : Schema) : Statement → Prop
  | .rows r => ∃ name, ⟨.name, name⟩ ∈ r.filter.sql.quotes ∧ schema.isRelationColumn name = true
  | .insert .. | .aggregate .. | .relation _ | .metadata _ | .table _ => False

open Access Result Work Statement Objects
open Compiler (AsksOnly)

variable {schema : Schema} {field name : String}

theorem Statement.IsBookkeeping.not_namesRelation {statement : Statement}
    (h : statement.IsBookkeeping) : ¬ statement.NamesRelation schema := by
  cases statement with
  | rows => exact h.elim
  | insert | aggregate | relation | metadata | table => exact id

theorem root_eq_of_mem_pathQuotes (h : ⟨.name, name⟩ ∈ Sql.pathQuotes field) :
    name = Compiler.root field := by
  unfold Sql.pathQuotes at h
  unfold Compiler.root
  split at h
  next => exact (List.not_mem_nil h).elim
  next root rest hsplit =>
    rw [hsplit]
    simpa using h

theorem root_of_not_contains (h : Text.contains field "." = false) :
    Compiler.root field = field := by
  rw [Compiler.root, Text.split_of_not_contains h]
  rfl

namespace Access

/-- The columns of permissions are lists of groups. -/
theorem asksRelation_permission {column : String} (h : IsPermission column) :
    schema.asksRelation column = false := by
  have hroot : Compiler.root column = column := by rcases h with rfl | rfl <;> rfl
  rw [Schema.asksRelation, hroot, Schema.isRelationColumn, field?_forStorage schema h]
  rfl

/-- What is a relation in the stored form of a class is one in the class. -/
theorem isRelation_of_isRelationColumn (h : schema.isRelationColumn name = true) :
    (schema.field? name).any FieldType.isRelation = true := by
  by_cases hpermission : IsPermission name
  · rw [Schema.isRelationColumn, field?_forStorage schema hpermission] at h
    cases h
  · rw [IsPermission, not_or] at hpermission
    rw [Schema.isRelationColumn, Schema.field?, Schema.forStorage,
      Dict.get?_insert_of_ne _ _ hpermission.2, Dict.get?_insert_of_ne _ _ hpermission.1] at h
    by_cases hacl : name = aclField
    · rw [hacl, Dict.get?_erase_self] at h
      cases h
    · rwa [Dict.get?_erase_of_ne hacl] at h

/-- A relation points at nobody. -/
theorem asksRelation_pointsTo {user : String} {constraint : Json}
    (hdot : Text.contains field "." = false) (h : pointsTo schema field user = .ok constraint) :
    schema.asksRelation field = false := by
  rw [Schema.asksRelation, root_of_not_contains hdot, ← Bool.not_eq_true]
  intro hcolumn
  have hrelation := isRelation_of_isRelationColumn hcolumn
  cases hfield : schema.field? field with
  | none =>
    rw [hfield] at hrelation
    cases hrelation
  | some type =>
    rw [hfield] at hrelation
    cases type with
    | relation target =>
      unfold pointsTo at h
      rw [hfield] at h
      cases h
    | _ => cases hrelation

end Access

namespace Request

variable {store : Store} {settings : Settings} {className : String} {caller : Caller}
  {call : RowCall} {s : Session} {asked restricted prepared : Object} {P : String → Prop}

/-- The fields of a query that reach the compiler as they are, by their names and constraints: on
reads, all but the relations and `$relatedTo` on its levels. -/
def RowCall.unresolved (call : RowCall) (schema : Schema) : List (String × Json) :=
  match call with
  | .update query .. | .destroy query => Compiler.leaves query
  | _ => Query.unresolved (JoinTables.isResolved schema) call.query

/-- What a call asks is what it leaves unresolved, and the object id. -/
theorem asksOnly_asked (hq : call.query.Canonical) (hid : P objectIdField)
    (hunresolved : ∀ field ∈ call.unresolved (s.schemaOf className), P field.1)
    (h : call.asked className s = .ok asked) : AsksOnly P asked := by
  have hread : (∀ field ∈ Query.unresolved (JoinTables.isResolved (s.schemaOf className))
    call.query,
      P field.1) →
      ((resolveRelations className (s.schemaOf className) call.query).run s).1 = .ok asked →
      AsksOnly P asked := by
    intro hunresolved hrun
    have hresolved : Ensures IsLookup s
        (resolveRelations className (s.schemaOf className) call.query) fun resolved _ =>
          AsksOnly P resolved :=
      ensures_bind (sends_joinTables s) fun tables s₁ _ _ =>
        JoinTables.ensures_resolve_asksOnly className _ hid hq hunresolved s₁
    exact hresolved.result asked hrun
  cases call with
  | update | destroy =>
    obtain rfl := Except.ok.inj h
    exact hunresolved
  | find | get | count | distinct => exact hread hunresolved h

/-- What a call is prepared to asks what the call leaves unresolved, and about columns that the
restriction adds. -/
theorem RowCall.PreparesFor.asksOnly
    (h : call.PreparesFor settings className caller s asked restricted prepared)
    (hq : call.query.Canonical) (hid : P objectIdField)
    (hpermission : ∀ column, IsPermission column → P column)
    (hpointers : ∀ field ∈ pointerFields (s.schemaOf className) call.operation,
      (∃ user constraint, pointsTo (s.schemaOf className) field user = .ok constraint) → P field)
    (hunresolved : ∀ field ∈ call.unresolved (s.schemaOf className), P field.1) :
    AsksOnly P prepared := by
  have hasked : AsksOnly P asked := asksOnly_asked hq hid hunresolved h.asked_eq
  refine asksOnly_validate ?_ h.prepared_eq
  cases hcaller : caller.groups? with
  | none =>
    obtain rfl := RowCall.restrict_eq_ok_of_master hcaller h.restricted_eq
    exact hasked
  | some groups =>
    obtain ⟨permitted, hpermitted, rfl⟩ := RowCall.restrict_eq_ok hcaller h.restricted_eq
    rw [restrictTo_eq]
    refine asksOnly_restrict (hpermission _ (isPermission_permissionColumn _)) rfl ?_
    exact asksOnly_restrictToPointers (h.canonical hq) hpointers hpermitted hasked

/-! ## Statements -/

/-- A statement with the filter of a query that asks about no relation names none. -/
theorem onFilter_not_namesRelation {c : Compiler} {query : Object}
    (h : AsksOnly (fun field => schema.asksRelation field = false) query) :
    OnFilter (fun _ => True) (fun statement => ¬ statement.NamesRelation schema) className c
      query := by
  rintro filter action hf _ ⟨name, hname, hcolumn⟩
  have hreads := Compiler.reads_ofQuery hf
  rw [hreads.quotes_eq] at hname
  obtain ⟨field, hfield, hpath⟩ := Compiler.exists_leaf_of_quoted hname
  rw [root_eq_of_mem_pathQuotes hpath] at hcolumn
  exact Bool.false_ne_true ((h field hfield).symm.trans hcolumn)

/-- A call whose query leaves no relation unresolved sends no condition that names a relation as a
column, whoever makes it. -/
theorem sent_not_namesRelation (store : Store) (className : String) (call : RowCall)
    (caller : Caller) (hq : call.query.Canonical) (s : Session)
    (hid : (s.schemaOf className).asksRelation objectIdField = false)
    (hpointers : ∀ field ∈ pointerFields (s.schemaOf className) call.operation,
      Text.contains field "." = false)
    (hunresolved : ∀ field ∈ call.unresolved (s.schemaOf className),
      (s.schemaOf className).asksRelation field.1 = false)
    (statement : Statement) (hsent : statement ∈ (call.run store className caller).sent s) :
    ¬ statement.NamesRelation (s.schemaOf className) := by
  have hcovers : CoversFor (fun statement => ¬ statement.NamesRelation (s.schemaOf className)) call
      store.settings className caller s := by
    refine ⟨fun _ h => h.not_namesRelation, fun _ _ _ _ _ => id, ?_, fun _ _ _ _ _ _ _ => id⟩
    intro _ _ prepared hp
    refine onFilter_not_namesRelation
      (hp.asksOnly hq hid (fun _ h => asksRelation_permission h) ?_ hunresolved)
    intro field hf hpoints
    obtain ⟨user, constraint, hpoints⟩ := hpoints
    exact asksRelation_pointsTo (hpointers field hf) hpoints
  exact (ensures_runFor call hcovers).of_mem_sent hsent

/-- A session that knows one class, whose objects have members. -/
def teams : Session where
  rowAnswers := []
  changeAnswers := []
  now := ⟨0, 0⟩
  randomBytes := fun _ => Vector.replicate 10 0
  classes := [("Team", (Schema.ofClass "Team").withField "members" (.relation userClass))]

/-- Teams by a member or by their id. -/
def memberOrTeam : RowCall :=
  .find [("$or", .arr
    [.obj [("members", userPointer "u")], .obj [(objectIdField, .str "t")]])] {}

/-- Finding teams so asks the join table first and names no relation then. -/
theorem find_not_namesRelation :
    ∃ lookup search, (memberOrTeam.run ⟨{}, .given⟩ "Team" .master).sent teams
        = [.relation lookup, search] ∧ ¬ search.NamesRelation (teams.schemaOf "Team") := by
  obtain ⟨lookup, search, hsent⟩ : ∃ lookup search,
      (memberOrTeam.run ⟨{}, .given⟩ "Team" .master).sent teams = [.relation lookup, search] :=
    ⟨_, _, rfl⟩
  have hpointer : (userPointer "u").Canonical := by
    rw [← toJson_user]
    exact Json.canonical_ofEntries (by simp [Json.Canonical.str])
  have hbranch : ∀ {key value}, Json.Canonical value → (Json.obj [(key, value)]).Canonical :=
    fun h => .obj (Dict.sorted_singleton _) (List.forall_mem_singleton.mpr h)
  have hquery : memberOrTeam.query.Canonical :=
    ⟨Dict.sorted_singleton _, List.forall_mem_singleton.mpr (.arr (List.forall_mem_cons.mpr
      ⟨hbranch hpointer, List.forall_mem_singleton.mpr (hbranch (.str "t"))⟩))⟩
  refine ⟨lookup, search, hsent, ?_⟩
  exact sent_not_namesRelation ⟨{}, .given⟩ "Team" memberOrTeam .master hquery teams (by decide)
    (by decide) (by decide) search (hsent ▸ List.mem_cons_of_mem _ List.mem_cons_self)

/-- Destroying teams by a member names the relation. -/
theorem destroy_namesRelation :
    ∃ deletion, (RowCall.run ⟨{}, .given⟩ "Team" .master
        (.destroy [("members", userPointer "u")])).sent teams = [deletion] ∧
      deletion.NamesRelation (teams.schemaOf "Team") :=
  ⟨_, rfl, "members", by decide, by decide⟩

end Request

end ObjectStore
