import ObjectStore.Proofs.Access.StoredRow
import ObjectStore.Proofs.Access.Validate
import ObjectStore.Proofs.Request.Sending

/-!
# Callers reach admissible rows only

As long as no constraint is moved into branches, validation leaves the restricted query of a call as
it is. So each statement with its filter reaches rows that the restricted query admits, and these
are admissible (`onFilter_restrictTo`); and there always is a filter, as rows that are closed to all
do not pass (`predicate_ne_none`).
-/

namespace ObjectStore

/-- A statement on rows reaches allowed rows of one class only, and no other statement tells
anything of rows. -/
def Statement.OnlyReaches (className : String) (allowed : StoredRow → Prop) : Statement → Prop
  | .rows r => r.table = className ∧ ∀ table row, r.Reaches table row → allowed row
  | .aggregate .. | .metadata (.rowEstimate _) => False
  | .insert .. | .relation _ | .metadata _ | .table _ => True

theorem Statement.IsBookkeeping.onlyReaches {className : String} {allowed : StoredRow → Prop}
    {statement : Statement} (h : statement.IsBookkeeping) :
    statement.OnlyReaches className allowed := by
  match statement with
  | .relation _ | .table _ => trivial
  | .metadata m =>
    cases m with
    | rowEstimate => exact h.elim
    | _ => trivial
  | .rows _ | .insert .. | .aggregate .. => exact h.elim

namespace Request

open Access Result Work Statement Objects

variable {store : Store} {className : String} {schema : Schema} {op : Operation} {caller : Caller}
  {groups : List String} {query asked permitted : Object} {s : Session} {call : RowCall}

/-! ## Statements with a restricted filter -/

/-- Statements with the filter of a restricted query reach admissible rows only. -/
theorem onFilter_restrictTo (ignoreCase : Bool) (now : Timestamp) (hq : asked.Canonical)
    (hpublic : publicGroup ∈ groups)
    (hp : restrictToPointers schema op asked groups = .ok (some permitted)) :
    OnFilter (fun _ => True) (OnlyReaches className
        (Admissible (.ofSchema schema ignoreCase now) schema op groups asked))
      className (.ofSchema schema ignoreCase now) (restrictTo op permitted groups) := by
  intro filter action hf _
  refine ⟨rfl, fun table row hreach => admissible_of_admits hq hpublic hp ?_⟩
  exact (Compiler.holds_ofQuery_iff hf).mp (RowStatement.reaches_iff.mp hreach).2

/-- The filter of a restricted query has a condition: rows that are closed to all do not pass. -/
theorem predicate_ne_none {ignoreCase : Bool} {now : Timestamp} {filter : Filter}
    (hq : asked.Canonical) (hpublic : publicGroup ∈ groups)
    (hp : restrictToPointers schema op asked groups = .ok (some permitted))
    (hf : Filter.ofQuery (.ofSchema schema ignoreCase now) (restrictTo op permitted groups)
      = .ok filter) : filter.predicate ≠ none := by
  intro hnone
  -- without a condition, a row that is closed to all would pass
  let row : StoredRow := ⟨"", none, none, fun _ => none⟩
  have hholds : filter.Holds (row.closed (permissionColumn op)).truth :=
    Filter.holds_of_predicate_eq_none hnone _
  exact not_isOpenTo_closed (isPermission_permissionColumn op)
    (admissible_of_admits hq hpublic hp ((Compiler.holds_ofQuery_iff hf).mp hholds)).isOpen

/-! ## All calls -/

/-- As long as no constraint is moved, a call is prepared to its restricted query. -/
theorem RowCall.Prepares.eq_restrictTo {settings : Settings} {prepared : Object}
    (h : call.Prepares settings className groups s asked permitted prepared)
    (hstay : call.moves settings = false) :
    prepared = restrictTo call.operation permitted groups := by
  have hvalid := h.prepared_eq
  rw [hstay] at hvalid
  exact validate_eq_self
    (canonical_restrictTo (canonical_restrictToPointers h.canonical h.permitted_eq)) hvalid

/-- As long as no constraint is moved, reaching admissible rows only covers a call. -/
theorem covers_onlyReaches {settings : Settings} (hstay : call.moves settings = false)
    (hcaller : caller.groups? = some groups) :
    Covers (OnlyReaches className fun row => ∃ asked, call.asked className s = .ok asked ∧
      Admissible (call.compiler settings className s) (s.schemaOf className) call.operation groups
        asked row) call settings className groups s where
  bookkeeping _ h := h.onlyReaches
  insertion _ _ _ := trivial
  filtered asked permitted prepared hp filter action hf haction := by
    rw [hp.eq_restrictTo hstay] at hf
    obtain ⟨htable, hreach⟩ := onFilter_restrictTo _ s.now hp.canonical (publicGroup_mem hcaller)
      hp.permitted_eq filter action hf haction
    exact ⟨htable, fun table row h => ⟨asked, hp.asked_eq, hreach table row h⟩⟩
  estimate asked permitted prepared filter hp hf hnone := by
    rw [hp.eq_restrictTo hstay] at hf
    exact absurd hnone
      (predicate_ne_none hp.canonical (publicGroup_mem hcaller) hp.permitted_eq hf)

theorem RowCall.moves_eq_false {settings : Settings} (call : RowCall)
    (hoff : settings.movesOrConstraints = false) : call.moves settings = false := by
  cases call with
  | update _ _ _ | destroy _ => rfl
  | find _ _ | get _ | count _ | distinct _ _ => exact hoff

/-- Whatever a caller that is no master asks for, every statement that a call sends reaches only
rows that are open to the caller, that answer the query, and that point at the caller where only
pointer fields grant the operation; and no other statement tells anything of rows. -/
theorem sent_onlyReaches_admissible (store : Store) (className : String) (call : RowCall)
    (hoff : store.settings.movesOrConstraints = false) (hcaller : caller.groups? = some groups)
    (hq : call.query.Canonical) (s : Session) (statement : Statement)
    (hsent : statement ∈ (call.run store className caller).sent s) :
    statement.OnlyReaches className fun row => ∃ asked, call.asked className s = .ok asked ∧
      Admissible (call.compiler store.settings className s) (s.schemaOf className) call.operation
        groups asked row :=
  (ensures_run hcaller call hq
    (covers_onlyReaches (call.moves_eq_false hoff) hcaller)).of_mem_sent hsent

/-- A session that knows one class, whose objects only their owners may find. -/
def ownedPosts : Session where
  rowAnswers := []
  changeAnswers := []
  now := ⟨0, 0⟩
  randomBytes := fun _ => Vector.replicate 10 0
  classes :=
    [("Post", { (Schema.ofClass "Post").withField "owner" (.pointer userClass) with
      permissions := some { find := some ⟨false, ["owner"], []⟩ } })]

/-- Finding posts by title sends one statement, and it reaches admissible rows only. -/
theorem find_sent_onlyReaches_admissible :
    ∃ statement,
      (RowCall.run ⟨{}, .given⟩ "Post" (.user "u" []) (.find [("title", .str "x")] {})).sent
        ownedPosts
        = [statement] ∧
      statement.OnlyReaches "Post" fun row => ∃ asked,
        (RowCall.find [("title", .str "x")] {}).asked "Post" ownedPosts = .ok asked ∧
        Admissible ((RowCall.find [("title", .str "x")] {}).compiler {} "Post" ownedPosts)
          (ownedPosts.schemaOf "Post") .find [publicGroup, "u"] asked row := by
  have hquery : Object.Canonical [("title", .str "x")] :=
    ⟨Dict.sorted_singleton _, List.forall_mem_singleton.mpr (.str "x")⟩
  obtain ⟨statement, hsent⟩ : ∃ statement,
      (RowCall.run ⟨{}, .given⟩ "Post" (.user "u" []) (.find [("title", .str "x")] {})).sent
        ownedPosts
        = [statement] := ⟨_, rfl⟩
  refine ⟨statement, hsent, ?_⟩
  exact sent_onlyReaches_admissible ⟨{}, .given⟩ "Post" (.find [("title", .str "x")] {}) rfl rfl
    hquery ownedPosts statement (hsent ▸ List.mem_singleton.mpr rfl)

/-- A search on behalf of an update is restricted by the groups that may write, so it reads rows
that are closed to all readers. -/
theorem find_for_update_reaches_unreadable :
    ∃ r table row,
      Statement.rows r ∈ (RowCall.run ⟨{}, .given⟩ "Post" .anonymous
        (.find [] { operation := some .update })).sent ownedPosts ∧
      r.Reaches table row ∧ ¬ row.IsOpenTo readColumn [publicGroup] := by
  let row : StoredRow := ⟨"post", none, none, fun _ => none⟩
  have hsent : (RowCall.run ⟨{}, .given⟩ "Post" .anonymous
      (.find [] { operation := some .update })).sent ownedPosts
      = [.rows ⟨"Post", ⟨some (openTo writeColumn [publicGroup]), []⟩,
          .find (Sql.text "*") [] none none⟩] := rfl
  refine ⟨_, ⟨[row.closed readColumn], List.nodup_singleton _⟩, row.closed readColumn,
    hsent ▸ List.mem_singleton.mpr rfl, ?_, not_isOpenTo_closed (Or.inl rfl)⟩
  refine RowStatement.reaches_iff.mpr ⟨List.mem_singleton.mpr rfl, ?_⟩
  intro p hp
  obtain rfl := Option.some.inj hp
  exact (truth_openTo (Or.inr rfl)).mpr ⟨none, rfl, nofun⟩

end Request

end ObjectStore
