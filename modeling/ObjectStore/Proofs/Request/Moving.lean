import ObjectStore.Proofs.Access.Moving
import ObjectStore.Proofs.Access.Unasked
import ObjectStore.Proofs.Request.Enforcement

/-!
# Moving constraints and the restriction to groups

A store may move the constraints of a query into the branches of its `$or`, and the restriction to
the groups of the caller is one of them. It moves into every branch, so it is kept wherever there
are branches. Where an `$or` has none, the restriction is lost (`RowCall.LosesRestriction`): then a
call that reaches any row reaches rows that are closed to everyone.
-/

namespace ObjectStore.Request

open Access Objects Result Sql Statement Work

variable {settings : Settings} {className : String} {caller : Caller} {groups : List String}
  {asked permitted prepared : Object} {s : Session} {call : RowCall} {filter : Filter}
  {row : StoredRow}

/-- The restriction of a call to the groups of its caller moves into an `$or` without branches. -/
def RowCall.LosesRestriction (call : RowCall) (settings : Settings) (className : String)
    (groups : List String) (s : Session) : Prop :=
  call.moves settings = true ∧ ∃ asked permitted, call.asked className s = .ok asked ∧
    restrictToPointers (s.schemaOf className) call.operation asked groups = .ok (some permitted) ∧
    permitted.get? "$or" = some (.arr [])

namespace RowCall.Prepares

/-- What a call is prepared to tells whether it loses the restriction. -/
theorem losesRestriction_iff
    (h : call.Prepares settings className groups s asked permitted prepared) :
    call.LosesRestriction settings className groups s ↔
      call.moves settings = true ∧ permitted.get? "$or" = some (.arr []) := by
  constructor
  · rintro ⟨hmoves, asked', permitted', hasked, hpermitted, hor⟩
    obtain rfl := Except.ok.inj (h.asked_eq.symm.trans hasked)
    obtain rfl := Option.some.inj (Except.ok.inj (h.permitted_eq.symm.trans hpermitted))
    exact ⟨hmoves, hor⟩
  · rintro ⟨hmoves, hor⟩
    exact ⟨hmoves, asked, permitted, h.asked_eq, h.permitted_eq, hor⟩

theorem sorted (h : call.Prepares settings className groups s asked permitted prepared) :
    (restrictTo call.operation permitted groups).Sorted :=
  (canonical_restrictTo (canonical_restrictToPointers h.canonical h.permitted_eq)).sorted

theorem get?_or (op : Operation) (permitted : Object) (groups : List String) :
    (restrictTo op permitted groups).get? "$or" = permitted.get? "$or" := by
  rw [restrictTo_eq]
  exact get?_restrict_of_ne permitted _ (permissionColumn_ne op rfl).symm (by decide)

/-- A call that keeps the restriction filters by it. -/
theorem isOpenTo_of_holds (h : call.Prepares settings className groups s asked permitted prepared)
    (hpublic : publicGroup ∈ groups) (hkept : ¬ call.LosesRestriction settings className groups s)
    (hf : Filter.ofQuery (call.compiler settings className s) prepared = .ok filter)
    (hholds : filter.Holds row.truth) : row.IsOpenTo (permissionColumn call.operation) groups := by
  have hkeeps : Keeps (permissionColumn call.operation)
      (oneOf (permissionGroups call.operation groups)) prepared := by
    refine keeps_of_validate (by cases call.operation <;> rfl)
      (get?_restrictTo call.operation permitted groups) (fun hmoves hor => hkept ?_) h.prepared_eq
    rw [get?_or] at hor
    exact h.losesRestriction_iff.mpr ⟨hmoves, hor⟩
  exact isOpenTo_of_admitsEntry hpublic
    (admitsEntry_of_keeps hkeeps ((Compiler.holds_ofQuery_iff hf).mp hholds))

/-- A call that loses the restriction is left with no field that is the column of the restriction,
or a path into it. -/
theorem not_mem_pathQuotes (h : call.Prepares settings className groups s asked permitted prepared)
    (hlost : call.LosesRestriction settings className groups s) {field : String × Json}
    (hfield : field ∈ Compiler.leaves prepared) :
    ⟨.name, permissionColumn call.operation⟩ ∉ pathQuotes field.1 := by
  obtain ⟨hmoves, hor⟩ := h.losesRestriction_iff.mp hlost
  have hvalid := h.prepared_eq
  rw [hmoves] at hvalid
  have hleft := mem_of_validate h.sorted ((get?_or ..).trans hor) hvalid
  have hbare : ∀ entry ∈ prepared, Compiler.leavesOfClause entry.2 = [] := by
    intro entry hentry
    rcases hleft entry hentry with rfl | ⟨_, hnear⟩
    · rfl
    · obtain ⟨fields, hobj⟩ := exists_obj_of_looksNear hnear
      rw [hobj, Compiler.leavesOfClause]
      exact fun _ h => by cases h
  have hentry := Compiler.mem_of_mem_leaves hbare hfield
  intro hquote
  have hkey := name_eq_of_mem_pathQuotes (isPermission_permissionColumn call.operation)
    (isQueryKey_of_validate hvalid hentry) hquote
  rcases hleft field hentry with rfl | ⟨hmem, hnear⟩
  · exact permissionColumn_ne call.operation rfl hkey.symm
  · -- the column has the restriction, which looks near to no place
    have hvalue := h.sorted.get?_eq_some_iff.mpr hmem
    rw [hkey, get?_restrictTo] at hvalue
    rw [← Option.some.inj hvalue] at hnear
    exact Bool.false_ne_true hnear

/-- A call that loses the restriction filters alike if the column of the restriction is closed. -/
theorem holds_closed (h : call.Prepares settings className groups s asked permitted prepared)
    (hlost : call.LosesRestriction settings className groups s)
    (hf : Filter.ofQuery (call.compiler settings className s) prepared = .ok filter)
    (hholds : filter.Holds row.truth) :
    filter.Holds (row.closed (permissionColumn call.operation)).truth :=
  (holds_closed_iff hf fun _ hfield => h.not_mem_pathQuotes hlost hfield).mpr hholds

end RowCall.Prepares

/-! ## Statements -/

/-- What a call reaches is open to its caller, unless it loses the restriction; then it reaches rows
that are closed to everyone, or none at all. -/
theorem covers_onlyReaches_open_iff (hcaller : caller.groups? = some groups) :
    Covers (fun statement => statement.OnlyReaches className
        (·.IsOpenTo (permissionColumn call.operation) groups) ↔
      ¬ call.LosesRestriction settings className groups s ∨
        statement.OnlyReaches className fun _ => False) call settings className groups s where
  bookkeeping _ h := iff_of_true h.onlyReaches (Or.inr h.onlyReaches)
  insertion _ _ _ := iff_of_true trivial (Or.inr trivial)
  filtered asked permitted prepared hp filter action hf _ := by
    constructor
    · rintro ⟨_, hopen⟩
      refine or_iff_not_imp_left.mpr fun hlost => ⟨rfl, ?_⟩
      intro table row hreach
      have hholds := hp.holds_closed (not_not.mp hlost) hf (RowStatement.reaches_iff.mp hreach).2
      let closed := row.closed (permissionColumn call.operation)
      have hclosed := hopen ⟨[closed], List.nodup_singleton _⟩ closed
        (RowStatement.reaches_iff.mpr ⟨List.mem_singleton.mpr rfl, hholds⟩)
      exact not_isOpenTo_closed (isPermission_permissionColumn call.operation) hclosed
    · rintro (hkept | ⟨_, hnone⟩)
      · exact ⟨rfl, fun table row hreach => hp.isOpenTo_of_holds (publicGroup_mem hcaller) hkept hf
          (RowStatement.reaches_iff.mp hreach).2⟩
      · exact ⟨rfl, fun table row hreach => (hnone table row hreach).elim⟩
  estimate asked permitted prepared filter hp hf hnone := by
    refine iff_of_false id ?_
    rintro (hkept | hreach)
    · -- without a predicate every row passes, also a closed one
      let row : StoredRow := ⟨"", none, none, fun _ => none⟩
      have hholds : filter.Holds (row.closed (permissionColumn call.operation)).truth :=
        Filter.holds_of_predicate_eq_none hnone _
      exact not_isOpenTo_closed (isPermission_permissionColumn call.operation)
        (hp.isOpenTo_of_holds (publicGroup_mem hcaller) hkept hf hholds)
    · exact hreach

/-- Whatever the settings are, every statement that a call sends reaches only rows that are open to
the caller, just if the call keeps the restriction to the groups of the caller or the statement
reaches no row at all. -/
theorem sent_onlyReaches_open_iff (store : Store) (className : String) (call : RowCall)
    (hcaller : caller.groups? = some groups) (hq : call.query.Canonical) (s : Session)
    (statement : Statement) (hsent : statement ∈ (call.run store className caller).sent s) :
    statement.OnlyReaches className (·.IsOpenTo (permissionColumn call.operation) groups) ↔
      ¬ call.LosesRestriction store.settings className groups s ∨
        statement.OnlyReaches className fun _ => False :=
  (ensures_run hcaller call hq (covers_onlyReaches_open_iff hcaller)).of_mem_sent hsent

/-- A store that moves constraints into branches. -/
def movingStore : Store := ⟨{ movesOrConstraints := true }, .given⟩

/-- A session that knows one class, whose objects everyone may ask for. -/
def openPosts : Session where
  rowAnswers := []
  changeAnswers := []
  now := ⟨0, 0⟩
  randomBytes := fun _ => Vector.replicate 10 0
  classes := [("Post", Schema.ofClass "Post")]

/-- Posts by one of two ids. -/
def eitherPost : RowCall :=
  .find [("$or", .arr [.obj [(objectIdField, .str "a")], .obj [(objectIdField, .str "b")]])] {}

/-- The restriction moves into both branches. -/
theorem find_either_reaches_open :
    ∃ statement, (eitherPost.run movingStore "Post" .anonymous).sent openPosts = [statement] ∧
      statement.OnlyReaches "Post" (·.IsOpenTo readColumn [publicGroup]) := by
  obtain ⟨statement, hsent⟩ : ∃ statement,
      (eitherPost.run movingStore "Post" .anonymous).sent openPosts = [statement] := ⟨_, rfl⟩
  have hbranch : ∀ id, (Json.obj [(objectIdField, .str id)]).Canonical := fun id =>
    .obj (Dict.sorted_singleton _) (List.forall_mem_singleton.mpr (.str id))
  have hquery : eitherPost.query.Canonical :=
    ⟨Dict.sorted_singleton _, List.forall_mem_singleton.mpr
      (.arr (List.forall_mem_cons.mpr ⟨hbranch "a", List.forall_mem_singleton.mpr (hbranch "b")⟩))⟩
  have hkept : ¬ eitherPost.LosesRestriction movingStore.settings "Post" [publicGroup]
    openPosts := by
    rintro ⟨_, asked, permitted, hasked, hpermitted, hor⟩
    obtain rfl := Except.ok.inj hasked
    obtain rfl := Option.some.inj (Except.ok.inj hpermitted)
    cases hor
  refine ⟨statement, hsent, ?_⟩
  exact (sent_onlyReaches_open_iff movingStore "Post" eitherPost rfl hquery openPosts statement
    (hsent ▸ List.mem_singleton.mpr rfl)).mpr (Or.inl hkept)

/-- An `$or` without branches takes the restriction with it, and everything is found. -/
theorem find_nothing_in_or_reaches_unreadable :
    ∃ r table row,
      Statement.rows r ∈ (RowCall.run movingStore "Post" .anonymous
        (.find [("$or", .arr [])] {})).sent openPosts ∧
      r.Reaches table row ∧ ¬ row.IsOpenTo readColumn [publicGroup] := by
  let row : StoredRow := ⟨"post", none, none, fun _ => none⟩
  have hsent : (RowCall.run movingStore "Post" .anonymous
      (.find [("$or", .arr [])] {})).sent openPosts
      = [.rows ⟨"Post", ⟨none, []⟩, .find (Sql.text "*") [] none none⟩] := rfl
  refine ⟨_, ⟨[row.closed readColumn], List.nodup_singleton _⟩, row.closed readColumn,
    hsent ▸ List.mem_singleton.mpr rfl, ?_, not_isOpenTo_closed (Or.inl rfl)⟩
  exact RowStatement.reaches_iff.mpr ⟨List.mem_singleton.mpr rfl, nofun⟩

end ObjectStore.Request
