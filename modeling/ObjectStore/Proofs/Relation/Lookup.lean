import ObjectStore.Proofs.Classes.Bookkeeping
import ObjectStore.Proofs.Query.Descend

/-!
# Lookups of edges

Which edges there are is for the engine to know. A session is true to some edges if it answered all
lookups of owners by them (`Session.IsTrueTo`); a join table that is missing has none. From such
answers work on relations succeeds, and what it finds is told of the edges themselves
(`Work.Finds`).
-/

namespace ObjectStore

open Statement (IsBookkeeping)

/-- Which edges of a relation lead from an owning object to a related one. -/
abbrev Edges := JoinTable → String → String → Prop

/-- The objects that an edge leads from to one of some objects. -/
def Edges.owners (edges : Edges) (table : JoinTable) (relatedIds : List String) (id : String) :
    Prop :=
  ∃ related ∈ relatedIds, edges table id related

/-- A lookup is answered with the rows of some owners, or with a missing table if there are none. -/
def Outcome.Tells (owners : String → Prop) : Outcome → Prop
  | .rows found => ∃ ids, found.mapM (·.text owningColumn) = .ok ids ∧ ∀ id, id ∈ ids ↔ owners id
  | .failed e => e.isUndefinedTable = true ∧ ∀ id, ¬ owners id
  | .affected _ => False

/-- A lookup of owners is answered by the edges. -/
def Event.IsTrueTo (edges : Edges) : Event → Prop
  | .sent (.relation (.owners table relatedIds)) outcome =>
    outcome.Tells (edges.owners table relatedIds)
  | _ => True

namespace Session

/-- All lookups of owners since an earlier session are answered by the edges. -/
def IsTrueTo (edges : Edges) (start s : Session) : Prop :=
  ∀ event ∈ s.journal.drop start.journal.length, event.IsTrueTo edges

variable {edges : Edges} {P : Statement → Prop} {start s s' : Session}

/-- If the edges answer all that was looked up until later, they answer what was looked up before.
-/
theorem IsTrueTo.before (h : IsTrueTo edges start s') (hs : Continues P s s') :
    IsTrueTo edges start s := by
  obtain ⟨events, hjournal, _⟩ := hs.journal
  intro event he
  apply h event
  rw [hjournal, List.drop_append]
  exact List.mem_append_left _ he

/-- If the edges answer all that was looked up from an earlier session on, they answer what was
looked up since. -/
theorem IsTrueTo.after (h : IsTrueTo edges start s') (hs : Continues P start s) :
    IsTrueTo edges s s' := by
  obtain ⟨events, hjournal, _⟩ := hs.journal
  intro event he
  rw [hjournal, List.length_append, ← List.drop_drop] at he
  exact h event (List.mem_of_mem_drop he)

end Session

/-! ## Work on answers that are true -/

namespace Work

open Session

variable {α β : Type} {edges : Edges} {w : Work α} {f : α → Work β} {Q Q' : α → Prop}
  {R : β → Prop}

/-- A statement that returns rows is answered with rows or with a failure. -/
theorem query_cases (statement : Statement) (s : Session) :
    (∃ rows s', (query statement).run s = (.ok rows, s') ∧
      s'.journal = s.journal ++ [.sent statement (.rows rows)]) ∨
    ∃ e s', (query statement).run s = (.error e, s') ∧
      s'.journal = s.journal ++ [.sent statement (.failed e)] := by
  have hrun : (query statement).run s = s.query statement := rfl
  rw [hrun, Session.query]
  rcases s.rowAnswers.headD (.ok []) with e | rows
  · exact Or.inr ⟨e, _, rfl, rfl⟩
  · exact Or.inl ⟨rows, _, rfl, rfl⟩

/-- Work that does bookkeeping only and, where lookups are answered by the edges, has a result. -/
structure Finds (edges : Edges) (w : Work α) (Q : α → Prop) : Prop where
  sends : Sends IsBookkeeping w
  result : ∀ s, IsTrueTo edges s (w.run s).2 → ∃ a, (w.run s).1 = .ok a ∧ Q a

/-- What is found may be told of with less. -/
theorem Finds.mono (h : Finds edges w Q) (hq : ∀ a, Q a → Q' a) : Finds edges w Q' := by
  refine ⟨h.sends, ?_⟩
  intro s htrue
  obtain ⟨a, ha, hQ⟩ := h.result s htrue
  exact ⟨a, ha, hq a hQ⟩

/-- Work that finds something ensures it, once it is known that the lookups were answered by the
edges. -/
theorem Finds.ensures (h : Finds edges w Q) (s : Session) :
    Ensures IsBookkeeping s w fun a s' => IsTrueTo edges s s' → Q a := by
  refine ⟨(h.sends s).continues, ?_⟩
  intro a ha htrue
  obtain ⟨a', ha', hQ⟩ := h.result s htrue
  rw [ha] at ha'
  exact Except.ok.inj ha' ▸ hQ

/-- What is known already need not be looked up. -/
theorem finds_pure {a : α} (h : Q a) : Finds edges (pure a) Q :=
  ⟨sends_pure a, fun _ _ => ⟨a, rfl, h⟩⟩

/-- What the second part finds may rest on what the first one found. -/
theorem finds_bind (h : Finds edges w Q) (hsends : ∀ a, Sends IsBookkeeping (f a))
    (hf : ∀ a, Q a → Finds edges (f a) R) : Finds edges (w >>= f) R := by
  refine ⟨sends_bind h.sends hsends, ?_⟩
  intro s htrue
  have hresult := h.result s
  have hcontinues := (h.sends s).continues
  rw [run_bind] at htrue ⊢
  rcases hw : w.run s with ⟨_ | a, s₁⟩ <;> rw [hw] at hresult hcontinues htrue
  · obtain ⟨_, ha, _⟩ := hresult htrue
    cases ha
  · -- what the first piece looked up was answered before the second one ran
    obtain ⟨_, ha, hQ⟩ := hresult (htrue.before (hsends a s₁).continues)
    obtain rfl := Except.ok.inj ha
    exact (hf a hQ).result s₁ (htrue.after hcontinues)

/-- To succeed where lookups are answered by the edges is what all parts of some work do. -/
theorem isClosed_finds : Query.IsClosed fun α (w : Work α) => Finds edges w fun _ => True := by
  refine ⟨fun _ => finds_pure trivial, ?_⟩
  intro _ _ w f hw hf
  refine finds_bind hw (fun a => (hf a).sends) ?_
  intro a _
  exact hf a

end Work

/-! ## Owners -/

namespace JoinTables

open Work

variable {edges : Edges} {tables : JoinTables}

/-- The rows that a lookup of owners comes to, a missing table having none. -/
theorem finds_rows (table : JoinTable) (relatedIds : List String) :
    Finds edges ((Work.query (.relation (.owners table relatedIds))).orIfUndefined []) fun rows =>
      Outcome.Tells (edges.owners table relatedIds) (.rows rows) := by
  let statement : Statement := .relation (.owners table relatedIds)
  refine ⟨sends_orIfUndefined (sends_query trivial), ?_⟩
  intro s htrue
  unfold orIfUndefined at htrue ⊢
  rw [run_recover] at htrue ⊢
  have hlast : ∀ (s' : Session) outcome, s.IsTrueTo edges s' →
      s'.journal = s.journal ++ [.sent statement outcome] →
      outcome.Tells (edges.owners table relatedIds) := by
    intro s' outcome htrue hjournal
    exact htrue (.sent statement outcome) (by simp [hjournal])
  rcases query_cases statement s with ⟨rows, s', hrun, hjournal⟩ | ⟨e, s', hrun, hjournal⟩
  · rw [hrun] at htrue ⊢
    exact ⟨rows, rfl, hlast s' (.rows rows) htrue hjournal⟩
  · rw [hrun] at htrue ⊢
    have hsame : ((if e.isUndefinedTable then pure [] else throw e : Work (List Row)).run s').2
        = s' := by
      split
      · rfl
      · rfl
    -- the edges answer with a failure only if the table is missing and no edge leads anywhere
    obtain ⟨hmissing, hnone⟩ := hlast s' (.failed e) (hsame ▸ htrue) hjournal
    have hempty : Outcome.Tells (edges.owners table relatedIds) (.rows []) :=
      ⟨[], rfl, fun id => iff_of_false List.not_mem_nil (hnone id)⟩
    dsimp only
    rw [if_pos hmissing]
    exact ⟨[], rfl, hempty⟩

/-- A lookup of owners finds those that edges lead from. -/
theorem finds_owners (table : JoinTable) (relatedIds : List String) :
    Finds edges (idsOf owningColumn (.owners table relatedIds)) fun owners =>
      ∀ id, id ∈ owners ↔ edges.owners table relatedIds id := by
  refine finds_bind (finds_rows table relatedIds) (fun _ => sends_ofResult _) ?_
  rintro rows ⟨ids, hids, howners⟩
  rw [hids]
  exact finds_pure howners

/-- The owners that are looked up for a relation are those that edges lead from. -/
theorem finds_owningIds (className field : String) (relatedIds : List String) :
    Finds edges (tables.owningIds className field relatedIds) fun owners =>
      ⟨className, field⟩ ∈ tables → ∀ id, id ∈ owners
        ↔ edges.owners ⟨className, field⟩ relatedIds id := by
  unfold owningIds find?
  by_cases htable : (⟨className, field⟩ : JoinTable) ∈ tables
  · rw [if_pos (List.contains_iff_mem.mpr htable)]
    dsimp only
    split
    next hempty =>
      obtain rfl := List.isEmpty_iff.mp hempty
      exact finds_pure fun _ id => by simp [Edges.owners]
    next => exact (finds_owners _ _).mono fun owners h _ => h
  · rw [if_neg (by simpa using htable)]
    exact finds_pure fun h => absurd h htable

end JoinTables

end ObjectStore
