import ObjectStore.Proofs.Engine.Sending
import ObjectStore.Proofs.Query.Descend
import ObjectStore.Proofs.Result

/-!
# Work on rows that are alike

What an operation answers depends on the rows that the engine returns. `Session.Alike R` relates two
sessions in which the rows to come differ only in ways that a relation `R` of rows allows, and
`Work.Agree R S` says that two pieces of work fail alike from any two such sessions, or both succeed
with results that `S` relates.

The rules follow those of `Work.Ensures`, for two pieces of work at a time. A statement is answered
with rows that are alike, so agreement is lost where a result tells them apart, and there only.
-/

namespace ObjectStore

variable {α β γ δ : Type}

/-! ## Results -/

/-- Two results are the same failure, or both are there and related. -/
inductive Result.Agree (S : α → β → Prop) : Result α → Result β → Prop
  | ok {a : α} {b : β} (h : S a b) : Agree S (.ok a) (.ok b)
  | error (e : Error) : Agree S (.error e) (.error e)

namespace Result

variable {S : α → β → Prop} {T : γ → δ → Prop} {x : Result α} {y : Result β}

/-- A result agrees with itself. -/
theorem Agree.refl (x : Result α) : Agree Eq x x := by
  cases x with
  | ok a => exact .ok rfl
  | error e => exact .error e

/-- Results that agree up to equality are equal. -/
theorem Agree.eq {y : Result α} (h : Agree Eq x y) : x = y := by
  cases h with
  | ok h => rw [h]
  | error => rfl

/-- Agreement goes through a sequence: a failure stops both, and what follows is asked about related
values only. -/
theorem Agree.bind {f : α → Result γ} {g : β → Result δ} (h : Agree S x y)
    (hf : ∀ a b, S a b → Agree T (f a) (g b)) : Agree T (x >>= f) (y >>= g) := by
  cases h with
  | ok h => exact hf _ _ h
  | error e => exact .error e

/-- Reading items that are related one by one gives related lists, or fails at the same item. -/
theorem Agree.mapM {R : γ → δ → Prop} {f : γ → Result α} {g : δ → Result β} {items : List γ}
    {others : List δ} (h : List.Forall₂ R items others)
    (hf : ∀ item other, R item other → Agree S (f item) (g other)) :
    Agree (List.Forall₂ S) (items.mapM f) (others.mapM g) := by
  induction h with
  | nil => exact .ok .nil
  | cons hitem _ ih =>
    rw [List.mapM_cons, List.mapM_cons]
    refine (hf _ _ hitem).bind fun a b hab => ih.bind ?_
    intro rest rest' hrest
    exact .ok (.cons hab hrest)

end Result

/-! ## Sessions and work -/

/-- Two sessions are at the same time, know the same classes, and will be given rows that are alike,
or will be told of the same failures. -/
structure Session.Alike (R : Row → Row → Prop) (s s' : Session) : Prop where
  now : s'.now = s.now
  classes : s'.classes = s.classes
  rowAnswers : List.Forall₂ (Result.Agree (List.Forall₂ R)) s.rowAnswers s'.rowAnswers

namespace Work

open Session

variable {R : Row → Row → Prop} {S : α → β → Prop} {T : γ → δ → Prop} {w : Work α} {w' : Work β}

/-- Two pieces of work come to related results from two sessions, and end in sessions that are
alike. -/
def AgreeFrom (R : Row → Row → Prop) (S : α → β → Prop) (s s' : Session) (w : Work α)
    (w' : Work β) : Prop :=
  Result.Agree S (w.run s).1 (w'.run s').1 ∧ Alike R (w.run s).2 (w'.run s').2

/-- Two pieces of work do so from any two sessions that are alike. -/
def Agree (R : Row → Row → Prop) (S : α → β → Prop) (w : Work α) (w' : Work β) : Prop :=
  ∀ s s', Alike R s s' → AgreeFrom R S s s' w w'

/-- Related values agree, whatever is still to come. -/
theorem agree_pure {a : α} {b : β} (h : S a b) : Agree R S (pure a) (pure b) :=
  fun _ _ hs => ⟨.ok h, hs⟩

/-- The same failure agrees with itself. -/
theorem agree_throw (e : Error) : Agree R S (throw e) (throw e) :=
  fun _ _ hs => ⟨.error e, hs⟩

/-- Agreement from two given sessions goes through a sequence, if what follows agrees from any two
that are alike. -/
theorem agreeFrom_bind {f : α → Work γ} {g : β → Work δ} {s s' : Session}
    (h : AgreeFrom R S s s' w w') (hf : ∀ a b, S a b → Agree R T (f a) (g b)) :
    AgreeFrom R T s s' (w >>= f) (w' >>= g) := by
  obtain ⟨hresult, hafter⟩ := h
  rw [AgreeFrom, run_bind, run_bind]
  rcases hw : w.run s with ⟨x, s₁⟩
  rcases hw' : w'.run s' with ⟨y, s₁'⟩
  rw [hw, hw'] at hresult hafter
  -- both have failed alike, or go on in sessions that are still alike
  cases hresult with
  | ok hab => exact hf _ _ hab s₁ s₁' hafter
  | error e => exact ⟨.error e, hafter⟩

/-- Agreement goes through a sequence of work. -/
theorem agree_bind {f : α → Work γ} {g : β → Work δ} (h : Agree R S w w')
    (hf : ∀ a b, S a b → Agree R T (f a) (g b)) : Agree R T (w >>= f) (w' >>= g) :=
  fun s s' hs => agreeFrom_bind (h s s' hs) hf

/-- Results that agree do so as work. -/
theorem agree_ofResult {x : Result α} {y : Result β} (h : Result.Agree S x y) :
    Agree R S (ofResult x) (ofResult y) := by
  cases h with
  | ok h => exact agree_pure h
  | error e => exact agree_throw e

/-- Agreement goes through the handling of failures, which are the same on both sides. -/
theorem agree_recover {handle : Error → Work α} {handle' : Error → Work β} (h : Agree R S w w')
    (hhandle : ∀ e, Agree R S (handle e) (handle' e)) :
    Agree R S (w.recover handle) (w'.recover handle') := by
  intro s s' hs
  rw [AgreeFrom, run_recover, run_recover]
  obtain ⟨hresult, hafter⟩ := h s s' hs
  rcases hw : w.run s with ⟨x, s₁⟩
  rcases hw' : w'.run s' with ⟨y, s₁'⟩
  rw [hw, hw'] at hresult hafter
  cases hresult with
  | ok hab => exact ⟨.ok hab, hafter⟩
  | error e => exact hhandle e s₁ s₁' hafter

/-- Rewording failures keeps agreement. -/
theorem agree_rewordFailure {reword : Error → Error} (h : Agree R S w w') :
    Agree R S (w.rewordFailure reword) (w'.rewordFailure reword) :=
  agree_recover h fun _ => agree_throw _

/-- Answering for a table that is missing keeps agreement, if the answers given in its place are
related. -/
theorem agree_orIfUndefined {otherwise : α} {otherwise' : β} (h : Agree R S w w')
    (hotherwise : S otherwise otherwise') :
    Agree R S (w.orIfUndefined otherwise) (w'.orIfUndefined otherwise') := by
  refine agree_recover h ?_
  intro e
  split
  · exact agree_pure hotherwise
  · exact agree_throw e

/-- Sessions that are alike are at the same time. -/
theorem agree_now : Agree R Eq now now := fun _ _ hs => ⟨.ok hs.now.symm, hs⟩

/-- Sessions that are alike know the same classes. -/
theorem agree_classes : Agree R Eq classes classes := fun _ _ hs => ⟨.ok hs.classes.symm, hs⟩

/-- The engine answers with rows that are alike, whichever statements they answer. -/
theorem agree_query (statement statement' : Statement) :
    Agree R (List.Forall₂ R) (query statement) (query statement') := by
  intro s s' hs
  obtain ⟨hnow, hclasses, hanswers⟩ := hs
  change Result.Agree _ (s.rowAnswers.headD (.ok [])) (s'.rowAnswers.headD (.ok [])) ∧ _
  cases hrows : s.rowAnswers with
  -- a script that has run out answers with no rows, and so does the other
  | nil =>
    rw [hrows, List.forall₂_nil_left_iff] at hanswers
    rw [hanswers]
    exact ⟨.ok .nil, hnow, hclasses, by simp [query, Session.query, hrows, hanswers, record]⟩
  | cons answer rest =>
    rw [hrows, List.forall₂_cons_left_iff] at hanswers
    obtain ⟨answer', rest', hanswer, hrest, hrows'⟩ := hanswers
    rw [hrows']
    exact ⟨hanswer, hnow, hclasses, by
      simpa [query, Session.query, hrows, hrows', record, ExceptT.run, ExceptT.mk] using hrest⟩

/-- Agreeing with itself is a property of work that all its parts have. -/
theorem isClosed_agree : Query.IsClosed fun α (w : Work α) => Agree R Eq w w :=
  ⟨fun _ => agree_pure rfl, fun hw hf => agree_bind hw fun a _ hab => hab ▸ hf a⟩

end Work

end ObjectStore
