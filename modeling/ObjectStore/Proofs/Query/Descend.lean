import Mathlib.Data.List.Forall2
import ObjectStore.Proofs.Engine.Sending
import ObjectStore.Query.Branches

/-!
# What descending into branches keeps

`Query.descend` carries a change of one level to every branch of `$or` and `$and`. Two inductions on
the branches are made here once and for all:

* `IsClosed.descend`: what holds of doing nothing, of one piece of work after another and of the
  change of each level holds of the whole descent. It is about the work alone.
* `Work.ensures_descend`: what the change of a level makes of it, given what became of its branches,
  becomes of a whole query. It is about the query and what comes out for it.
-/

namespace ObjectStore.Query

section Closed

variable {m : Type → Type} [Monad m] {Φ : (α : Type) → m α → Prop} {own : Object → m Object}

/-- A property of work that doing nothing has, and one piece of work after another. -/
structure IsClosed (Φ : (α : Type) → m α → Prop) : Prop where
  pure : ∀ {α : Type} (a : α), Φ α (pure a)
  bind : ∀ {α β : Type} {w : m α} {f : α → m β}, Φ α w → (∀ a, Φ β (f a)) → Φ β (w >>= f)

namespace IsClosed

/-- A loop over items has a property that each of its steps has. -/
theorem foldlM {α β : Type} {step : β → α → m β} (hΦ : IsClosed Φ) (hstep : ∀ b a, Φ _ (step b a))
    (items : List α) (start : β) : Φ _ (items.foldlM step start) := by
  induction items generalizing start with
  | nil => exact hΦ.pure start
  | cons item rest ih =>
    rw [List.foldlM_cons]
    exact hΦ.bind (hstep start item) fun next => ih next

mutual

/-- A branch that is an object is descended into before its own level is changed; any other branch
is left as it is. -/
theorem descendBranch (hΦ : IsClosed Φ) (hown : ∀ query, Φ _ (own query)) (branch : Json) :
    Φ _ (descendBranch own branch) := by
  match branch with
  | .obj fields =>
    refine hΦ.bind (hΦ.descendUnder hown "$or" fields) ?_
    intro ors
    refine hΦ.bind (hΦ.descendUnder hown "$and" fields) ?_
    intro ands
    exact hΦ.bind (hown _) fun changed => hΦ.pure _
  | .null | .bool _ | .int _ | .double _ | .str _ | .arr _ => exact hΦ.pure _

/-- What stands under a combinator is looked for key by key. -/
theorem descendUnder (hΦ : IsClosed Φ) (hown : ∀ query, Φ _ (own query)) (key : String)
    (fields : List (String × Json)) : Φ _ (descendUnder own key fields) := by
  match fields with
  | [] => exact hΦ.pure _
  | (name, value) :: rest =>
    rw [Query.descendUnder]
    split
    · exact hΦ.descendList hown value
    · exact hΦ.descendUnder hown key rest

/-- Only a list of branches is descended into. -/
theorem descendList (hΦ : IsClosed Φ) (hown : ∀ query, Φ _ (own query)) (value : Json) :
    Φ _ (descendList own value) := by
  match value with
  | .arr branches => exact hΦ.bind (hΦ.descendBranches hown branches) fun changed => hΦ.pure _
  | .null | .bool _ | .int _ | .double _ | .str _ | .obj _ => exact hΦ.pure _

/-- Branches are gone through one after another. -/
theorem descendBranches (hΦ : IsClosed Φ) (hown : ∀ query, Φ _ (own query)) (branches : List Json) :
    Φ _ (descendBranches own branches) := by
  match branches with
  | [] => exact hΦ.pure _
  | branch :: rest =>
    refine hΦ.bind (hΦ.descendBranch hown branch) ?_
    intro first
    exact hΦ.bind (hΦ.descendBranches hown rest) fun others => hΦ.pure _

end

/-- What holds of nothing, of sequences and of the change of each level holds of the whole descent.
-/
theorem descend (hΦ : IsClosed Φ) (hown : ∀ query, Φ _ (own query)) (query : Object) :
    Φ _ (descend own query) := by
  refine hΦ.bind (hΦ.descendUnder hown "$or" query) ?_
  intro ors
  refine hΦ.bind (hΦ.descendUnder hown "$and" query) ?_
  intro ands
  exact hown _

end IsClosed

end Closed

/-! ## What becomes of a query -/

/-- A branch and what became of it: an object was changed, anything else stays. -/
inductive BranchTo (R : Object → Object → Prop) : Json → Json → Prop
  | changed {fields after : Object} (h : R fields after) : BranchTo R (.obj fields) (.obj after)
  | kept {branch : Json} (h : branch.obj? = none) : BranchTo R branch branch

/-- What stands under a combinator and the branches that came out for it, if it is a list of
branches. -/
inductive ClauseTo (R : Object → Object → Prop) : Option Json → Option (List Json) → Prop
  | changed {branches after : List Json} (h : List.Forall₂ (BranchTo R) branches after) :
      ClauseTo R (some (.arr branches)) (some after)
  | kept {value : Option Json} (h : value.bind Json.arr? = none) : ClauseTo R value none

/-- A weaker relation between objects is a weaker relation between branches. -/
theorem BranchTo.mono {R R' : Object → Object → Prop} {branch after : Json}
    (h : BranchTo R branch after) (hR : ∀ q q', R q q' → R' q q') : BranchTo R' branch after := by
  cases h with
  | changed h => exact .changed (hR _ _ h)
  | kept h => exact .kept h

/-- A weaker relation between objects is a weaker relation between lists of branches. -/
theorem ClauseTo.mono {R R' : Object → Object → Prop} {value : Option Json}
    {after : Option (List Json)} (h : ClauseTo R value after) (hR : ∀ q q', R q q' → R' q q') :
    ClauseTo R' value after := by
  cases h with
  | changed h => exact .changed (h.imp fun _ _ hbranch => hbranch.mono hR)
  | kept h => exact .kept h

end Query

namespace Work

open Query Session

variable {P : Statement → Prop} {R : Object → Object → Session → Prop} {own : Object → Work Object}
  {start : Session}

/-- A relation between queries before and after a change that later sessions keep, and that the
change of one level establishes where it is established for the branches of this level. All of it
happens after `start`. -/
structure IsLevelwise (P : Statement → Prop) (start : Session)
    (R : Object → Object → Session → Prop) (own : Object → Work Object) : Prop where
  mono : ∀ {query after s s'}, Continues P s s' → R query after s → R query after s'
  level : ∀ {query ors ands s}, Continues P start s →
    ClauseTo (R · · s) (Dict.get? query "$or") ors →
    ClauseTo (R · · s) (Dict.get? query "$and") ands →
    Ensures P s (own (putList (putList query "$or" ors) "$and" ands)) (R query)

mutual

/-- An object among the branches becomes what its level becomes, once its own branches have been
gone through. -/
theorem ensures_descendBranch {s : Session} (hown : IsLevelwise P start R own)
    (hs : Continues P start s) (branch : Json) :
    Ensures P s (descendBranch own branch) fun after s' => BranchTo (R · · s') branch after := by
  match branch with
  | .obj fields =>
    refine ensures_bind (ensures_descendUnder hown hs "$or" fields) ?_
    intro ors s₁ hs₁ hors
    have hs₁ := hs.trans hs₁
    refine ensures_bind (ensures_descendUnder hown hs₁ "$and" fields) ?_
    intro ands s₂ hs₂ hands
    -- only then is the level itself changed
    refine ensures_bind (hown.level (hs₁.trans hs₂) (hors.mono fun _ _ => hown.mono hs₂) hands)
      fun after _ _ hafter => ensures_pure (.changed hafter)
  | .null | .bool _ | .int _ | .double _ | .str _ | .arr _ => exact ensures_pure (.kept rfl)

/-- What stands under a combinator becomes the branches that came out for it, if it stands there. -/
theorem ensures_descendUnder {s : Session} (hown : IsLevelwise P start R own)
    (hs : Continues P start s) (key : String) (fields : List (String × Json)) :
    Ensures P s (descendUnder own key fields) fun after s' =>
      ClauseTo (R · · s') (Dict.get? fields key) after := by
  match fields with
  | [] => exact ensures_pure (.kept rfl)
  | (name, value) :: rest =>
    rw [descendUnder, Dict.get?]
    split
    -- the first entry with the key is the one that `Dict.get?` finds
    · exact ensures_descendList hown hs value
    · exact ensures_descendUnder hown hs key rest

/-- A list of branches becomes the list of what became of each, anything else stays. -/
theorem ensures_descendList {s : Session} (hown : IsLevelwise P start R own)
    (hs : Continues P start s) (value : Json) :
    Ensures P s (descendList own value) fun after s' => ClauseTo (R · · s') (some value) after := by
  match value with
  | .arr branches =>
    exact ensures_bind (ensures_descendBranches hown hs branches)
      fun after _ _ hafter => ensures_pure (.changed hafter)
  | .null | .bool _ | .int _ | .double _ | .str _ | .obj _ => exact ensures_pure (.kept rfl)

/-- Each branch becomes what it became at its own time, which later sessions keep. -/
theorem ensures_descendBranches {s : Session} (hown : IsLevelwise P start R own)
    (hs : Continues P start s) (branches : List Json) :
    Ensures P s (descendBranches own branches) fun after s' =>
      List.Forall₂ (BranchTo (R · · s')) branches after := by
  match branches with
  | [] => exact ensures_pure .nil
  | branch :: rest =>
    refine ensures_bind (ensures_descendBranch hown hs branch) ?_
    intro first s₁ hs₁ hfirst
    refine ensures_bind (ensures_descendBranches hown (hs.trans hs₁) rest)
      fun others _ hs₂ hothers => ensures_pure (.cons ?_ hothers)
    exact hfirst.mono fun _ _ => hown.mono hs₂

end

/-- What each level becomes, given what its branches became, a whole query becomes. -/
theorem ensures_descend {s : Session} (hown : IsLevelwise P s R own) (query : Object) :
    Ensures P s (descend own query) (R query) := by
  refine ensures_bind (ensures_descendUnder hown (.refl s) "$or" query) ?_
  intro ors s₁ hs₁ hors
  refine ensures_bind (ensures_descendUnder hown hs₁ "$and" query) ?_
  intro ands s₂ hs₂ hands
  exact hown.level (hs₁.trans hs₂) (hors.mono fun _ _ => hown.mono hs₂) hands

end Work

end ObjectStore
