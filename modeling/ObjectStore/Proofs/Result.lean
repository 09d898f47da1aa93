import Mathlib.Data.List.Forall2
import ObjectStore.Error.Basic

/-!
# Results taken apart

A computation in `Result` that succeeded did so step by step. These lemmas read the steps off: the
value of a bind comes from the value of what is bound (`bind_eq_ok`), a `mapM` answered for every
item (`mapM_eq_ok`), and a fold kept up what each of its steps keeps up (`foldlM_induction`).
-/

namespace ObjectStore.Result

variable {α β : Type}

theorem bind_eq_ok {x : Result α} {f : α → Result β} {b : β} :
    (x >>= f) = .ok b ↔ ∃ a, x = .ok a ∧ f a = .ok b := by
  cases x with
  | ok a => simp [bind, Except.bind]
  | error e => simp [bind, Except.bind]

theorem map_eq_ok {x : Result α} {f : α → β} {b : β} :
    Except.map f x = .ok b ↔ ∃ a, x = .ok a ∧ f a = b := by
  cases x with
  | ok a => simp [Except.map]
  | error e => simp [Except.map]

/-- What is made of an answer is there if the answer is. -/
theorem exists_map_eq_ok_iff {x : Result α} {f : α → β} :
    (∃ b, Except.map f x = .ok b) ↔ ∃ a, x = .ok a := by
  cases x <;> simp [Except.map]

theorem pure_eq_ok {a b : α} : (pure a : Result α) = .ok b ↔ a = b := by
  simp [pure, Except.pure]

theorem throw_ne_ok {e : Error} {b : α} : (throw e : Result α) ≠ .ok b := by
  simp [throw, throwThe, MonadExceptOf.throw]

/-- Of two lists that are related item by item, each item of the first has one in the second. -/
theorem exists_right_of_mem {R : α → β → Prop} {xs : List α} {ys : List β}
    (h : List.Forall₂ R xs ys) {x : α} (hx : x ∈ xs) : ∃ y ∈ ys, R x y := by
  induction h with
  | nil => simp at hx
  | cons hxy _ ih =>
    rcases List.mem_cons.mp hx with rfl | hx
    · exact ⟨_, List.mem_cons_self, hxy⟩
    · obtain ⟨y, hy, hr⟩ := ih hx
      exact ⟨y, List.mem_cons_of_mem _ hy, hr⟩

/-- Of two lists that are related item by item, each item of the second has one in the first. -/
theorem exists_left_of_mem {R : α → β → Prop} {xs : List α} {ys : List β}
    (h : List.Forall₂ R xs ys) {y : β} (hy : y ∈ ys) : ∃ x ∈ xs, R x y :=
  exists_right_of_mem h.flip hy

/-- Every item of a list has its answer in the list of answers. -/
theorem mapM_eq_ok {f : α → Result β} {items : List α} {answers : List β} :
    items.mapM f = .ok answers ↔
      List.Forall₂ (fun item answer => f item = .ok answer) items answers := by
  induction items generalizing answers with
  | nil =>
    rw [List.mapM_nil, pure_eq_ok, List.forall₂_nil_left_iff]
    exact eq_comm
  | cons item rest ih =>
    rw [List.mapM_cons, List.forall₂_cons_left_iff]
    simp only [bind_eq_ok, pure_eq_ok, ih]
    constructor
    · rintro ⟨answer, ha, others, ho, rfl⟩
      exact ⟨answer, others, ha, ho, rfl⟩
    · rintro ⟨answer, others, ha, ho, rfl⟩
      exact ⟨answer, ha, others, ho, rfl⟩

/-- What answers have in common with their items, one by one. -/
theorem map_eq_of_mapM {γ : Type} {f : α → Result β} {items : List α} {answers : List β}
    {g : β → γ} {g' : α → γ} (h : items.mapM f = .ok answers)
    (heach : ∀ item answer, f item = .ok answer → g answer = g' item) :
    answers.map g = items.map g' := by
  rw [← List.forall₂_eq_eq_eq, List.forall₂_map_left_iff, List.forall₂_map_right_iff]
  exact ((mapM_eq_ok.mp h).imp heach).flip

/-- There is an answer for all items if there is one for each of them. -/
theorem exists_mapM_eq_ok_iff {f : α → Result β} {items : List α} :
    (∃ answers, items.mapM f = .ok answers) ↔ ∀ item ∈ items, ∃ answer, f item = .ok answer := by
  simp only [mapM_eq_ok]
  constructor
  · rintro ⟨answers, h⟩ item hitem
    obtain ⟨answer, _, ha⟩ := exists_right_of_mem h hitem
    exact ⟨answer, ha⟩
  · intro h
    induction items with
    | nil => exact ⟨[], .nil⟩
    | cons item rest ih =>
      obtain ⟨answer, ha⟩ := h item List.mem_cons_self
      obtain ⟨answers, hrest⟩ := ih fun item hitem => h item (List.mem_cons_of_mem _ hitem)
      exact ⟨answer :: answers, .cons ha hrest⟩

/-- What does not fail succeeds. -/
theorem exists_error_iff {x : Result α} : (∃ e, x = .error e) ↔ ¬ ∃ a, x = .ok a := by
  cases x <;> simp

/-- Work that is done for every item succeeded for each of them. -/
theorem eq_ok_of_forM {f : α → Result PUnit} {items : List α} (h : items.forM f = .ok ⟨⟩) {item : α}
    (hitem : item ∈ items) : f item = .ok ⟨⟩ := by
  induction items with
  | nil => exact (List.not_mem_nil hitem).elim
  | cons head rest ih =>
    obtain ⟨_, hhead, hrest⟩ := bind_eq_ok.mp h
    rcases List.mem_cons.mp hitem with rfl | hitem
    · exact hhead
    · exact ih hrest hitem

/-- Work that succeeds for every item succeeds for all of them. -/
theorem forM_eq_ok {f : α → Result PUnit} {items : List α} (h : ∀ item ∈ items, f item = .ok ⟨⟩) :
    items.forM f = .ok ⟨⟩ := by
  induction items with
  | nil => rfl
  | cons head rest ih =>
    exact bind_eq_ok.mpr ⟨⟨⟩, h head List.mem_cons_self,
      ih fun item hitem => h item (List.mem_cons_of_mem _ hitem)⟩

/-- What every step of a fold keeps up holds at its end, for all items that were gone through. -/
theorem foldlM_induction {P : List α → β → Prop} {f : β → α → Result β} {items : List α}
    {start out : β} (hstart : P [] start)
    (hstep : ∀ seen b item b', P seen b → f b item = .ok b' → P (seen ++ [item]) b')
    (h : items.foldlM f start = .ok out) : P items out := by
  -- the induction is on the items still to come; those gone through already stay a parameter
  have hfold : ∀ (rest seen : List α) (b : β), P seen b → rest.foldlM f b = .ok out →
      P (seen ++ rest) out := by
    intro rest
    induction rest with
    | nil =>
      intro seen b hb h
      obtain rfl := pure_eq_ok.mp h
      simpa using hb
    | cons item rest ih =>
      intro seen b hb h
      rw [List.foldlM_cons] at h
      obtain ⟨b', hb', hrest⟩ := bind_eq_ok.mp h
      simpa using ih _ b' (hstep seen b item b' hb hb') hrest
  exact hfold items [] start hstart h

end ObjectStore.Result
