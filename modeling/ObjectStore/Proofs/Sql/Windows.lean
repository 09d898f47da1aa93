import Mathlib.Data.List.Sort

/-!
# Windows on rows in some order

A statement that sorts its rows and answers with some of them leaves open how rows are arranged that
its order does not tell apart. `Shows order w rows` is what it may answer: what the window `w` holds
of some arrangement of the rows.

Two such statements may answer the same on all tables if and only if they agree on the order of all
rows that they keep and have the same window, unless there are no such rows or nothing is ever in
the windows (`forall_shows_iff`).
-/

namespace ObjectStore

variable {ρ : Type}

/-- A window on a list: some of its first elements are left out, and so are those after a number of
others. -/
structure Window where
  skipped : Nat := 0
  length : Option Nat := none
  deriving DecidableEq

namespace Window

variable {w w' : Window} {n : Nat}

/-- What of some rows is in a window. -/
def rows (w : Window) (rows : List ρ) : List ρ :=
  match w.length with
  | none => rows.drop w.skipped
  | some n => (rows.drop w.skipped).take n

/-- A window without its first rows. -/
def drop (w : Window) (n : Nat) : Window := ⟨w.skipped + n, w.length.map (· - n)⟩

/-- A window with a number of rows at most. -/
def take (w : Window) (n : Nat) : Window := ⟨w.skipped, some (w.length.elim n (min · n))⟩

/-- Nothing is in a window, whatever the rows are. -/
def IsEmpty (w : Window) : Prop := w.length = some 0

@[simp] theorem rows_nil (w : Window) : w.rows ([] : List ρ) = [] := by
  unfold rows
  split <;> simp

/-- Nothing is in an empty window. -/
theorem IsEmpty.rows_eq (h : w.IsEmpty) (rows : List ρ) : w.rows rows = [] := by
  unfold Window.rows
  rw [h]
  rfl

/-- A window without its first rows shows the rows without the first ones that it showed. -/
theorem rows_drop (w : Window) (n : Nat) (rows : List ρ) :
    (w.drop n).rows rows = (w.rows rows).drop n := by
  obtain ⟨skipped, _ | length⟩ := w
  · exact List.drop_drop.symm
  · simp [Window.rows, drop, List.drop_take]

/-- A window of some rows at most shows the first of those that it showed. -/
theorem rows_take (w : Window) (n : Nat) (rows : List ρ) :
    (w.take n).rows rows = (w.rows rows).take n := by
  obtain ⟨skipped, _ | length⟩ := w
  · rfl
  · simp [Window.rows, take, List.take_take, min_comm]

/-- How many rows are in a window is how many there are after the skipped ones, up to its length. -/
theorem length_rows (w : Window) (rows : List ρ) :
    (w.rows rows).length = w.length.elim (rows.length - w.skipped)
      (min · (rows.length - w.skipped)) := by
  obtain ⟨skipped, _ | length⟩ := w <;> simp [Window.rows]

/-- The first row in a window is the one after the skipped ones. -/
theorem head?_rows (hw : ¬ w.IsEmpty) (rows : List ρ) : (w.rows rows).head? = rows[w.skipped]? := by
  obtain ⟨skipped, _ | _ | length⟩ := w
  · simp [Window.rows]
  · exact absurd rfl hw
  · simp [Window.rows, List.head?_take]

/-- The numbers of rows in windows tell them apart, unless they are empty. -/
theorem eq_or_isEmpty {x : ρ}
    (h : ∀ k, w.rows (List.replicate k x) = w'.rows (List.replicate k x)) :
    w = w' ∨ w.IsEmpty ∧ w'.IsEmpty := by
  have hlength : ∀ k, w.length.elim (k - w.skipped) (min · (k - w.skipped))
      = w'.length.elim (k - w'.skipped) (min · (k - w'.skipped)) := by
    intro k
    have hk := congrArg List.length (h k)
    rwa [length_rows, length_rows, List.length_replicate] at hk
  obtain ⟨skipped, length⟩ := w
  obtain ⟨skipped', length'⟩ := w'
  -- where the first row appears, and where the last one does
  have hfirst := hlength (skipped + 1)
  have hfirst' := hlength (skipped' + 1)
  have hlast := hlength (skipped + length.getD 0 + 1)
  have hlast' := hlength (skipped' + length'.getD 0 + 1)
  simp only [IsEmpty, Window.mk.injEq]
  cases length <;> cases length' <;>
    simp only [Option.elim_none, Option.elim_some, Option.getD_none, Option.getD_some,
      Option.some.injEq, reduceCtorEq, and_true, and_false, and_self, or_false]
      at hfirst hfirst' hlast hlast' ⊢ <;>
    omega

end Window

/-! ## Rows in order -/

/-- Rows are in an order, as far as it tells them apart. -/
def Arranged (order : ρ → ρ → Ordering) (rows : List ρ) : Prop :=
  rows.Pairwise fun a b => (order a b).isLE = true

/-- What a window may show of some rows in an order. -/
def Shows (order : ρ → ρ → Ordering) (w : Window) (rows out : List ρ) : Prop :=
  ∃ arranged, arranged.Perm rows ∧ Arranged order arranged ∧ out = w.rows arranged

variable {order order' : ρ → ρ → Ordering} {w w' : Window} {rows out : List ρ}

/-- Rows in order are in any order that allows as much of them. -/
theorem Arranged.mono (h : Arranged order rows)
    (hle : ∀ a ∈ rows, ∀ b ∈ rows, (order a b).isLE → (order' a b).isLE) :
    Arranged order' rows :=
  List.Pairwise.imp_of_mem (fun ha hb => hle _ ha _ hb) h

section

variable [Std.TransCmp order]

/-- Of two rows one comes first. -/
theorem isLE_total (a b : ρ) : ((order a b).isLE || (order b a).isLE) = true := by
  have hswap : order b a = (order a b).swap := Std.OrientedCmp.eq_swap
  rw [hswap]
  cases order a b <;> rfl

theorem isLE_self (a : ρ) : (order a a).isLE = true := by
  have htotal : ((order a a).isLE || (order a a).isLE) = true := isLE_total a a
  simpa using htotal

theorem arranged_replicate (n : Nat) (a : ρ) : Arranged order (List.replicate n a) :=
  List.pairwise_replicate.mpr (.inr (isLE_self a))

/-- Rows can be arranged so that some which are in order already stay where they are among each
other. -/
theorem exists_arranged {some : List ρ} (hsome : Arranged order some) (h : some.Sublist rows) :
    ∃ arranged, arranged.Perm rows ∧ Arranged order arranged ∧ some.Sublist arranged := by
  have htrans : ∀ a b c : ρ, (order a b).isLE = true → (order b c).isLE = true →
      (order a c).isLE = true := fun _ _ _ => Std.TransCmp.isLE_trans
  let arranged := rows.mergeSort fun a b => (order a b).isLE
  have hperm : arranged.Perm rows := List.mergeSort_perm _ _
  have hsorted : Arranged order arranged := List.pairwise_mergeSort htrans isLE_total rows
  -- sorting is stable, so what is in order already stays as it is
  have hkeeps : some.Sublist arranged := List.sublist_mergeSort htrans isLE_total hsome h
  exact ⟨arranged, hperm, hsorted, hkeeps⟩

end

theorem shows_nil : Shows order w [] out ↔ out = [] := by
  constructor
  · rintro ⟨arranged, hperm, -, rfl⟩
    rw [hperm.eq_nil, Window.rows_nil]
  · rintro rfl
    exact ⟨[], .refl _, .nil, w.rows_nil.symm⟩

/-- An empty window shows nothing, of any rows. -/
theorem shows_of_isEmpty [Std.TransCmp order] (hw : w.IsEmpty) :
    Shows order w rows out ↔ out = [] := by
  constructor
  · rintro ⟨arranged, -, -, rfl⟩
    exact hw.rows_eq arranged
  · rintro rfl
    have hempty : Arranged order ([] : List ρ) := .nil
    obtain ⟨arranged, hperm, harranged, -⟩ := exists_arranged hempty (List.nil_sublist rows)
    exact ⟨arranged, hperm, harranged, (hw.rows_eq arranged).symm⟩

/-- Nothing but the rows that are there can be shown of rows that are all alike. -/
theorem shows_replicate [Std.TransCmp order] {n : Nat} {a : ρ} :
    Shows order w (List.replicate n a) out ↔ out = w.rows (List.replicate n a) := by
  constructor
  · rintro ⟨arranged, hperm, -, rfl⟩
    rw [List.perm_replicate.mp hperm]
  · rintro rfl
    exact ⟨_, .refl _, arranged_replicate n a, rfl⟩

/-- A window shows whether one row may come before another one, if it is on as many copies of the
first one as it skips, or on one at least, and the other one. -/
theorem isLE_of_shows [Std.TransCmp order] [Std.TransCmp order'] (hw : ¬ w.IsEmpty) {a b : ρ}
    (h : ∀ n out, Shows order w (List.replicate n a ++ [b]) out →
      Shows order' w (List.replicate n a ++ [b]) out)
    (hab : (order a b).isLE) : (order' a b).isLE := by
  have hshown : ∀ n, ∃ arranged : List ρ, arranged.Perm (List.replicate n a ++ [b]) ∧
      Arranged order' arranged ∧
        arranged[w.skipped]? = (List.replicate n a ++ [b])[w.skipped]? := by
    intro n
    have harranged : Arranged order (List.replicate n a ++ [b]) :=
      List.pairwise_append.mpr ⟨arranged_replicate n a, List.pairwise_singleton _ _,
        fun x hx y hy => by
          rw [List.eq_of_mem_replicate hx, List.mem_singleton.mp hy]
          exact hab⟩
    obtain ⟨arranged, hperm, harranged', hrows⟩ := h n _ ⟨_, .refl _, harranged, rfl⟩
    refine ⟨arranged, hperm, harranged', ?_⟩
    rw [← Window.head?_rows hw, ← Window.head?_rows hw, hrows]
  rcases hskipped : w.skipped with _ | skipped
  · -- the first of the two rows is shown
    obtain ⟨arranged, hperm, harranged, hfirst⟩ := hshown 1
    rw [hskipped] at hfirst
    obtain ⟨rest, rfl⟩ : ∃ rest, arranged = a :: rest := by
      cases arranged with
      | nil => exact nomatch hfirst
      | cons first rest => exact ⟨rest, by rw [Option.some.inj hfirst]⟩
    obtain rfl : rest = [b] := List.perm_singleton.mp (List.perm_cons a |>.mp hperm)
    exact (List.pairwise_cons.mp harranged).1 b (List.mem_singleton_self b)
  · -- the last row is shown, and there is another one before it
    obtain ⟨arranged, hperm, harranged, hlast⟩ := hshown (skipped + 1)
    have hlength : arranged.length = skipped + 1 + 1 := by simpa using hperm.length_eq
    obtain ⟨front, rfl⟩ : ∃ front, arranged = front ++ [b] := by
      refine List.getLast?_eq_some_iff.mp ?_
      rw [List.getLast?_eq_getElem?, hlength]
      simpa [hskipped] using hlast
    have hfront := List.perm_replicate.mp ((List.perm_append_right_iff [b]).mp hperm)
    refine (List.pairwise_append.mp harranged).2.2 a ?_ b (List.mem_singleton_self b)
    rw [hfront]
    exact List.mem_replicate.mpr ⟨nofun, rfl⟩

/-- Windows that show the same of all rows come from orders that agree. -/
theorem isLE_eq_of_shows [Std.TransCmp order] [Std.TransCmp order'] (hw : ¬ w.IsEmpty) {a b : ρ}
    (h : ∀ n out, Shows order w (List.replicate n a ++ [b]) out ↔
      Shows order' w (List.replicate n a ++ [b]) out) :
    (order a b).isLE = (order' a b).isLE := by
  rw [Bool.eq_iff_iff]
  constructor
  · exact isLE_of_shows hw fun n out => (h n out).mp
  · exact isLE_of_shows hw fun n out => (h n out).mpr

/-- Copies of one row tell windows apart, whatever the orders are. -/
theorem eq_or_isEmpty_of_shows [Std.TransCmp order] [Std.TransCmp order'] {row : ρ}
    (h : ∀ n out, Shows order w (List.replicate n row) out ↔
      Shows order' w' (List.replicate n row) out) : w = w' ∨ w.IsEmpty ∧ w'.IsEmpty :=
  Window.eq_or_isEmpty fun n => shows_replicate.mp ((h n _).mp (shows_replicate.mpr rfl))

/-- Orders that agree on the rows show the same of them. -/
theorem shows_congr
    (h : ∀ a ∈ rows, ∀ b ∈ rows, (order a b).isLE = (order' a b).isLE) :
    Shows order w rows out ↔ Shows order' w rows out := by
  refine exists_congr fun arranged => and_congr_right fun hperm => and_congr_left' ?_
  have hrows : ∀ a ∈ arranged, ∀ b ∈ arranged, (order a b).isLE = (order' a b).isLE :=
    fun a ha b hb => h a (hperm.subset ha) b (hperm.subset hb)
  constructor
  · intro harranged
    refine harranged.mono ?_
    intro a ha b hb hle
    rwa [← hrows a ha b hb]
  · intro harranged
    refine harranged.mono ?_
    intro a ha b hb hle
    rwa [hrows a ha b hb]

/-- Two windows on rows in two orders may show the same on all tables if and only if they are the
same and the orders agree on all rows that are kept, unless no row is kept or nothing is in either
window. -/
theorem forall_shows_iff [Std.TransCmp order] [Std.TransCmp order'] (keeps : ρ → Bool) :
    (∀ (table out : List ρ), Shows order w (table.filter keeps) out ↔
        Shows order' w' (table.filter keeps) out) ↔
      (∀ row, keeps row = false) ∨ (w.IsEmpty ∧ w'.IsEmpty) ∨
        (w = w' ∧ ∀ a b, keeps a → keeps b → (order a b).isLE = (order' a b).isLE) := by
  constructor
  · intro h
    have hkept : ∀ rows : List ρ, (∀ row ∈ rows, keeps row) → ∀ out,
        Shows order w rows out ↔ Shows order' w' rows out := by
      intro rows hrows out
      simpa only [List.filter_eq_self.mpr hrows] using h rows out
    by_cases hrow : ∃ row, keeps row = true
    · obtain ⟨row, hrow⟩ := hrow
      obtain rfl | hempty := eq_or_isEmpty_of_shows fun n =>
        hkept (List.replicate n row) fun _ hmem => List.eq_of_mem_replicate hmem ▸ hrow
      · by_cases hempty : w.IsEmpty
        · exact .inr (.inl ⟨hempty, hempty⟩)
        · refine .inr (.inr ⟨rfl, fun a b ha hb => isLE_eq_of_shows hempty ?_⟩)
          intro n
          refine hkept _ (List.forall_mem_append.mpr ⟨?_, ?_⟩)
          · intro row hmem
            exact List.eq_of_mem_replicate hmem ▸ ha
          · intro row hmem
            exact List.mem_singleton.mp hmem ▸ hb
      · exact .inr (.inl hempty)
    · exact .inl fun row => by simpa using fun hk => hrow ⟨row, hk⟩
  · rintro (hnone | ⟨hw, hw'⟩ | ⟨rfl, hsame⟩) table out
    · have hempty : table.filter keeps = [] := List.filter_eq_nil_iff.mpr (by simp [hnone])
      rw [hempty, shows_nil, shows_nil]
    · rw [shows_of_isEmpty hw, shows_of_isEmpty hw']
    · exact shows_congr fun a ha b hb =>
        hsame a b (List.mem_filter.mp ha).2 (List.mem_filter.mp hb).2

end ObjectStore
