import ObjectStore.Proofs.Json.Canonical
import ObjectStore.Proofs.Query.Value

/-!
# What goes entry by entry

A query compiles if all its entries do, and it admits a row if all its entries do; an `$and` does
either if all its branches do. `Query.Entrywise` says this of any property of queries, so that what
a rewriting of queries keeps is proved once for all of them: a rewriting that only adds entries,
adds branches to `$and` or joins queries by `$or` can be read backwards and forwards alike.

A branch of a combinator is a query of its own, so what it admits on its own may be compared with
what it contributes. `$and` is the intersection of its branches, whatever these are. `$or` joins
only those of its branches that ask something. It is their union if there are any; if there are none
it asks nothing either, and admits every row. So `$or` is the union of all its branches, but for an
empty list, and for lists in which some branches ask something and others do not: on its own a
branch that asks nothing admits every row, and beside the others it does not count
(`combinators_select`).
-/

namespace ObjectStore

/-- A property that queries have by their entries: an `$and` has it by all its branches, and an
`$or` with branches has it by one of them at least. -/
structure Query.Entrywise (P : Object → Prop) (PEntry : String × Json → Prop) : Prop where
  entries : ∀ {query : Object}, query.Canonical → (P query ↔ ∀ entry ∈ query, PEntry entry)
  and : ∀ {value : Json}, PEntry ("$and", value) ↔
    ∃ branches, value = .arr branches
      ∧ ∀ branch ∈ branches, ∃ fields, branch = .obj fields ∧ P fields
  or : ∀ {branches : List Json}, PEntry ("$or", .arr branches) → branches ≠ [] →
    ∃ fields, .obj fields ∈ branches ∧ P fields

/-- A key that joins branches starts with a dollar sign. -/
theorem Combinator.ofKey?_eq_none {key : String} (h : Text.startsWith key "$" = false) :
    ofKey? key = none := by
  unfold ofKey?
  split
  next => cases h
  next => cases h
  next => cases h
  next => rfl

namespace Compiler

open Result

variable {c : Compiler} {v : Valuation} {query : Object} {branches : List Json}
  {combinator : Combinator} {key : String} {value : Json}

/-! ## Compiling -/

/-- A query compiles. -/
def Compiles (c : Compiler) (query : Object) : Prop := ∃ out, c.compileEntries query = .ok out

/-- An entry of a query compiles. -/
def CompilesEntry (c : Compiler) (entry : String × Json) : Prop :=
  ∃ out, c.compileEntry entry = .ok out

theorem compiles_iff : c.Compiles query ↔ ∀ entry ∈ query, c.CompilesEntry entry := by
  unfold Compiles CompilesEntry
  induction query with
  | nil => simp [compileEntries]
  | cons entry rest ih =>
    rw [List.forall_mem_cons, ← ih, compileEntries_cons]
    simp only [bind_eq_ok, pure_eq_ok]
    constructor
    · rintro ⟨_, first, hfirst, others, hothers, rfl⟩
      exact ⟨⟨first, hfirst⟩, others, hothers⟩
    · rintro ⟨⟨first, hfirst⟩, others, hothers⟩
      exact ⟨_, first, hfirst, others, hothers, rfl⟩

/-- Branches compile if each of them is a query that does. -/
theorem compileBranches_isOk_iff : (∃ out, c.compileBranches combinator branches = .ok out) ↔
    ∀ branch ∈ branches, ∃ fields, branch = .obj fields ∧ c.Compiles fields := by
  induction branches with
  | nil => simp [compileBranches]
  | cons branch rest ih =>
    have hbranch : (∃ out, c.compileBranch combinator branch = .ok out)
        ↔ ∃ fields, branch = .obj fields ∧ c.Compiles fields := by
      simp only [compileBranch_eq_ok]
      constructor
      · rintro ⟨_, fields, compiled, rfl, hc, rfl⟩
        exact ⟨fields, rfl, compiled, hc⟩
      · rintro ⟨fields, rfl, compiled, hc⟩
        exact ⟨_, fields, compiled, rfl, hc, rfl⟩
    rw [List.forall_mem_cons, ← ih, ← hbranch, compileBranches_cons]
    simp only [bind_eq_ok, pure_eq_ok]
    constructor
    · rintro ⟨_, first, hfirst, others, hothers, rfl⟩
      exact ⟨⟨first, hfirst⟩, others, hothers⟩
    · rintro ⟨⟨first, hfirst⟩, others, hothers⟩
      exact ⟨_, first, hfirst, others, hothers, rfl⟩

/-- A combinator compiles if it has a list of queries that do. -/
theorem compilesEntry_combinator (hkey : Combinator.ofKey? key = some combinator) :
    c.CompilesEntry (key, value) ↔ ∃ branches, value = .arr branches ∧
      ∀ branch ∈ branches, ∃ fields, branch = .obj fields ∧ c.Compiles fields := by
  simp only [CompilesEntry, compileEntry, hkey, compileClause_eq_ok,
    ← @compileBranches_isOk_iff c _ combinator]
  constructor
  · rintro ⟨_, branches, compiled, rfl, hc, rfl⟩
    exact ⟨branches, rfl, compiled, hc⟩
  · rintro ⟨branches, rfl, compiled, hc⟩
    exact ⟨_, branches, compiled, rfl, hc, rfl⟩

theorem entrywise_compiles (c : Compiler) : Query.Entrywise c.Compiles c.CompilesEntry where
  entries _ := compiles_iff
  and := compilesEntry_combinator rfl
  or h hne := by
    obtain ⟨_, heq, hbranches⟩ :=
      (compilesEntry_combinator (rfl : Combinator.ofKey? "$or" = _)).mp h
    obtain rfl := Json.arr.inj heq
    obtain ⟨branch, hbranch⟩ := List.exists_mem_of_ne_nil _ hne
    obtain ⟨fields, rfl, hcompiles⟩ := hbranches branch hbranch
    exact ⟨fields, hbranch, hcompiles⟩

/-! ## Admitting a row -/

/-- A query that compiles, and that some row does not pass, asks something. -/
theorem asks_of_not_admits (hcompiles : c.Compiles query) (h : ¬ c.Admits v query) :
    c.Asks query := by
  obtain ⟨out, hout⟩ := hcompiles
  refine ⟨out, hout, fun hnil => h ⟨out, hout, ?_⟩⟩
  simp [Compiled.Holds, hnil]

/-- A branch that compiles asks something, or it admits every row. -/
theorem someBranch_admits_iff (hbranches : EveryBranch c.Compiles branches) :
    SomeBranch (c.Admits v) branches ↔
      SomeBranch (fun fields => c.Asks fields ∧ c.Admits v fields) branches
        ∨ SomeBranch (fun fields => ¬ c.Asks fields) branches := by
  constructor
  · rintro ⟨fields, hmem, hadmits⟩
    by_cases hasks : c.Asks fields
    · exact .inl ⟨fields, hmem, hasks, hadmits⟩
    · exact .inr ⟨fields, hmem, hasks⟩
  · rintro (⟨fields, hmem, _, hadmits⟩ | ⟨fields, hmem, hasks⟩)
    · exact ⟨fields, hmem, hadmits⟩
    · obtain ⟨_, heq, hcompiles⟩ := hbranches _ hmem
      obtain rfl := Json.obj.inj heq
      refine ⟨fields, hmem, ?_⟩
      by_contra hadmits
      exact hasks (asks_of_not_admits hcompiles hadmits)

/-- There is no branch if none asks something and none does not. -/
theorem eq_nil_iff_noBranch (hbranches : EveryBranch c.Compiles branches) :
    branches = [] ↔ ¬ SomeBranch c.Asks branches
      ∧ ¬ SomeBranch (fun fields => ¬ c.Asks fields) branches := by
  constructor
  · rintro rfl
    simp [SomeBranch]
  · rintro ⟨hasks, hnot⟩
    refine List.eq_nil_iff_forall_not_mem.mpr ?_
    intro branch hmem
    obtain ⟨fields, rfl, _⟩ := hbranches branch hmem
    exact hnot ⟨fields, hmem, fun hfields => hasks ⟨fields, hmem, hfields⟩⟩

/-- An `$or` that has branches admits only what one of them admits. -/
theorem exists_branch_of_admits_or (h : c.AdmitsEntry v ("$or", .arr branches))
    (hne : branches ≠ []) : SomeBranch (c.Admits v) branches := by
  have hcompiles : c.CompilesEntry ("$or", .arr branches) := h.imp fun _ hout => hout.1
  obtain ⟨_, heq, hbranches⟩ := (compilesEntry_combinator (rfl : Combinator.ofKey? "$or" = _)).mp
    hcompiles
  obtain rfl := Json.arr.inj heq
  rw [someBranch_admits_iff hbranches]
  rcases (admitsEntry_or hcompiles).mp h with hadmits | hnone
  · exact .inl hadmits
  · right
    by_contra hall
    exact hne ((eq_nil_iff_noBranch hbranches).mpr ⟨hnone, hall⟩)

theorem entrywise_admits (c : Compiler) (v : Valuation) :
    Query.Entrywise (c.Admits v) (c.AdmitsEntry v) where
  entries _ := admits_iff
  and {value} := by
    constructor
    · rintro ⟨out, hout, hholds⟩
      obtain ⟨branches, _, rfl, _⟩ := compileClause_eq_ok.mp hout
      exact ⟨branches, rfl, admitsEntry_and.mp ⟨out, hout, hholds⟩⟩
    · rintro ⟨branches, rfl, hbranches⟩
      exact admitsEntry_and.mpr hbranches
  or := exists_branch_of_admits_or

/-- An `$or` of branches that all ask something admits what one of them admits. -/
theorem admitsEntry_or_iff (hne : branches ≠ []) (hasks : EveryBranch c.Asks branches) :
    c.AdmitsEntry v ("$or", .arr branches) ↔ SomeBranch (c.Admits v) branches := by
  refine ⟨fun h => exists_branch_of_admits_or h hne, ?_⟩
  rintro ⟨fields, hmem, hadmits⟩
  have hcompiles : c.CompilesEntry ("$or", .arr branches) := by
    refine (compilesEntry_combinator (rfl : Combinator.ofKey? "$or" = _)).mpr ⟨branches, rfl, ?_⟩
    intro branch hb
    obtain ⟨asked, rfl, out, hout, _⟩ := hasks branch hb
    exact ⟨asked, rfl, out, hout⟩
  obtain ⟨_, heq, hasked⟩ := hasks _ hmem
  obtain rfl := Json.obj.inj heq
  exact (admitsEntry_or hcompiles).mpr (.inl ⟨fields, hmem, hasked, hadmits⟩)

end Compiler

/-! ## Unions and intersections -/

namespace Compiler

open Result

variable {c : Compiler} {v : Valuation} {query fields before after : Object}
  {entry : String × Json} {branches : List Json}

/-! ## One entry among others -/

/-- A query is admitted if its entries before and after an entry are, and this entry is. -/
theorem admits_between_iff : c.Admits v (before ++ entry :: after) ↔
    c.Admits v (before ++ after) ∧ c.AdmitsEntry v entry := by
  simp only [admits_iff, List.forall_mem_append, List.forall_mem_cons]
  tauto

theorem compiles_between_iff : c.Compiles (before ++ entry :: after) ↔
    c.Compiles (before ++ after) ∧ c.CompilesEntry entry := by
  simp only [compiles_iff, List.forall_mem_append, List.forall_mem_cons]
  tauto

/-- A query with `$and` admits what its other entries admit and every branch admits on its own.

If a query with `$or` compiles, it admits what its other entries admit and what one of those
branches admits that ask something; if none of them does, it admits what its other entries do. So it
is the union of its branches, unless the other entries admit a row and there is no branch, or there
are branches that ask something, but none of these admits the row, and there are others. -/
theorem combinators_select (c : Compiler) (before after : Object) (branches : List Json) :
    (∀ v, c.Admits v (before ++ ("$and", .arr branches) :: after)
      ↔ c.Admits v (before ++ after) ∧ EveryBranch (c.Admits v) branches)
    ∧ (c.Compiles (before ++ ("$or", .arr branches) :: after) →
      EveryBranch c.Compiles branches ∧ ∀ v,
      (c.Admits v (before ++ ("$or", .arr branches) :: after)
        ↔ c.Admits v (before ++ after)
          ∧ (SomeBranch (fun fields => c.Asks fields ∧ c.Admits v fields) branches
            ∨ ¬ SomeBranch c.Asks branches))
      ∧ ((c.Admits v (before ++ ("$or", .arr branches) :: after)
          ↔ c.Admits v (before ++ after) ∧ SomeBranch (c.Admits v) branches)
        ↔ ¬ (c.Admits v (before ++ after)
          ∧ (branches = []
            ∨ SomeBranch c.Asks branches ∧ SomeBranch (fun fields => ¬ c.Asks fields) branches
              ∧ ¬ SomeBranch (fun fields => c.Asks fields ∧ c.Admits v fields) branches)))) := by
  refine ⟨fun v => admits_between_iff.trans (and_congr_right' admitsEntry_and), ?_⟩
  intro h
  have hentry := (compiles_between_iff.mp h).2
  obtain ⟨_, heq, hbranches⟩ :=
    (compilesEntry_combinator (rfl : Combinator.ofKey? "$or" = some .or)).mp hentry
  obtain rfl := Json.arr.inj heq
  refine ⟨hbranches, ?_⟩
  intro v
  have hselect : c.Admits v (before ++ ("$or", .arr branches) :: after) ↔ _ :=
    admits_between_iff.trans (and_congr_right' (admitsEntry_or hentry))
  have hasks : SomeBranch (fun fields => c.Asks fields ∧ c.Admits v fields) branches →
      SomeBranch c.Asks branches := fun ⟨fields, hmem, hfields, _⟩ => ⟨fields, hmem, hfields⟩
  refine ⟨hselect, ?_⟩
  rw [hselect, someBranch_admits_iff hbranches, eq_nil_iff_noBranch hbranches]
  tauto

/-- People who have an age. -/
def people : Compiler :=
  .ofSchema ((Schema.ofClass "Person").withField "age" .number) false ⟨0, 0⟩

/-- A query for the people of an age. -/
def ofAge (age : Int) : Object := [("age", .int age)]

theorem asks_ofAge (age : Int) : people.Asks (ofAge age) := ⟨_, rfl, List.cons_ne_nil _ _⟩

/-- Where all branches ask something, an `$or` beside another constraint is their union. -/
theorem fiveOrSeven_select :
    people.Compiles ([("age", .obj [("$ne", .int 6)])]
        ++ [("$or", .arr [.obj (ofAge 5), .obj (ofAge 7)])])
      ∧ ∀ v, (people.Admits v ([("age", .obj [("$ne", .int 6)])]
          ++ [("$or", .arr [.obj (ofAge 5), .obj (ofAge 7)])])
        ↔ people.Admits v [("age", .obj [("$ne", .int 6)])]
          ∧ SomeBranch (people.Admits v) [.obj (ofAge 5), .obj (ofAge 7)]) := by
  have hcompiles : people.Compiles ([("age", .obj [("$ne", .int 6)])]
      ++ [("$or", .arr [.obj (ofAge 5), .obj (ofAge 7)])]) := ⟨_, rfl⟩
  refine ⟨hcompiles, ?_⟩
  intro v
  obtain ⟨-, hrows⟩ := (combinators_select people [("age", .obj [("$ne", .int 6)])] []
    [.obj (ofAge 5), .obj (ofAge 7)]).2 hcompiles
  refine (hrows v).2.mpr ?_
  rintro ⟨-, hnil | ⟨-, ⟨fields, hmem, hnot⟩, -⟩⟩
  · cases hnil
  · have hage : fields = ofAge 5 ∨ fields = ofAge 7 := by simpa using hmem
    obtain rfl | rfl := hage
    · exact hnot (asks_ofAge 5)
    · exact hnot (asks_ofAge 7)

/-- A branch that asks nothing admits every row on its own, and does not count beside a branch that
asks for an age. An `$or` without branches admits every row, and no branch does. -/
theorem emptyBranch_not_counted :
    (people.Compiles [("$or", .arr [.obj [], .obj (ofAge 5)])]
        ∧ ¬ (people.Admits (fun _ => some false) [("$or", .arr [.obj [], .obj (ofAge 5)])]
          ↔ people.Admits (fun _ => some false) []
            ∧ SomeBranch (people.Admits fun _ => some false) [.obj [], .obj (ofAge 5)]))
      ∧ (people.Compiles [("$or", .arr [])]
        ∧ ¬ (people.Admits (fun _ => some false) [("$or", .arr [])]
          ↔ people.Admits (fun _ => some false) []
            ∧ SomeBranch (people.Admits fun _ => some false) [])) := by
  have hempty : people.Admits (fun _ => some false) [] := admits_iff.mpr nofun
  refine ⟨⟨⟨_, rfl⟩, ?_⟩, ⟨_, rfl⟩, ?_⟩
  · intro hunion
    obtain ⟨_, hout, hholds⟩ := hunion.mpr ⟨hempty, [], List.mem_cons_self, hempty⟩
    obtain rfl := Except.ok.inj hout
    exact nomatch hholds _ List.mem_cons_self
  · intro hunion
    have hadmits : people.Admits (fun _ => some false) [("$or", .arr [])] := ⟨_, rfl, nofun⟩
    obtain ⟨-, _, hmem, -⟩ := hunion.mp hadmits
    cases hmem

end Compiler

end ObjectStore
