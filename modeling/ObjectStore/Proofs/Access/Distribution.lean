import ObjectStore.Proofs.Access.Acceptance
import ObjectStore.Proofs.Query.Value

/-!
# Constraints that move leave the meaning of a query

A constraint beside an `$or` is asked together with an alternative; in the branches it is asked
together with each of the alternatives. In three values as in two these come to the same, as long as
there are branches and each of them asks something (`Value.both_any`).

So a query with such an `$or` comes to the same after each single move
(`Distributes.moveIntoBranches`) and after all of them (`Distributes.restructure`). Branches are
checked, and changed, before the query that they stand in; by induction from the branches a query
comes to what it came to before (`comesTo_of_validate`).
-/

namespace ObjectStore.Access

open Result Query

variable {c : Compiler} {v : Valuation} {query settled other : Object} {key : String}
  {constraint : Json} {branches : List Object} {m : Value}

/-! ## Branches that are objects -/

theorem branchesComeTo_map_obj {values : List Value} :
    c.BranchesComeTo v (branches.map .obj) values ↔ List.Forall₂ (c.ComesTo v) branches values := by
  rw [Compiler.BranchesComeTo, List.forall₂_map_left_iff]
  simp

/-- An `$or` comes to any of what its branches come to. -/
theorem entryComesTo_or : c.EntryComesTo v ("$or", .arr (branches.map .obj)) m ↔
    ∃ values, List.Forall₂ (c.ComesTo v) branches values ∧ m = Value.any values := by
  have hkey : Combinator.ofKey? "$or" = some .or := rfl
  rw [Compiler.entryComesTo_combinator hkey]
  constructor
  · rintro ⟨_, values, heq, hvalues, rfl⟩
    obtain rfl := Json.arr.inj heq
    exact ⟨values, branchesComeTo_map_obj.mp hvalues, rfl⟩
  · rintro ⟨values, hvalues, rfl⟩
    exact ⟨_, values, rfl, branchesComeTo_map_obj.mpr hvalues, rfl⟩

/-- What a branch without a constraint of its own comes to with one more constraint. -/
theorem comesTo_insert_of_get?_eq_none {branch : Object} {a b : Value} (hbranch : branch.Sorted)
    (hfree : branch.get? key = none) (ha : c.EntryComesTo v (key, constraint) a)
    (hb : c.ComesTo v branch b) : c.ComesTo v (branch.insert key constraint) (.both a b) := by
  refine (Compiler.comesTo_insert hbranch).mpr ⟨a, b, ha, ?_, rfl⟩
  rwa [Dict.erase_of_get?_eq_none hfree]

/-! ## One move -/

/-- A query that comes to a value, with an `$or` of branches each of which asks something. -/
structure Distributes (c : Compiler) (v : Valuation) (query : Object) (branches : List Object)
    (m : Value) : Prop where
  sorted : query.Sorted
  or_eq : query.get? "$or" = some (.arr (branches.map .obj))
  ne_nil : branches ≠ []
  branches_sorted : ∀ branch ∈ branches, branch.Sorted
  branches_ask : ∀ branch ∈ branches, c.Asks branch
  comesTo : c.ComesTo v query m

/-- The values of branches that ask something are truth values. -/
theorem ne_none_of_asks {values : List Value} (hvalues : List.Forall₂ (c.ComesTo v) branches values)
    (hasks : ∀ branch ∈ branches, c.Asks branch) : ∀ value ∈ values, value ≠ none := by
  induction hvalues with
  | nil => simp
  | cons hvalue _ ih =>
    rw [List.forall_mem_cons] at hasks ⊢
    obtain ⟨b, hb⟩ := (Compiler.asks_iff v).mp hasks.1
    exact ⟨hvalue.unique hb ▸ Option.some_ne_none b, ih hasks.2⟩

/-- A constraint that leaves the query for each of the branches is asked as it was. -/
theorem Distributes.comesTo_moved (h : Distributes c v query branches m) (hkey : key ≠ "$or")
    (hvalue : query.get? key = some constraint)
    (hfree : ∀ branch ∈ branches, branch.get? key = none) :
    c.ComesTo v ((query.erase key).insert "$or"
      (.arr ((branches.map (Dict.insert · key constraint)).map .obj))) m := by
  -- the constraint, the `$or` and the rest of the query come to `a`, `any values` and `r`
  obtain ⟨a, _, ha, hrest, rfl⟩ := (Compiler.comesTo_erase h.sorted hvalue).mp h.comesTo
  have hor := (Dict.get?_erase_of_ne hkey.symm).trans h.or_eq
  obtain ⟨_, r, hany, hr, rfl⟩ := (Compiler.comesTo_erase (h.sorted.erase key) hor).mp hrest
  obtain ⟨values, hvalues, rfl⟩ := entryComesTo_or.mp hany
  have hmoved : List.Forall₂ (c.ComesTo v) (branches.map (Dict.insert · key constraint))
      (values.map (.both a)) := by
    rw [List.forall₂_map_left_iff, List.forall₂_map_right_iff]
    have hbranches := fun branch hb => And.intro (h.branches_sorted branch hb) (hfree branch hb)
    refine ((List.forall₂_and_left branches values).mpr ⟨hbranches, hvalues⟩).imp ?_
    rintro branch b ⟨⟨hsorted, hnone⟩, hb⟩
    exact comesTo_insert_of_get?_eq_none hsorted hnone ha hb
  refine (Compiler.comesTo_insert (h.sorted.erase key)).mpr
    ⟨_, r, entryComesTo_or.mpr ⟨_, hmoved, rfl⟩, hr, ?_⟩
  have hne : values ≠ [] := fun hnil =>
    h.ne_nil (List.eq_nil_of_length_eq_zero (by rw [hvalues.length_eq, hnil]; rfl))
  rw [← Value.both_any a hne (ne_none_of_asks hvalues h.branches_ask)]
  ac_rfl

/-- One move leaves what a query comes to. -/
theorem Distributes.moveIntoBranches (h : Distributes c v query branches m) (hkey : key ≠ "$or") :
    ∃ branches', Distributes c v (moveIntoBranches query key) branches' m := by
  rcases moveIntoBranches_cases branches h.or_eq key with
    ⟨heq, _⟩ | ⟨value, hvalue, _, hfree, heq⟩ <;> rw [heq]
  · exact ⟨branches, h⟩
  refine ⟨branches.map (Dict.insert · key value), (h.sorted.erase key).insert _ _,
    Dict.get?_insert_self .., by simpa using h.ne_nil, List.forall_mem_map.mpr ?_,
    List.forall_mem_map.mpr ?_, h.comesTo_moved hkey hvalue hfree⟩
  · intro branch hb
    exact (h.branches_sorted branch hb).insert _ _
  · intro branch hb
    obtain ⟨a, _, ha, _⟩ := (Compiler.comesTo_erase h.sorted hvalue).mp h.comesTo
    obtain ⟨b, hb'⟩ := (Compiler.asks_iff v).mp (h.branches_ask branch hb)
    have hmoved :=
      comesTo_insert_of_get?_eq_none (h.branches_sorted branch hb) (hfree branch hb) ha hb'
    exact (Compiler.asks_iff v).mpr (by cases a <;> exact ⟨_, hmoved⟩)

/-- Moving all constraints leaves what a query comes to. -/
theorem Distributes.restructure (h : Distributes c v query branches m) :
    c.ComesTo v (restructure query) m := by
  have hkeys : "$or" ∉ query.keys.filter (· != "$or") := by simp
  unfold Access.restructure
  generalize query.keys.filter (· != "$or") = keys at hkeys
  induction keys generalizing query branches with
  | nil => exact h.comesTo
  | cons key rest ih =>
    rw [List.mem_cons, not_or] at hkeys
    obtain ⟨branches', h'⟩ := h.moveIntoBranches (Ne.symm hkeys.1)
    exact ih h' hkeys.2

/-! ## Validation -/

/-- What validation makes of a query comes to what the query comes to. -/
def KeepsMeaning (c : Compiler) (v : Valuation) (query : Object) : Prop :=
  ∀ settled m, validate true query = .ok settled → c.ComesTo v query m → c.ComesTo v settled m

theorem sorted_of_validate (hq : query.Sorted) (h : validate true query = .ok settled) :
    settled.Sorted := by
  obtain ⟨_, ors, ands, hors, hands, hnors, _⟩ := settle_eq_ok h
  obtain ⟨left, hleft, hsorted, _⟩ := exists_left hq hors
  exact sorted_takeBranches (sorted_takeBranches hsorted (hleft ▸ hands)) hnors

/-- Checked branches come to what the branches come to. -/
theorem branchesComeTo_of_checkBranches {items items' : List Json} {values : List Value}
    (hitems : ∀ fields, .obj fields ∈ items → KeepsMeaning c v fields)
    (h : checkBranches true items = .ok items') (hvalues : c.BranchesComeTo v items values) :
    c.BranchesComeTo v items' values := by
  induction hvalues generalizing items' with
  | nil =>
    obtain rfl := Except.ok.inj h
    exact .nil
  | cons hvalue _ ih =>
    obtain ⟨fields, rfl, hcomes⟩ := hvalue
    obtain ⟨branch', hbranch, h⟩ := bind_eq_ok.mp h
    obtain ⟨rest', hrest, h⟩ := bind_eq_ok.mp h
    obtain rfl := pure_eq_ok.mp h
    obtain ⟨settled, hsettled, hbranch⟩ := bind_eq_ok.mp hbranch
    obtain rfl := pure_eq_ok.mp hbranch
    refine .cons ⟨settled, rfl, hitems fields List.mem_cons_self settled _ hsettled hcomes⟩ ?_
    exact ih (fun fields hmem => hitems fields (List.mem_cons_of_mem _ hmem)) hrest

/-- Taking the checked branches of a combinator leaves what a query comes to. -/
theorem comesTo_of_takeBranches (hkey : (Combinator.ofKey? key).isSome = true)
    (hbranches : ∀ fields, IsBranchOf fields query → KeepsMeaning c v fields)
    (hother : ∀ value, other.get? key = some value → query.get? key = some value)
    (hsorted : other.Sorted) (h : takeBranches (checkMembers true query) other key = .ok settled)
    (hm : c.ComesTo v other m) : c.ComesTo v settled m := by
  unfold takeBranches at h
  cases hget : other.get? key with
  | none =>
    rw [hget] at h
    exact Except.ok.inj h ▸ hm
  | some value =>
    have hvalue := hother value hget
    rw [hget, get?_checkMembers true query hkey, hvalue] at h
    obtain ⟨items', hitems', h⟩ := bind_eq_ok.mp h
    obtain rfl := pure_eq_ok.mp h
    obtain ⟨combinator, hcombinator⟩ := Option.isSome_iff_exists.mp hkey
    obtain ⟨a, b, ha, hb, rfl⟩ := (Compiler.comesTo_erase hsorted hget).mp hm
    obtain ⟨items, values, rfl, hvalues, rfl⟩ :=
      (Compiler.entryComesTo_combinator hcombinator).mp ha
    have hchecked : checkBranches true items = .ok items' := by
      unfold checkClause at hitems'
      split at hitems'
      · cases hitems'
      · exact hitems'
    have hvalues' := branchesComeTo_of_checkBranches (fun fields hmem =>
      hbranches fields ⟨key, items, hkey, Dict.mem_of_get? hvalue, hmem⟩) hchecked hvalues
    exact (Compiler.comesTo_insert hsorted).mpr ⟨_, b,
      (Compiler.entryComesTo_combinator hcombinator).mpr ⟨items', values, rfl, hvalues', rfl⟩,
      hb, rfl⟩

/-- A checked branch is what validation makes of a branch. -/
theorem exists_of_checkBranches {items : List Json}
    (h : checkBranches true items = .ok (branches.map .obj)) :
    ∀ branch ∈ branches, ∃ fields, .obj fields ∈ items ∧ validate true fields = .ok branch := by
  induction items generalizing branches with
  | nil =>
    obtain rfl := List.map_eq_nil_iff.mp (Except.ok.inj h).symm
    simp
  | cons item rest ih =>
    obtain ⟨first, hfirst, h⟩ := bind_eq_ok.mp h
    obtain ⟨others, hothers, h⟩ := bind_eq_ok.mp h
    obtain ⟨branch, branches, rfl, rfl, rfl⟩ := List.map_eq_cons_iff.mp (pure_eq_ok.mp h).symm
    obtain ⟨fields, settled, rfl, hsettled, hbranch⟩ : ∃ fields settled, item = .obj fields
        ∧ validate true fields = .ok settled ∧ Json.obj branch = .obj settled := by
      cases item with
      | obj fields =>
        obtain ⟨settled, hsettled, hbranch⟩ := bind_eq_ok.mp hfirst
        exact ⟨fields, settled, rfl, hsettled, (pure_eq_ok.mp hbranch).symm⟩
      | _ => cases hfirst
    obtain rfl := Json.obj.inj hbranch
    refine List.forall_mem_cons.mpr ⟨⟨fields, List.mem_cons_self, hsettled⟩, ?_⟩
    intro branch hb
    obtain ⟨fields, hmem, hvalid⟩ := ih hothers branch hb
    exact ⟨fields, List.mem_cons_of_mem _ hmem, hvalid⟩

/-- The `$or` of a query, if it has one, has branches, and each of them asks something by itself. -/
def Splits (c : Compiler) (query : Object) : Prop :=
  ∀ value, query.get? "$or" = some value → ∃ branches : List Object,
    value = .arr (branches.map .obj) ∧ branches ≠ [] ∧ ∀ branch ∈ branches, c.Asks branch

/-- Each `$or` of a query, at any depth, has branches that ask something by themselves. -/
def SplitsAll (c : Compiler) (query : Object) : Prop :=
  ∀ level, IsLevelOf level query → Splits c level

theorem splitsAll_iff : SplitsAll c query ↔
    Splits c query ∧ ∀ fields, IsBranchOf fields query → SplitsAll c fields := by
  constructor
  · intro h
    refine ⟨h query (.self query), ?_⟩
    intro fields hbranch level hlevel
    exact h level (.inside hbranch hlevel)
  · rintro ⟨hown, hbranches⟩ level hlevel
    cases hlevel with
    | self => exact hown
    | inside hbranch hlevel => exact hbranches _ hbranch _ hlevel

/-- The checked `$or` of a query distributes, if the `$or` of the query has branches that ask
something. -/
theorem distributes_of_checkBranches {items : List Json} (hq : query.Canonical)
    (hsplits : SplitsAll c query)
    (hbranches : ∀ fields, IsBranchOf fields query → KeepsMeaning c v fields)
    (hor : query.get? "$or" = some (.arr items))
    (hchecked : checkBranches true items = .ok (branches.map .obj))
    (hlength : branches.length = items.length)
    (hm : c.ComesTo v (query.insert "$or" (.arr (branches.map .obj))) m) :
    Distributes c v (query.insert "$or" (.arr (branches.map .obj))) branches m := by
  obtain ⟨objects, heq, hne, hasks⟩ := (splitsAll_iff.mp hsplits).1 _ hor
  obtain rfl := Json.arr.inj heq
  have hsettled := exists_of_checkBranches hchecked
  have hthere : ∀ fields, .obj fields ∈ objects.map Json.obj → fields ∈ objects
      ∧ IsBranchOf fields query := by
    intro fields hmem
    refine ⟨?_, "$or", _, rfl, Dict.mem_of_get? hor, hmem⟩
    obtain ⟨_, hobject, heq⟩ := List.mem_map.mp hmem
    exact Json.obj.inj heq ▸ hobject
  refine ⟨hq.sorted.insert _ _, Dict.get?_insert_self .., ?_, ?_, ?_, hm⟩
  · intro hnil
    rw [List.length_map, hnil] at hlength
    exact hne (List.eq_nil_of_length_eq_zero hlength.symm)
  · intro branch hb
    obtain ⟨fields, hmem, hvalid⟩ := hsettled branch hb
    exact sorted_of_validate ((hthere fields hmem).2.canonical hq).sorted hvalid
  · intro branch hb
    obtain ⟨fields, hmem, hvalid⟩ := hsettled branch hb
    obtain ⟨b, hcomes⟩ := (Compiler.asks_iff v).mp (hasks fields (hthere fields hmem).1)
    have hcomesTo := hbranches fields (hthere fields hmem).2 branch _ hvalid hcomes
    exact (Compiler.asks_iff v).mpr ⟨b, hcomesTo⟩

/-- A query whose `$or`s split comes to the same, on every row, once it is validated and its
constraints have moved. -/
theorem keepsMeaning_of_splitsAll (hq : query.Canonical) (hsplits : SplitsAll c query) :
    KeepsMeaning c v query := by
  induction query using Query.induction with
  | h query ih =>
    have hbranches : ∀ fields, IsBranchOf fields query → KeepsMeaning c v fields :=
      fun fields hb => ih fields hb (hb.canonical hq) ((splitsAll_iff.mp hsplits).2 fields hb)
    intro settled m h hm
    obtain ⟨_, ors, ands, hors, hands, hnors, _⟩ := settle_eq_ok h
    have hcomes := comesTo_of_takeBranches rfl hbranches (fun _ h => h) hq.sorted hors hm
    obtain ⟨left, hleft, hsorted, _, hstays⟩ := exists_left hq.sorted hors
    have hleftComes : c.ComesTo v left m := by
      rw [← hleft]
      rcases takeBranches_or_cases hors with
        ⟨hnone, rfl⟩ | ⟨items, branches, hor, hchecked, rfl, hlength⟩
      · rwa [if_neg (by simp [Dict.contains, hnone])]
      · rw [if_pos (by simp [Dict.contains, Dict.get?_insert_self])]
        have hdistributes :=
          distributes_of_checkBranches hq hsplits hbranches hor hchecked hlength hcomes
        exact hdistributes.restructure
    rw [hleft] at hands
    have hand : ∀ value, left.get? "$and" = some value → query.get? "$and" = some value :=
      fun value hvalue => ((hstays _ (by decide) value).mp hvalue).1
    have hnor : ∀ value, ands.get? "$nor" = some value → query.get? "$nor" = some value := by
      intro value hvalue
      rw [get?_takeBranches_of_ne hands (by decide)] at hvalue
      exact ((hstays _ (by decide) value).mp hvalue).1
    have handsComes := comesTo_of_takeBranches rfl hbranches hand hsorted hands hleftComes
    have hsorted' := sorted_takeBranches hsorted hands
    exact comesTo_of_takeBranches rfl hbranches hnor hsorted' hnors handsComes

/-! ## Compiled queries -/

/-- The predicate of a filter comes to what its query comes to. -/
theorem comesTo_of_ofQuery {f : Filter} (h : Filter.ofQuery c query = .ok f) (v : Valuation) :
    c.ComesTo v query (f.predicate.map (Predicate.truth v)) := by
  obtain ⟨compiled, hcompiled, h⟩ := bind_eq_ok.mp h
  obtain rfl := pure_eq_ok.mp h
  exact ⟨compiled, hcompiled, rfl⟩

theorem exists_ofQuery_of_comesTo (h : c.ComesTo v query m) :
    ∃ f, Filter.ofQuery c query = .ok f := by
  obtain ⟨compiled, hcompiled, _⟩ := h
  exact ⟨_, bind_eq_ok.mpr ⟨compiled, hcompiled, rfl⟩⟩

/-- Filters whose predicates come to the same hold on the same rows. -/
theorem holds_iff_of_truth_eq {f f' : Filter}
    (h : f.predicate.map (Predicate.truth v) = f'.predicate.map (Predicate.truth v)) :
    f.Holds v ↔ f'.Holds v := by
  have hiff : ∀ f : Filter, f.Holds v ↔
      ∀ b, f.predicate.map (Predicate.truth v) = some b → b = some true := by
    intro f
    simp [Filter.Holds]
  rw [hiff, hiff, h]

/-- Moving constraints into the branches of each `$or` changes nothing of what a query asks: if the
query compiles as it is, then it compiles with its constraints moved, and on every row the two
predicates come to the same of true, false and unknown. -/
theorem exists_filter_moved {kept moved : Object} {f : Filter} (hq : query.Canonical)
    (hsplits : SplitsAll c query) (hkept : validate false query = .ok kept)
    (hmoved : validate true query = .ok moved) (hf : Filter.ofQuery c kept = .ok f) :
    ∃ f', Filter.ofQuery c moved = .ok f' ∧ ∀ v : Valuation,
      f.predicate.map (Predicate.truth v) = f'.predicate.map (Predicate.truth v)
        ∧ (f.Holds v ↔ f'.Holds v) := by
  obtain rfl := validate_eq_self hq hkept
  have hcomes : ∀ v, c.ComesTo v moved (f.predicate.map (Predicate.truth v)) := fun v =>
    keepsMeaning_of_splitsAll hq hsplits moved _ hmoved (comesTo_of_ofQuery hf v)
  obtain ⟨f', hf'⟩ := exists_ofQuery_of_comesTo (hcomes fun _ => none)
  refine ⟨f', hf', ?_⟩
  intro v
  have hsame := (hcomes v).unique (comesTo_of_ofQuery hf' v)
  exact ⟨hsame, holds_iff_of_truth_eq hsame⟩

/-- Posts with the texts that they have. -/
def postCompiler : Compiler :=
  .ofSchema ⟨"Post", [("author", .string), ("kind", .string), ("source", .string),
    ("title", .string)], none, []⟩ false ⟨0, 0⟩

theorem splitsAll_titledPosts : SplitsAll postCompiler titledPosts := by
  have hflat : ∀ name s, name ∈ ["author", "kind", "source"] →
      SplitsAll postCompiler [(name, .str s)] ∧ postCompiler.Asks [(name, .str s)] := by
    intro name s hname
    simp only [List.mem_cons, List.not_mem_nil, or_false] at hname
    rcases hname with rfl | rfl | rfl <;>
      exact ⟨splitsAll_iff.mpr ⟨by simp [Splits, Dict.get?], by simp [IsBranchOf]⟩,
        _, rfl, List.cons_ne_nil _ _⟩
  have hinner : SplitsAll postCompiler [("$or", .arr [.obj [("author", .str "a")],
      .obj [("source", .str "s")]]), ("kind", .str "note")] := by
    refine splitsAll_iff.mpr ⟨?_, ?_⟩
    · intro value hvalue
      obtain rfl := Option.some.inj hvalue
      refine ⟨[_, _], rfl, List.cons_ne_nil _ _, List.forall_mem_cons.mpr ⟨(hflat _ _ (by simp)).2,
        List.forall_mem_singleton.mpr (hflat _ _ (by simp)).2⟩⟩
    · intro fields hbranch
      obtain rfl | rfl : fields = [("author", .str "a")] ∨ fields = [("source", .str "s")] := by
        simpa [IsBranchOf, Combinator.ofKey?] using hbranch
      · exact (hflat _ _ (by simp)).1
      · exact (hflat _ _ (by simp)).1
  refine splitsAll_iff.mpr ⟨?_, ?_⟩
  · intro value hvalue
    obtain rfl := Option.some.inj hvalue
    refine ⟨[_, _], rfl, List.cons_ne_nil _ _, List.forall_mem_cons.mpr ⟨(hflat _ _ (by simp)).2,
      List.forall_mem_singleton.mpr ⟨_, rfl, List.cons_ne_nil _ _⟩⟩⟩
  · intro fields hbranch
    obtain rfl | rfl : fields = [("kind", .str "news")] ∨ fields = [("$or",
        .arr [.obj [("author", .str "a")], .obj [("source", .str "s")]]),
      ("kind", .str "note")] := by
      simpa [titledPosts, IsBranchOf, Combinator.ofKey?] using hbranch
    · exact (hflat _ _ (by simp)).1
    · exact hinner

/-- The title moves into both alternatives, and the kind of the notes into the two below. -/
def movedPosts : Object :=
  [("$or", .arr [.obj [("kind", .str "news"), ("title", .str "x")],
    .obj [("$or", .arr [.obj [("author", .str "a"), ("kind", .str "note")],
        .obj [("kind", .str "note"), ("source", .str "s")]]),
      ("title", .str "x")]])]

theorem titledPosts_filter_moved : titledPosts.Canonical ∧ SplitsAll postCompiler titledPosts
    ∧ validate false titledPosts = .ok titledPosts ∧ validate true titledPosts = .ok movedPosts
    ∧ ∃ f f', Filter.ofQuery postCompiler titledPosts = .ok f
      ∧ Filter.ofQuery postCompiler movedPosts = .ok f' ∧ ∀ v : Valuation,
        f.predicate.map (Predicate.truth v) = f'.predicate.map (Predicate.truth v)
          ∧ (f.Holds v ↔ f'.Holds v) := by
  have hq : titledPosts.Canonical := Object.canonical_of_isCanonical (by decide)
  obtain ⟨f', hf', hsame⟩ := exists_filter_moved hq splitsAll_titledPosts rfl
    (rfl : validate true titledPosts = .ok movedPosts) rfl
  exact ⟨hq, splitsAll_titledPosts, rfl, rfl, _, f', rfl, hf', hsame⟩

end ObjectStore.Access
