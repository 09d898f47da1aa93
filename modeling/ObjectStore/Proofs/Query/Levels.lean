import ObjectStore.Proofs.Json.Canonical
import ObjectStore.Proofs.Query.Descend
import ObjectStore.Proofs.Query.Leaves

/-!
# The levels of a query

`Query.descend` changes a query and its branches below `$or` and `$and`, at any depth: these are the
levels of the query. What stands below `$nor` it never meets. So when the change of one level
settles the entries under some keys, the fields that it leaves to the compiler are those of all
other entries of all levels (`Query.unresolved`), and what a query asks is what the entries on its
levels ask (`asksOnly_of_standsIn`).
-/

namespace ObjectStore

open Compiler (AsksOnly leaves)

namespace Query

/-- Whether changes are carried to the branches under a key. -/
def isDescended (key : String) : Bool := key = "$or" || key = "$and"

/-- Changes are carried below `$or` and `$and`. -/
theorem isDescended_iff {key : String} : isDescended key = true ↔ key = "$or" ∨ key = "$and" := by
  simp [isDescended]

mutual

/-- The levels below a query. -/
def levelsBelow : List (String × Json) → List Object
  | [] => []
  | (key, value) :: rest =>
    (if isDescended key then levelsOfList value else []) ++ levelsBelow rest

/-- The levels of the branches of a list. -/
def levelsOfList : Json → List Object
  | .arr branches => levelsOfBranches branches
  | _ => []

/-- The levels of some branches. -/
def levelsOfBranches : List Json → List Object
  | [] => []
  | .obj fields :: rest => fields :: (levelsBelow fields ++ levelsOfBranches rest)
  | _ :: rest => levelsOfBranches rest

end

/-- A query and its branches below `$or` and `$and`, at any depth. -/
def levels (query : Object) : List Object := query :: levelsBelow query

/-- The fields, with their constraints, that are left when on every level the entries under some
keys are settled. -/
def unresolved (settled : String → Bool) (query : Object) : List (String × Json) :=
  (levels query).flatMap fun level =>
    leaves (level.filter fun entry => !(isDescended entry.1 || settled entry.1))

variable {query level after : Object} {entry : String × Json} {branches : List Json}
  {settled : String → Bool} {P : String → Prop}

/-- A branch of a query that changes are carried to. -/
def IsBranch (fields query : Object) : Prop :=
  ∃ entry ∈ query, isDescended entry.1 = true ∧ ∃ branches, entry.2 = .arr branches ∧
    .obj fields ∈ branches

/-- The levels of some branches are those of each of them. -/
theorem mem_levelsOfBranches :
    level ∈ levelsOfBranches branches
      ↔ ∃ fields, .obj fields ∈ branches ∧ level ∈ levels fields := by
  induction branches with
  | nil => simp [levelsOfBranches]
  | cons branch rest ih =>
    cases branch with
    | obj fields =>
      rw [levelsOfBranches, ← List.cons_append, ← levels, List.mem_append, ih]
      simp only [List.mem_cons, Json.obj.injEq, or_and_right, exists_or, exists_eq_left]
    | _ => simp [levelsOfBranches, ih]

/-- The levels below a query are the levels of its branches. -/
theorem mem_levelsBelow :
    level ∈ levelsBelow query ↔ ∃ fields, IsBranch fields query ∧ level ∈ levels fields := by
  induction query with
  | nil => simp [levelsBelow, IsBranch]
  | cons entry rest ih =>
    obtain ⟨key, value⟩ := entry
    have hbranch : ∀ fields, IsBranch fields ((key, value) :: rest) ↔
        (isDescended key = true ∧ ∃ branches, value = .arr branches ∧ .obj fields ∈ branches) ∨
          IsBranch fields rest := fun fields => by simp [IsBranch]
    rw [levelsBelow, List.mem_append, ih]
    simp only [hbranch, or_and_right, exists_or]
    refine or_congr_left ?_
    cases hkey : isDescended key with
    | false => simp
    | true =>
      cases value with
      | arr branches => simp [levelsOfList, mem_levelsOfBranches]
      | _ => simp [levelsOfList]

/-- An entry, other than `$or` and `$and`, that stands on some level of a query. -/
def StandsIn (entry : String × Json) (query : Object) : Prop :=
  isDescended entry.1 = false ∧ ∃ level ∈ levels query, entry ∈ level

/-- What stands in a query is one of its own entries or stands in a branch. -/
theorem standsIn_iff : StandsIn entry query ↔
    isDescended entry.1 = false ∧ entry ∈ query ∨
      ∃ fields, IsBranch fields query ∧ StandsIn entry fields := by
  have hlevels : (∃ level ∈ levels query, entry ∈ level) ↔
      entry ∈ query ∨ ∃ fields, IsBranch fields query ∧ ∃ level ∈ levels fields, entry ∈ level := by
    rw [levels, List.exists_mem_cons_iff]
    simp only [mem_levelsBelow]
    tauto
  rw [StandsIn, hlevels]
  simp only [StandsIn]
  tauto

/-- All unresolved fields have a property if all entries do that stand in the query and are not
settled. -/
theorem forall_unresolved_iff : (∀ field ∈ unresolved settled query, P field.1) ↔
    ∀ entry, StandsIn entry query → settled entry.1 = false → AsksOnly P [entry] := by
  have hlevel : ∀ level : Object,
      (∀ field ∈ leaves (level.filter fun entry => !(isDescended entry.1 || settled entry.1)),
        P field.1) ↔
      ∀ entry ∈ level, isDescended entry.1 = false → settled entry.1 = false →
        AsksOnly P [entry] := by
    intro level
    change AsksOnly P _ ↔ _
    rw [Compiler.asksOnly_iff]
    simp only [List.mem_filter, Bool.not_eq_true', Bool.or_eq_false_iff, and_imp]
  rw [unresolved, List.forall_mem_flatMap]
  simp only [hlevel, StandsIn]
  constructor
  · rintro h entry ⟨hkey, level, hl, he⟩
    exact h level hl entry he hkey
  · intro h level hl entry he hkey
    exact h entry ⟨hkey, level, hl, he⟩

/-- A branch is smaller than its query, which bounds the recursion on levels. -/
theorem sizeOf_lt_of_isBranch {fields : Object} (h : IsBranch fields query) :
    sizeOf fields < sizeOf query := by
  obtain ⟨⟨key, value⟩, he, _, branches, rfl, hbranch⟩ := h
  have hentry := List.sizeOf_lt_of_mem he
  have hfields := List.sizeOf_lt_of_mem hbranch
  simp only [Prod.mk.sizeOf_spec, Json.arr.sizeOf_spec, Json.obj.sizeOf_spec] at hentry hfields
  omega

/-- A query asks what the entries on its levels ask. -/
theorem asksOnly_of_standsIn (query : Object)
    (h : ∀ entry, StandsIn entry query → AsksOnly P [entry]) : AsksOnly P query := by
  rw [Compiler.asksOnly_iff]
  rintro ⟨key, value⟩ he
  cases hkey : isDescended key with
  | false => exact h _ (standsIn_iff.mpr (Or.inl ⟨hkey, he⟩))
  | true =>
    have hcombinator : (Combinator.ofKey? key).isSome = true := by
      rcases isDescended_iff.mp hkey with rfl | rfl <;> rfl
    cases value with
    | arr branches =>
      rw [Compiler.asksOnly_branches hcombinator]
      intro fields hf
      have hbranch : IsBranch fields query := ⟨_, he, hkey, branches, rfl, hf⟩
      have := sizeOf_lt_of_isBranch hbranch
      exact asksOnly_of_standsIn fields fun entry hs =>
        h entry (standsIn_iff.mpr (Or.inr ⟨fields, hbranch, hs⟩))
    | _ =>
      rw [Compiler.asksOnly_clause hcombinator]
      exact fun _ h => (List.not_mem_nil h).elim
termination_by sizeOf query

/-! ## Levels whose branches were changed -/

variable {R : Object → Object → Prop} {ors ands : Option (List Json)} {key : String}

/-- A level with the branches that came out for those under `$or` and `$and`. -/
def withBranches (level : Object) (ors ands : Option (List Json)) : Object :=
  putList (putList level "$or" ors) "$and" ands

/-- Putting branches under a key keeps a level in order. -/
theorem sorted_putList (items : Option (List Json)) (hlevel : level.Sorted) :
    (putList level key items).Sorted := by
  cases items with
  | none => exact hlevel
  | some list => exact hlevel.insert key _

/-- Putting branches under a key leaves the other keys. -/
theorem get?_putList_of_ne (items : Option (List Json)) {other : String} (h : other ≠ key) :
    (putList level key items).get? other = level.get? other := by
  cases items with
  | none => rfl
  | some list => exact Dict.get?_insert_of_ne _ _ h

/-- Whatever is under keys without branches is left. -/
theorem get?_withBranches_of_not_isDescended (h : isDescended key = false) :
    (withBranches level ors ands).get? key = level.get? key := by
  rw [← Bool.not_eq_true, isDescended_iff, not_or] at h
  rw [withBranches, get?_putList_of_ne _ h.2, get?_putList_of_ne _ h.1]

/-- The branches that came out for those under a key came out for branches of the level. -/
theorem ClauseTo.isBranch (hkey : isDescended key = true) (h : ClauseTo R (level.get? key) ors) :
    ClauseTo (fun fields after => IsBranch fields level ∧ R fields after) (level.get? key) ors := by
  generalize hget : level.get? key = found at h ⊢
  cases h with
  | kept hnone => exact .kept hnone
  | @changed branches after hbranches =>
    have hmem : ∀ branch ∈ branches, branch ∈ branches := fun _ => id
    refine .changed (((List.forall₂_and_left _ _).mpr ⟨hmem, hbranches⟩).imp ?_)
    rintro branch branch' ⟨hmem, hto⟩
    cases hto with
    | changed hR => exact .changed ⟨⟨_, Dict.mem_of_get? hget, hkey, branches, rfl, hmem⟩, hR⟩
    | kept hnone => exact .kept hnone

/-- A branch under a key whose branches were changed came out for something. -/
theorem exists_of_mem_putList {fields : Object} (h : ClauseTo R (level.get? key) ors)
    (hget : (putList level key ors).get? key = some (.arr branches))
    (hfields : .obj fields ∈ branches) : ∃ before, R before fields := by
  generalize hvalue : level.get? key = found at h
  cases h with
  | kept hnone =>
    rw [putList, hvalue] at hget
    rw [hget] at hnone
    cases hnone
  | changed hbranches =>
    rw [putList, Dict.get?_insert_self] at hget
    obtain rfl := Json.arr.inj (Option.some.inj hget)
    obtain ⟨branch, _, hto⟩ := Result.exists_left_of_mem hbranches hfields
    cases hto with
    | changed hR => exact ⟨_, hR⟩
    | kept hnone => cases hnone

/-- A branch of a level whose branches were changed came out for one of them. -/
theorem exists_of_isBranch_withBranches {fields : Object} (hlevel : level.Sorted)
    (hors : ClauseTo R (level.get? "$or") ors) (hands : ClauseTo R (level.get? "$and") ands)
    (h : IsBranch fields (withBranches level ors ands)) :
    ∃ before, IsBranch before level ∧ R before fields := by
  obtain ⟨⟨key, value⟩, he, hkey, branches, rfl, hfields⟩ := h
  have hget := (sorted_putList ands (sorted_putList ors hlevel)).get?_eq_some_iff.mpr he
  rcases isDescended_iff.mp hkey with rfl | rfl
  · rw [get?_putList_of_ne _ (by decide)] at hget
    exact exists_of_mem_putList (hors.isBranch rfl) hget hfields
  · have hsame : (putList level "$or" ors).get? "$and" = level.get? "$and" :=
      get?_putList_of_ne _ (by decide)
    have hands := hands.isBranch rfl
    rw [← hsame] at hands
    exact exists_of_mem_putList hands hget hfields

/-- A branch of a canonical query is canonical. -/
theorem canonical_of_isBranch {fields : Object} (hq : query.Canonical) (h : IsBranch fields query) :
    fields.Canonical := by
  obtain ⟨⟨key, value⟩, he, _, branches, rfl, hfields⟩ := h
  exact Object.canonical_iff.mpr (Json.canonical_arr.mp (hq.inside _ he) _ hfields)

end Query

end ObjectStore

/-!
## Rows that match a query

What a query means, told without the engine: a row matches the entries of a query all together, an
`$and` if it matches all branches, an `$or` if it matches one of them, and any other entry as its
key and value say. How these are read is left open (`meets`).

A query whose branches were changed means what it meant if each branch does
(`matches_withBranches`), and one entry stored anew is one conjunct exchanged (`matches_insert`).
-/

namespace ObjectStore.Query

mutual

/-- A row matches all entries of a query; `meets` tells what it takes to match an entry that is
neither `$or` nor `$and`. -/
def Matches (meets : String → Json → Prop) : List (String × Json) → Prop
  | [] => True
  | (key, value) :: rest =>
    (if key = "$or" then (clauseMeanings meets value).foldr Or False
      else if key = "$and" then (clauseMeanings meets value).foldr And True
      else meets key value) ∧ Matches meets rest

/-- What it takes to match each branch of a list; what is no list has one branch that nothing
matches. -/
def clauseMeanings (meets : String → Json → Prop) : Json → List Prop
  | .arr branches => branchMeanings meets branches
  | _ => [False]

/-- What it takes to match each branch; nothing matches what is no object. -/
def branchMeanings (meets : String → Json → Prop) : List Json → List Prop
  | [] => []
  | .obj fields :: rest => Matches meets fields :: branchMeanings meets rest
  | _ :: rest => False :: branchMeanings meets rest

end

variable {meets : String → Json → Prop} {query level : Object} {key : String} {value : Json}
  {branches : List Json}

/-- A row matches a query if it matches each of its entries. -/
theorem matches_iff : Matches meets query ↔ ∀ entry ∈ query, Matches meets [entry] := by
  induction query with
  | nil => simp [Matches]
  | cons entry rest ih =>
    obtain ⟨key, value⟩ := entry
    rw [List.forall_mem_cons, ← ih, Matches, Matches, Matches, and_true]

/-- An entry on a field is matched as its key and value say. -/
theorem matches_field (hkey : isDescended key = false) :
    Matches meets [(key, value)] ↔ meets key value := by
  rw [← Bool.not_eq_true, isDescended_iff, not_or] at hkey
  rw [Matches, Matches, and_true, if_neg hkey.1, if_neg hkey.2]

/-- A row matches an `$or` if it matches one of its branches. -/
theorem matches_or : Matches meets [("$or", .arr branches)] ↔
    ∃ branch ∈ branches, ∃ fields, branch = .obj fields ∧ Matches meets fields := by
  rw [Matches, Matches, and_true, if_pos rfl, clauseMeanings]
  induction branches with
  | nil => simp [branchMeanings]
  | cons branch rest ih => cases branch <;> simp [branchMeanings, ih]

/-- A row matches an `$and` if it matches all its branches. -/
theorem matches_and : Matches meets [("$and", .arr branches)] ↔
    ∀ branch ∈ branches, ∃ fields, branch = .obj fields ∧ Matches meets fields := by
  rw [Matches, Matches, and_true, if_neg (by decide), if_pos rfl, clauseMeanings]
  induction branches with
  | nil => simp [branchMeanings]
  | cons branch rest ih => cases branch <;> simp [branchMeanings, ih]

/-! ## One entry exchanged -/

/-- A row matches a query if it matches one of its entries and all others. -/
theorem matches_erase (hq : query.Sorted) (hget : query.get? key = some value) :
    Matches meets query ↔ Matches meets [(key, value)] ∧ Matches meets (query.erase key) := by
  have hothers : Matches meets (query.erase key) ↔ _ := matches_iff
  rw [matches_iff, hothers]
  constructor
  · intro h
    exact ⟨h _ (Dict.mem_of_get? hget), fun entry he => h entry (Dict.mem_erase.mp he).1⟩
  · rintro ⟨hentry, hothers⟩ entry he
    by_cases hkey : entry.1 = key
    · have hvalue := hq.get?_eq_some_iff.mpr he
      rw [hkey, hget] at hvalue
      have heq : entry = (key, value) := Prod.ext hkey (Option.some.inj hvalue).symm
      rw [heq]
      exact hentry
    · exact hothers entry (Dict.mem_erase.mpr ⟨he, hkey⟩)

/-- A row matches a query with an entry stored if it matches this entry and all others. -/
theorem matches_insert (hq : query.Sorted) :
    Matches meets (query.insert key value) ↔
      Matches meets [(key, value)] ∧ Matches meets (query.erase key) := by
  rw [matches_erase (hq.insert key value) (Dict.get?_insert_self ..), Dict.erase_insert]

/-! ## Branches exchanged -/

/-- Branches mean what they meant before if each of them does. -/
theorem matches_putList {items : Option (List Json)} (hkey : isDescended key = true)
    (hlevel : level.Sorted)
    (h : ClauseTo (fun q q' => Matches meets q' ↔ Matches meets q) (level.get? key) items) :
    Matches meets (putList level key items) ↔ Matches meets level := by
  generalize hget : level.get? key = found at h
  cases h with
  | kept => exact Iff.rfl
  | @changed branches after hbranches =>
    rw [putList, matches_insert hlevel, matches_erase hlevel hget]
    refine and_congr_left fun _ => ?_
    let meaning (branch : Json) : Prop := ∃ fields, branch = .obj fields ∧ Matches meets fields
    have hbranch : List.Forall₂ (fun branch branch' => meaning branch' ↔ meaning branch) branches
        after := by
      refine hbranches.imp ?_
      intro branch branch' hto
      cases hto with
      | changed hsame => simpa [meaning] using hsame
      | kept => exact Iff.rfl
    -- branches stand for each other one by one, below either combinator
    rcases isDescended_iff.mp hkey with rfl | rfl
    · rw [matches_or, matches_or]
      constructor
      · rintro ⟨branch', hmem, h⟩
        obtain ⟨branch, hmem, hsame⟩ := Result.exists_left_of_mem hbranch hmem
        exact ⟨branch, hmem, hsame.mp h⟩
      · rintro ⟨branch, hmem, h⟩
        obtain ⟨branch', hmem, hsame⟩ := Result.exists_right_of_mem hbranch hmem
        exact ⟨branch', hmem, hsame.mpr h⟩
    · rw [matches_and, matches_and]
      constructor
      · intro h branch hmem
        obtain ⟨branch', hmem, hsame⟩ := Result.exists_right_of_mem hbranch hmem
        exact hsame.mp (h branch' hmem)
      · intro h branch' hmem
        obtain ⟨branch, hmem, hsame⟩ := Result.exists_left_of_mem hbranch hmem
        exact hsame.mpr (h branch hmem)

/-- A level means what it meant if each of its branches does. -/
theorem matches_withBranches {ors ands : Option (List Json)} (hlevel : level.Sorted)
    (hors : ClauseTo (fun q q' => Matches meets q' ↔ Matches meets q) (level.get? "$or") ors)
    (hands : ClauseTo (fun q q' => Matches meets q' ↔ Matches meets q) (level.get? "$and") ands) :
    Matches meets (withBranches level ors ands) ↔ Matches meets level := by
  have hsame : (putList level "$or" ors).get? "$and" = level.get? "$and" :=
    get?_putList_of_ne _ (by decide)
  rw [withBranches, matches_putList rfl (sorted_putList ors hlevel) (hsame ▸ hands),
    matches_putList rfl hlevel hors]

end ObjectStore.Query
