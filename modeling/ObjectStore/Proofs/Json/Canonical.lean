import ObjectStore.Json.Basic
import ObjectStore.Proofs.Dict

/-!
# Canonical documents

A JSON object holds its members in key order, each key once, and so does every object inside it.
`Json.Canonical` says this of a value at every depth. It is what a document is by the meaning of
`Dict`, and what every operation on queries keeps: storing, removing and merging members.
-/

namespace ObjectStore

namespace Json

/-- All objects in a value hold their members in key order, each key once. -/
inductive Canonical : Json → Prop where
  | null : Canonical .null
  | bool (b : Bool) : Canonical (.bool b)
  | int (n : Int) : Canonical (.int n)
  | double (x : Float) : Canonical (.double x)
  | str (s : String) : Canonical (.str s)
  | arr {items : List Json} (inside : ∀ item ∈ items, Canonical item) : Canonical (.arr items)
  | obj {fields : List (String × Json)} (sorted : Dict.Sorted fields)
      (inside : ∀ entry ∈ fields, Canonical entry.2) : Canonical (.obj fields)

/-- A list is canonical if and only if all of its items are. -/
theorem canonical_arr {items : List Json} :
    Canonical (.arr items) ↔ ∀ item ∈ items, item.Canonical := by
  refine ⟨?_, .arr⟩
  intro h
  cases h with
  | arr inside => exact inside

/-- A list of texts is canonical. -/
theorem canonical_ofStrings (texts : List String) : (ofStrings texts).Canonical := by
  refine canonical_arr.mpr ?_
  intro item hi
  obtain ⟨s, _, rfl⟩ := List.mem_map.mp hi
  exact .str s

end Json

namespace Object

/-- The members of an object are in key order, each key once, and so are those inside them. -/
structure Canonical (fields : Object) : Prop where
  sorted : fields.Sorted
  inside : ∀ entry ∈ fields, entry.2.Canonical

variable {fields other : Object} {key : String} {value : Json}

/-- Canonical members are those of a canonical object. -/
theorem canonical_iff : Canonical fields ↔ Json.Canonical (.obj fields) := by
  refine ⟨fun h => .obj h.sorted h.inside, ?_⟩
  intro h
  cases h with
  | obj sorted inside => exact ⟨sorted, inside⟩

/-- An object without members is canonical. -/
theorem canonical_nil : Canonical [] := ⟨Dict.sorted_nil, fun _ h => absurd h List.not_mem_nil⟩

/-- What stands under a key of canonical members is canonical. -/
theorem Canonical.get? (h : fields.Canonical) (hget : fields.get? key = some value) :
    value.Canonical :=
  h.inside _ (Dict.mem_of_get? hget)

/-- Storing a canonical value under a key keeps members canonical. -/
theorem Canonical.insert (h : fields.Canonical) (key : String) (hv : value.Canonical) :
    Canonical (fields.insert key value) := by
  refine ⟨h.sorted.insert key value, ?_⟩
  intro entry he
  rcases Dict.mem_insert he with rfl | he
  · exact hv
  · exact h.inside entry he

/-- Removing a key keeps members canonical. -/
theorem Canonical.erase (h : fields.Canonical) (key : String) : Canonical (fields.erase key) :=
  ⟨h.sorted.erase key, fun entry he => h.inside entry (Dict.mem_erase.mp he).1⟩

/-- Storing canonical values one after another keeps members canonical, in whatever order they come.
-/
theorem Canonical.merge (h : fields.Canonical) (ho : ∀ entry ∈ other, entry.2.Canonical) :
    Canonical (fields.merge other) := by
  unfold Dict.merge
  induction other generalizing fields with
  | nil => exact h
  | cons head rest ih =>
    -- the members so far take in the first entry, and the rest is merged into them
    exact ih (h.insert head.1 (ho head List.mem_cons_self))
      fun entry he => ho entry (List.mem_cons_of_mem _ he)

end Object

/-! ## Checking -/

namespace Json

instance (fields : Object) : Decidable fields.Sorted :=
  inferInstanceAs (Decidable (List.Pairwise _ _))

mutual

/-- Whether a value is canonical. -/
def isCanonical : Json → Bool
  | .arr items => itemsAreCanonical items
  | .obj fields => decide (Dict.Sorted fields) && membersAreCanonical fields
  | _ => true

/-- Whether all items are canonical. -/
def itemsAreCanonical : List Json → Bool
  | [] => true
  | item :: rest => isCanonical item && itemsAreCanonical rest

/-- Whether the values of all members are canonical. -/
def membersAreCanonical : List (String × Json) → Bool
  | [] => true
  | (_, value) :: rest => isCanonical value && membersAreCanonical rest

end

mutual

/-- The check is right about values. -/
theorem canonical_of_isCanonical {value : Json} (h : value.isCanonical = true) :
    value.Canonical := by
  match value with
  | .null => exact .null
  | .bool b => exact .bool b
  | .int n => exact .int n
  | .double x => exact .double x
  | .str s => exact .str s
  | .arr items => exact .arr (forall_of_itemsAreCanonical h)
  | .obj fields =>
    rw [isCanonical, Bool.and_eq_true, decide_eq_true_iff] at h
    exact .obj h.1 (forall_of_membersAreCanonical h.2)

/-- The check is right about all items of a list. -/
theorem forall_of_itemsAreCanonical {items : List Json} (h : itemsAreCanonical items = true) :
    ∀ item ∈ items, item.Canonical := by
  match items with
  | [] => exact List.forall_mem_nil _
  | item :: rest =>
    rw [itemsAreCanonical, Bool.and_eq_true] at h
    exact List.forall_mem_cons.mpr
      ⟨canonical_of_isCanonical h.1, forall_of_itemsAreCanonical h.2⟩

/-- The check is right about what stands under all keys. -/
theorem forall_of_membersAreCanonical {fields : List (String × Json)}
    (h : membersAreCanonical fields = true) : ∀ entry ∈ fields, entry.2.Canonical := by
  match fields with
  | [] => exact List.forall_mem_nil _
  | (key, value) :: rest =>
    rw [membersAreCanonical, Bool.and_eq_true] at h
    exact List.forall_mem_cons.mpr
      ⟨canonical_of_isCanonical h.1, forall_of_membersAreCanonical h.2⟩

end

end Json

/-- A query given as a document can be checked for being canonical. -/
theorem Object.canonical_of_isCanonical {fields : Object}
    (h : (Json.obj fields).isCanonical = true) : fields.Canonical :=
  Object.canonical_iff.mpr (Json.canonical_of_isCanonical h)

/-- An object made of canonical members in any order is canonical. -/
theorem Json.canonical_ofEntries {entries : List (String × Json)}
    (h : ∀ entry ∈ entries, entry.2.Canonical) : (Json.ofEntries entries).Canonical :=
  Object.canonical_iff.mp (Object.canonical_nil.merge h)

end ObjectStore
