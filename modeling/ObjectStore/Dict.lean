/-!
# Dictionaries in key order

Documents, field tables, permission tables and index maps are all finite maps from text to
something, and every traversal of one of them runs in ascending order of the keys. A `Dict` is the
list of its entries in that order, each key once; the order is that of code points, which is also
the order of the UTF-8 bytes.

`insert` and `erase` keep the order, so `ofList` builds a dictionary from entries in any order and
lets a later entry win over an earlier one of the same key.
-/

namespace ObjectStore

/-- Entries in ascending key order, each key once. -/
abbrev Dict (α : Type) := List (String × α)

namespace Dict

variable {α β : Type}

/-- The value stored under a key. -/
def get? : Dict α → String → Option α
  | [], _ => none
  | (k, v) :: rest, key => if k = key then some v else get? rest key

/-- Whether a key is present. -/
def contains (d : Dict α) (key : String) : Bool := (d.get? key).isSome

/-- Stores a value under a key, in place of the one that was there. -/
def insert : Dict α → String → α → Dict α
  | [], key, value => [(key, value)]
  | (k, v) :: rest, key, value =>
    if k = key then (key, value) :: rest
    else if key < k then (key, value) :: (k, v) :: rest
    else (k, v) :: insert rest key value

/-- Removes a key. -/
def erase (d : Dict α) (key : String) : Dict α := d.filter fun entry => entry.1 != key

/-- The dictionary of a list of entries; of two entries with one key the later counts. -/
def ofList (entries : List (String × α)) : Dict α :=
  entries.foldl (fun d entry => insert d entry.1 entry.2) []

/-- The keys, in order. -/
def keys (d : Dict α) : List String := d.map Prod.fst

/-- The values, in the order of their keys. -/
def values (d : Dict α) : List α := d.map Prod.snd

/-- Applies a function to every value. -/
def mapValues (f : α → β) (d : Dict α) : Dict β := d.map fun entry => (entry.1, f entry.2)

/-- The entries of `other` stored over those of `d`. -/
def merge (d other : Dict α) : Dict α := other.foldl (fun acc entry => insert acc entry.1 entry.2) d

/-- The keys ascend strictly. -/
def Sorted (d : Dict α) : Prop := (d.map Prod.fst).Pairwise (· < ·)

@[simp] theorem get?_nil (key : String) : get? ([] : Dict α) key = none := rfl

@[simp] theorem get?_insert_self (d : Dict α) (key : String) (value : α) :
    (d.insert key value).get? key = some value := by
  induction d with
  | nil => simp [insert, get?]
  | cons entry rest ih =>
    obtain ⟨k, v⟩ := entry
    unfold insert
    split
    · simp [get?]
    · next hk =>
      split
      · simp [get?]
      · simp [get?, hk, ih]

theorem get?_insert_of_ne (d : Dict α) {key other : String} (value : α) (h : other ≠ key) :
    (d.insert key value).get? other = d.get? other := by
  have h' : key ≠ other := fun e => h e.symm
  induction d with
  | nil => simp [insert, get?, h']
  | cons entry rest ih =>
    obtain ⟨k, v⟩ := entry
    unfold insert
    split
    · next hk => subst hk; simp [get?, h']
    · split
      · simp [get?, h']
      · simp [get?, ih]

end Dict

end ObjectStore
