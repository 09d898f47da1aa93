import ObjectStore.Dict
import ObjectStore.Schema.Basic

/-!
# Dictionaries stay sorted

A `Dict` is meant to hold its entries in ascending key order, each key once, and this is what
`Sorted` says. Lookups, insertions and removals are described here in two layers:

* what they do to any list of entries (`mem_of_get?`, `mem_insert`, `mem_erase`): these need no
  order and are all that a proof about one entry needs;
* what they do to a sorted one (`Sorted.insert`, `Sorted.erase`, `Sorted.get?_eq_some_iff`): the
  order makes the list and its lookups say the same, so storing a value that is there already
  changes nothing (`Sorted.insert_eq_self`) and merging into nothing gives the merged entries back
  (`Sorted.nil_merge`).

Entries in any order are all in the dictionary that is made of them just if no two have one key
(`perm_ofList_iff`). The fields of a class are such a dictionary, and so are those of its stored
form (`Schema.get?_forStorage`).
-/

namespace ObjectStore.Dict

variable {α β : Type} {d d' other : Dict α} {key k : String} {value : α} {entry : String × α}

/-! ## Entries of any dictionary -/

/-- What is found under a key is an entry. -/
theorem mem_of_get? (h : d.get? key = some value) : (key, value) ∈ d := by
  induction d with
  | nil => simp at h
  | cons head rest ih =>
    obtain ⟨k, v⟩ := head
    unfold get? at h
    split at h
    next hk =>
      obtain rfl := hk
      obtain rfl := Option.some.inj h
      exact List.mem_cons_self
    next => exact List.mem_cons_of_mem _ (ih h)

/-- A key is there if something is found under it. -/
theorem contains_iff : d.contains key = true ↔ ∃ value, d.get? key = some value := by
  rw [contains, Option.isSome_iff_exists]

/-- A key is there if it is among the keys. -/
theorem contains_iff_mem_keys : d.contains key = true ↔ key ∈ d.keys := by
  induction d with
  | nil => simp [contains, keys]
  | cons head rest ih =>
    obtain ⟨k, v⟩ := head
    rw [contains] at ih ⊢
    by_cases hk : k = key
    · simp [get?, keys, hk]
    · simpa [get?, keys, hk, Ne.symm hk] using ih

/-- An entry after an insertion is the new one or was there. -/
theorem mem_insert (h : entry ∈ d.insert key value) : entry = (key, value) ∨ entry ∈ d := by
  induction d with
  | nil => exact Or.inl (by simpa [insert] using h)
  | cons head rest ih =>
    obtain ⟨k, v⟩ := head
    unfold insert at h
    split at h
    · rcases List.mem_cons.mp h with rfl | h
      · exact Or.inl rfl
      · exact Or.inr (List.mem_cons_of_mem _ h)
    · split at h
      · exact List.mem_cons.mp h
      · rcases List.mem_cons.mp h with rfl | h
        · exact Or.inr List.mem_cons_self
        · exact (ih h).imp_right (List.mem_cons_of_mem _)

/-- After an insertion a lookup finds the new value, or what it found before. -/
theorem get?_insert_cases (d : Dict α) (key : String) (value : α) (k : String) :
    (k = key ∧ (d.insert key value).get? k = some value)
      ∨ (d.insert key value).get? k = d.get? k := by
  by_cases h : k = key
  · subst h
    exact Or.inl ⟨rfl, get?_insert_self d k value⟩
  · exact Or.inr (get?_insert_of_ne d value h)

/-- What was stored is an entry. -/
theorem mem_insert_self (d : Dict α) (key : String) (value : α) :
    (key, value) ∈ d.insert key value :=
  mem_of_get? (get?_insert_self d key value)

/-- Entries under other keys stay. -/
theorem mem_insert_of_ne (h : entry ∈ d) (hne : entry.1 ≠ key) : entry ∈ d.insert key value := by
  induction d with
  | nil => simp at h
  | cons head rest ih =>
    obtain ⟨k, v⟩ := head
    unfold insert
    split
    next hk =>
      rcases List.mem_cons.mp h with rfl | h
      · exact absurd hk hne
      · exact List.mem_cons_of_mem _ h
    next =>
      split
      · exact List.mem_cons_of_mem _ h
      · rcases List.mem_cons.mp h with rfl | h
        · exact List.mem_cons_self
        · exact List.mem_cons_of_mem _ (ih h)

/-- A removal keeps the entries under other keys. -/
theorem mem_erase : entry ∈ d.erase key ↔ entry ∈ d ∧ entry.1 ≠ key := by
  simp [erase, List.mem_filter]

/-- Other keys are found after a removal as before. -/
theorem get?_erase_of_ne (h : k ≠ key) : (d.erase key).get? k = d.get? k := by
  induction d with
  | nil => rfl
  | cons head rest ih =>
    obtain ⟨l, v⟩ := head
    unfold erase at ih ⊢
    by_cases hl : l = key
    · subst hl
      simp [get?, Ne.symm h, ih]
    · simp only [List.filter_cons, bne_iff_ne, ne_eq, hl, not_false_eq_true, if_true, get?]
      rw [ih]

/-- A removed key is not found. -/
theorem get?_erase_self (d : Dict α) (key : String) : (d.erase key).get? key = none := by
  cases hget : (d.erase key).get? key with
  | none => rfl
  | some value => exact absurd rfl (mem_erase.mp (mem_of_get? hget)).2

/-- Entries that are filtered out by their key may be stored or not. -/
theorem filter_insert {p : String × α → Bool} (hp : ∀ value, p (key, value) = false) :
    List.filter p (d.insert key value) = List.filter p d := by
  induction d with
  | nil => simp [insert, hp]
  | cons head rest ih =>
    obtain ⟨k, v⟩ := head
    unfold insert
    split
    next hk =>
      obtain rfl := hk
      simp [hp]
    next =>
      split
      · simp [hp]
      · simp [List.filter_cons, ih]

/-- A lookup among the entries whose keys pass a test finds what it finds among all, if its key
passes. -/
theorem get?_filter_key (p : String → Bool) (d : Dict α) (key : String) :
    get? (d.filter fun entry => p entry.1) key = if p key then d.get? key else none := by
  induction d with
  | nil => simp
  | cons head rest ih =>
    obtain ⟨k, v⟩ := head
    by_cases hk : k = key
    · subst hk
      cases hp : p k <;> simp [get?, hp, ih]
    · cases hp : p k <;> simp [get?, hp, hk, ih]

/-- What is stored under a key goes when the key is removed. -/
theorem erase_insert (d : Dict α) (key : String) (value : α) :
    (d.insert key value).erase key = d.erase key :=
  filter_insert fun _ => by simp

/-- Of two values stored under a key, the later one counts. -/
theorem insert_insert (d : Dict α) (key : String) (value value' : α) :
    (d.insert key value).insert key value' = d.insert key value' := by
  induction d with
  | nil => simp [insert]
  | cons head rest ih =>
    obtain ⟨k, v⟩ := head
    by_cases hk : k = key
    · simp [insert, hk]
    · by_cases hlt : key < k
      · simp [insert, hk, hlt]
      · simp [insert, hk, hlt, ih]

/-- A value under a new key is one entry more. -/
theorem perm_insert (h : key ∉ d.map Prod.fst) (value : α) :
    (d.insert key value).Perm ((key, value) :: d) := by
  induction d with
  | nil => exact .refl _
  | cons head rest ih =>
    obtain ⟨k, v⟩ := head
    rw [List.map_cons, List.mem_cons, not_or] at h
    unfold insert
    split
    next hk => exact absurd hk.symm h.1
    next =>
      split
      · exact .refl _
      · exact ((ih h.2).cons _).trans (.swap _ _ _)

/-- Different values under one key make different dictionaries. -/
theorem insert_inj {value' : α} : d.insert key value = d.insert key value' ↔ value = value' := by
  constructor
  · intro heq
    have hget : (d.insert key value).get? key = (d.insert key value').get? key := by rw [heq]
    rw [get?_insert_self, get?_insert_self] at hget
    exact Option.some.inj hget
  · rintro rfl
    rfl

/-- Removing a key that is not there changes nothing. -/
theorem erase_of_get?_eq_none (h : d.get? key = none) : d.erase key = d := by
  induction d with
  | nil => rfl
  | cons head rest ih =>
    obtain ⟨k, v⟩ := head
    have hne : k ≠ key := by
      rintro rfl
      simp [get?] at h
    rw [get?, if_neg hne] at h
    have hrest := ih h
    unfold erase at hrest ⊢
    rw [List.filter_cons_of_pos (by simpa using hne), hrest]

/-- A key below all others is not found. -/
theorem get?_eq_none_of_lt (h : ∀ entry ∈ d, key < entry.1) : d.get? key = none :=
  Option.eq_none_iff_forall_ne_some.mpr fun _ hget =>
    String.lt_irrefl key (h _ (mem_of_get? hget))

/-! ## Sorted dictionaries -/

theorem sorted_nil : Sorted ([] : Dict α) := List.Pairwise.nil

theorem sorted_singleton (entry : String × α) : Sorted [entry] := List.pairwise_singleton _ _

/-- Entries are sorted if the first key is below all others and the rest is sorted. -/
theorem sorted_cons {head : String × α} {rest : Dict α} :
    Sorted (head :: rest) ↔ (∀ entry ∈ rest, head.1 < entry.1) ∧ Sorted rest := by
  simp [Sorted]

/-- No key of a sorted dictionary comes twice. -/
theorem Sorted.nodup_keys (h : d.Sorted) : (d.map Prod.fst).Nodup :=
  List.Pairwise.imp (fun hlt heq => absurd (heq ▸ hlt) (String.lt_irrefl _)) h

/-- No entry of a sorted dictionary comes twice. -/
theorem Sorted.nodup (h : d.Sorted) : d.Nodup :=
  List.Pairwise.of_map Prod.fst (fun _ _ hne heq => hne (congrArg Prod.fst heq)) h.nodup_keys

/-- A sorted dictionary stays sorted when a value is stored. -/
theorem Sorted.insert (h : d.Sorted) (key : String) (value : α) : (d.insert key value).Sorted := by
  induction d with
  | nil => simp [Dict.insert, Sorted]
  | cons head rest ih =>
    obtain ⟨k, v⟩ := head
    obtain ⟨hlt, hrest⟩ := sorted_cons.mp h
    unfold Dict.insert
    split
    next hk => exact sorted_cons.mpr ⟨fun e he => hk ▸ hlt e he, hrest⟩
    next hk =>
      split
      next hkey =>
        refine sorted_cons.mpr ⟨?_, h⟩
        intro e he
        rcases List.mem_cons.mp he with rfl | he
        · exact hkey
        · exact String.lt_trans hkey (hlt e he)
      next hkey =>
        refine sorted_cons.mpr ⟨?_, ih hrest⟩
        intro e he
        rcases mem_insert he with rfl | he
        · -- the two keys differ and the new one is not smaller
          refine Decidable.byContradiction fun hnot => hk ?_
          exact String.le_antisymm (String.not_lt.mp hkey) (String.not_lt.mp hnot)
        · exact hlt e he

/-- Some entries of a sorted dictionary are sorted. -/
theorem Sorted.filter (h : d.Sorted) (p : String × α → Bool) : Sorted (List.filter p d) :=
  List.Pairwise.sublist (List.filter_sublist.map _) h

/-- A sorted dictionary stays sorted when a key is removed. -/
theorem Sorted.erase (h : d.Sorted) (key : String) : (d.erase key).Sorted := h.filter _

/-- Of a sorted dictionary, the entries are what lookups find. -/
theorem Sorted.get?_eq_some_iff (h : d.Sorted) : d.get? key = some value ↔ (key, value) ∈ d := by
  refine ⟨mem_of_get?, ?_⟩
  intro hmem
  induction d with
  | nil => simp at hmem
  | cons head rest ih =>
    obtain ⟨k, v⟩ := head
    obtain ⟨hlt, hrest⟩ := sorted_cons.mp h
    rcases List.mem_cons.mp hmem with heq | hmem
    · obtain ⟨rfl, rfl⟩ := Prod.mk.inj heq
      simp [get?]
    · -- the key stands further on, so it is greater than the first one
      have hne : k ≠ key := fun e => String.lt_irrefl key (e ▸ hlt _ hmem)
      simp only [get?, hne, if_false]
      exact ih hrest hmem

/-- What holds of all entries holds of what is found under a key and of the entries under others. -/
theorem Sorted.forall_mem_iff (h : d.Sorted) (key : String) {P : String × α → Prop} :
    (∀ entry ∈ d, P entry) ↔ (∀ value, d.get? key = some value → P (key, value))
      ∧ ∀ entry ∈ d, entry.1 ≠ key → P entry := by
  constructor
  · intro hall
    constructor
    · intro value hget
      exact hall _ (mem_of_get? hget)
    · intro e he _
      exact hall e he
  · rintro ⟨hkey, hothers⟩ ⟨k, v⟩ hmem
    by_cases hk : k = key
    · subst hk
      exact hkey v (h.get?_eq_some_iff.mpr hmem)
    · exact hothers _ hmem hk

/-- What holds of all entries after an insertion holds of the new one and of those under other
keys. -/
theorem Sorted.forall_mem_insert_iff (h : d.Sorted) {P : String × α → Prop} :
    (∀ entry ∈ d.insert key value, P entry) ↔
      P (key, value) ∧ ∀ entry ∈ d, entry.1 ≠ key → P entry := by
  constructor
  · intro hall
    refine ⟨hall _ (mem_insert_self d key value), ?_⟩
    intro e he hne
    exact hall e (mem_insert_of_ne he hne)
  · rintro ⟨hnew, hothers⟩
    rw [(h.insert key value).forall_mem_iff key, get?_insert_self]
    constructor
    · intro v hv
      exact Option.some.inj hv ▸ hnew
    · intro e he hne
      rcases mem_insert he with rfl | he
      · exact absurd rfl hne
      · exact hothers e he hne

/-- Storing the value that is there already changes nothing. -/
theorem Sorted.insert_eq_self (h : d.Sorted) (hget : d.get? key = some value) :
    d.insert key value = d := by
  induction d with
  | nil => simp at hget
  | cons head rest ih =>
    obtain ⟨k, v⟩ := head
    obtain ⟨hlt, hrest⟩ := sorted_cons.mp h
    unfold get? at hget
    split at hget
    next hk =>
      obtain rfl := hk
      obtain rfl := Option.some.inj hget
      simp [Dict.insert]
    next hk =>
      -- an insertion goes past the first entry, as the key it looks for is found behind it
      have hkey : ¬ key < k := String.lt_asymm (hlt _ (mem_of_get? hget))
      simp [Dict.insert, hk, hkey, ih hrest hget]

/-- An entry above all others is stored at the end. -/
theorem insert_append_of_lt (h : ∀ entry ∈ d, entry.1 < key) :
    d.insert key value = d ++ [(key, value)] := by
  induction d with
  | nil => rfl
  | cons head rest ih =>
    obtain ⟨k, v⟩ := head
    have hlt : k < key := h _ List.mem_cons_self
    have hne : k ≠ key := fun e => String.lt_irrefl key (e ▸ hlt)
    simp [insert, hne, String.lt_asymm hlt, ih fun e he => h e (List.mem_cons_of_mem _ he)]

/-- Sorted entries merged after smaller ones are appended. -/
theorem merge_eq_append (hd : ∀ entry ∈ d, ∀ later ∈ other, entry.1 < later.1)
    (h : other.Sorted) : d.merge other = d ++ other := by
  unfold merge
  induction other generalizing d with
  | nil => simp
  | cons head rest ih =>
    obtain ⟨hlt, hrest⟩ := sorted_cons.mp h
    rw [List.foldl_cons, insert_append_of_lt fun e he => hd e he head List.mem_cons_self, ih]
    · simp
    -- the entry just appended is smaller than those still to come, as these are sorted
    · intro e he later hlater
      rcases List.mem_append.mp he with he | he
      · exact hd e he later (List.mem_cons_of_mem _ hlater)
      · obtain rfl := List.mem_singleton.mp he
        exact hlt later hlater
    · exact hrest

/-- Merging into nothing gives the merged entries back. -/
theorem Sorted.nil_merge (h : other.Sorted) : Dict.merge [] other = other := by
  simpa using merge_eq_append (fun _ he => absurd he List.not_mem_nil) h

/-- Sorted dictionaries with the same lookups are the same. -/
theorem Sorted.ext (h : d.Sorted) (h' : d'.Sorted) (hget : ∀ key, d.get? key = d'.get? key) :
    d = d' := by
  induction d generalizing d' with
  | nil =>
    cases d' with
    | nil => rfl
    | cons head rest => simpa [get?] using hget head.1
  | cons head rest ih =>
    cases d' with
    | nil => simpa [get?] using hget head.1
    | cons head' rest' =>
      obtain ⟨k, v⟩ := head
      obtain ⟨k', v'⟩ := head'
      obtain ⟨hlt, hrest⟩ := sorted_cons.mp h
      obtain ⟨hlt', hrest'⟩ := sorted_cons.mp h'
      -- the smallest key of either dictionary is found in the other one
      have hk : k = k' := by
        have hmem : (k, v) ∈ (k', v') :: rest' :=
          mem_of_get? ((hget k).symm.trans (by simp [get?]))
        have hmem' : (k', v') ∈ (k, v) :: rest :=
          mem_of_get? ((hget k').trans (by simp [get?]))
        rcases List.mem_cons.mp hmem with heq | hmem
        · exact (Prod.mk.inj heq).1
        · rcases List.mem_cons.mp hmem' with heq | hmem'
          · exact (Prod.mk.inj heq).1.symm
          · exact absurd (hlt _ hmem') (String.lt_asymm (hlt' _ hmem))
      subst hk
      have hv : v = v' := by simpa [get?] using hget k
      subst hv
      rw [ih hrest hrest' fun key => ?_]
      by_cases hkey : k = key
      · subst hkey
        -- neither rest has the key once more
        rw [get?_eq_none_of_lt hlt, get?_eq_none_of_lt hlt']
      · simpa [get?, hkey] using hget key

/-- A sorted dictionary stays sorted when others are merged into it, in whatever order these are. -/
theorem Sorted.merge (h : d.Sorted) : (d.merge other).Sorted := by
  unfold Dict.merge
  induction other generalizing d with
  | nil => exact h
  | cons head rest ih => exact ih (h.insert head.1 head.2)

/-! ## Merged dictionaries -/

/-- An entry after a merge was in one of the two. -/
theorem mem_merge (h : entry ∈ d.merge other) : entry ∈ d ∨ entry ∈ other := by
  unfold merge at h
  induction other generalizing d with
  | nil => exact Or.inl h
  | cons head rest ih =>
    rcases ih h with h | h
    · rcases mem_insert h with rfl | h
      · exact Or.inr List.mem_cons_self
      · exact Or.inl h
    · exact Or.inr (List.mem_cons_of_mem _ h)

/-- A key that is not merged in is found as before. -/
theorem get?_merge_of_notMem (h : key ∉ other.map Prod.fst) :
    (d.merge other).get? key = d.get? key := by
  unfold merge
  induction other generalizing d with
  | nil => rfl
  | cons head rest ih =>
    rw [List.map_cons, List.mem_cons, not_or] at h
    rw [List.foldl_cons, ih h.2, get?_insert_of_ne d head.2 h.1]

/-- What is merged in is found, if no key of it comes twice. -/
theorem get?_merge_of_mem (hnodup : (other.map Prod.fst).Nodup) (h : (key, value) ∈ other) :
    (d.merge other).get? key = some value := by
  unfold merge
  induction other generalizing d with
  | nil => cases h
  | cons head rest ih =>
    rw [List.map_cons, List.nodup_cons] at hnodup
    rw [List.foldl_cons]
    rcases List.mem_cons.mp h with rfl | h
    · exact (get?_merge_of_notMem hnodup.1).trans (get?_insert_self d key value)
    · exact ih hnodup.2 h

/-- All entries of a sorted dictionary are there once it was merged in. -/
theorem Sorted.subset_merge (h : other.Sorted) (d : Dict α) : other ⊆ d.merge other :=
  fun _ he => mem_of_get? (get?_merge_of_mem h.nodup_keys he)

/-- What is merged in counts, and what was there only where nothing is merged in. -/
theorem get?_merge (d other : Dict α) (key : String) :
    (d.merge other).get? key = ((ofList other).get? key).or (d.get? key) := by
  induction other generalizing d with
  | nil => rfl
  | cons head rest ih =>
    have hrest : ∀ d : Dict α, (d.merge (head :: rest)).get? key
        = ((ofList rest).get? key).or ((d.insert head.1 head.2).get? key) := fun _ => ih _
    have hlist : (ofList (head :: rest)).get? key
        = ((ofList rest).get? key).or ((insert [] head.1 head.2).get? key) := hrest []
    rw [hrest d, hlist, Option.or_assoc]
    by_cases hkey : key = head.1
    · subst hkey
      simp
    · rw [get?_insert_of_ne _ _ hkey, get?_insert_of_ne _ _ hkey, get?_nil, Option.none_or]

/-- Of entries with one key, the last one counts. -/
theorem get?_ofList_append (entries others : List (String × α)) (key : String) :
    (ofList (entries ++ others)).get? key
      = ((ofList others).get? key).or ((ofList entries).get? key) := by
  rw [ofList, List.foldl_append]
  exact get?_merge (ofList entries) others key

/-- The dictionary of sorted entries has just these entries. -/
theorem Sorted.ofList (h : d.Sorted) : Dict.ofList d = d := h.nil_merge

/-- A dictionary that is made of entries is sorted, in whatever order these are. -/
theorem sorted_ofList (entries : List (String × α)) : Sorted (ofList entries) := sorted_nil.merge

/-- If no two entries have one key, a merge keeps the entries of both dictionaries. -/
theorem perm_merge (h : (d.map Prod.fst ++ other.map Prod.fst).Nodup) :
    (d.merge other).Perm (d ++ other) := by
  unfold merge
  induction other generalizing d with
  | nil => simp
  | cons head rest ih =>
    have hnew : head.1 ∉ d.map Prod.fst := fun hmem =>
      (List.nodup_append.mp h).2.2 _ hmem _ List.mem_cons_self rfl
    have hperm := perm_insert hnew head.2
    have hkeys : ((d.insert head.1 head.2).map Prod.fst ++ rest.map Prod.fst).Perm
        (d.map Prod.fst ++ (head :: rest).map Prod.fst) :=
      ((hperm.map Prod.fst).append_right _).trans List.perm_middle.symm
    exact (ih (hkeys.nodup_iff.mpr h)).trans ((hperm.append_right rest).trans List.perm_middle.symm)

/-- A dictionary holds all entries that it is made of just if no two have one key. -/
theorem perm_ofList_iff {entries : List (String × α)} :
    (ofList entries).Perm entries ↔ (entries.map Prod.fst).Nodup := by
  constructor
  · intro hperm
    exact (hperm.map Prod.fst).nodup_iff.mp (sorted_ofList entries).nodup_keys
  · intro hnodup
    exact perm_merge (d := []) (by simpa using hnodup)

/-- What is found among changed values is the changed value of what is found. -/
theorem get?_mapValues (f : α → β) (d : Dict α) (key : String) :
    (d.mapValues f).get? key = (d.get? key).map f := by
  induction d with
  | nil => rfl
  | cons head rest ih =>
    obtain ⟨k, v⟩ := head
    by_cases hk : k = key
    · simp [mapValues, get?, hk]
    · simpa [mapValues, get?, hk] using ih

/-- A sorted dictionary stays sorted when its values are changed. -/
theorem Sorted.mapValues (h : d.Sorted) (f : α → β) : (d.mapValues f).Sorted := by
  simpa [Sorted, Dict.mapValues, Function.comp_def] using h

/-- Values may be changed before or after one more is stored. -/
theorem mapValues_insert (f : α → β) (d : Dict α) (key : String) (value : α) :
    (d.insert key value).mapValues f = (d.mapValues f).insert key (f value) := by
  induction d with
  | nil => rfl
  | cons head rest ih =>
    obtain ⟨k, v⟩ := head
    simp only [insert, mapValues, List.map_cons] at ih ⊢
    split <;> try split
    all_goals simp [*]

/-- Values may be changed before or after a key is removed. -/
theorem mapValues_erase (f : α → β) (d : Dict α) (key : String) :
    (d.erase key).mapValues f = (d.mapValues f).erase key := by
  simp only [erase, mapValues, List.filter_map]
  rfl

/-! ## Dictionaries without some keys -/

/-- A dictionary without some keys. -/
def without (d : Dict α) (keys : List String) : Dict α := keys.foldl erase d

/-- Only keys other than those removed are found. -/
theorem get?_without (d : Dict α) (keys : List String) (key : String) :
    (d.without keys).get? key = if key ∈ keys then none else d.get? key := by
  induction keys generalizing d with
  | nil => rfl
  | cons first rest ih =>
    have hstep : d.without (first :: rest) = (d.erase first).without rest := rfl
    rw [hstep, ih]
    by_cases hfirst : key = first
    · subst hfirst
      simp [get?_erase_self]
    · simp [hfirst, get?_erase_of_ne hfirst]

/-- A sorted dictionary stays sorted without some keys. -/
theorem Sorted.without (h : d.Sorted) (keys : List String) : (d.without keys).Sorted := by
  induction keys generalizing d with
  | nil => exact h
  | cons first rest ih => exact ih (h.erase first)

/-- Values may be changed before or after some keys are removed. -/
theorem mapValues_without (f : α → β) (d : Dict α) (keys : List String) :
    (d.without keys).mapValues f = (d.mapValues f).without keys := by
  induction keys generalizing d with
  | nil => rfl
  | cons first rest ih =>
    have hrest := ih (d.erase first)
    rwa [mapValues_erase] at hrest

end ObjectStore.Dict

namespace ObjectStore.Schema

/-- The stored form of a class has the two permission columns and every field but the `ACL`. -/
theorem get?_forStorage (schema : Schema) (name : String) :
    schema.forStorage.fields.get? name = if name = readColumn ∨ name = writeColumn then
        some (.arrayOf .string)
      else if name = aclField then none else schema.fields.get? name := by
  unfold forStorage
  by_cases hwrite : name = writeColumn
  · subst hwrite
    rw [Dict.get?_insert_self, if_pos (.inr rfl)]
  rw [Dict.get?_insert_of_ne _ _ hwrite]
  by_cases hread : name = readColumn
  · subst hread
    rw [Dict.get?_insert_self, if_pos (.inl rfl)]
  rw [Dict.get?_insert_of_ne _ _ hread, if_neg (by simp [hread, hwrite])]
  by_cases hacl : name = aclField
  · subst hacl
    rw [Dict.get?_erase_self, if_pos rfl]
  · rw [Dict.get?_erase_of_ne hacl, if_neg hacl]

end ObjectStore.Schema
