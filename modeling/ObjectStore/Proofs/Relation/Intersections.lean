import Mathlib.Data.List.Count
import Mathlib.Data.List.Dedup
import Mathlib.Data.List.Sort
import ObjectStore.Proofs.Dict
import ObjectStore.Relation.Resolve

/-!
# Intersections of lists of ids

Lists of ids are intersected by searching them, or by counting in how many of them each id occurs.
Both give the same list (`intersections_agree`): the distinct ids of the first list that occur in
every other one, in the order of their first occurrence (`IsIntersection`), which there is but one
of (`IsIntersection.unique`).

Counting goes through the lists one after another. One list adds one to the counts of the ids in it,
however often they occur there (`countOf_afterList`), so in the end an id is counted as often as
there are lists that hold it (`countOf_tally`), and has the count of all lists just if all hold it.
-/

namespace ObjectStore.ObjectIds

variable {lists : List (List String)} {ids others : List String} {id : String}

/-! ## The order of first occurrence -/

/-- Ids ascend by where they first occur in a list, so each is there but once. -/
def InOrderOf (list ids : List String) : Prop :=
  ids.Pairwise fun id later => list.idxOf id < list.idxOf later

/-- Ids in the order of a list are all different. -/
theorem InOrderOf.nodup {list : List String} (h : InOrderOf list ids) : ids.Nodup := by
  refine List.Pairwise.imp ?_ h
  intro id later hlt heq
  exact Nat.lt_irrefl _ (heq ▸ hlt)

/-- An id put in front of a list comes before all others, and these stay in their order. -/
theorem InOrderOf.push {list : List String} (h : InOrderOf list ids) (hid : id ∉ ids) :
    InOrderOf (id :: list) ids
      ∧ ∀ later ∈ ids, (id :: list).idxOf id < (id :: list).idxOf later := by
  have hshift : ∀ other ∈ ids, (id :: list).idxOf other = list.idxOf other + 1 := by
    intro other hother
    have hne : id ≠ other := fun heq => hid (heq ▸ hother)
    exact List.idxOf_cons_ne list hne
  constructor
  · refine List.Pairwise.imp_of_mem ?_ h
    intro a b ha hb hlt
    rw [hshift a ha, hshift b hb]
    exact Nat.succ_lt_succ hlt
  · intro later hlater
    rw [hshift later hlater, List.idxOf_cons_self]
    exact Nat.succ_pos _

/-- What passes a test stands in the order of the whole list, without its repetitions. -/
theorem inOrderOf_filter (p : String → Bool) (list : List String) :
    InOrderOf list (list.filter p).eraseDups := by
  induction list generalizing p with
  | nil => exact List.Pairwise.nil
  | cons first rest ih =>
    by_cases hp : p first
    · -- the later occurrences of the first id do not count
      have hfirst : first ∉ (rest.filter fun id => !id == first && p id).eraseDups := by simp
      have hrest := (ih fun id => !id == first && p id).push hfirst
      rw [List.filter_cons_of_pos hp, List.eraseDups_cons, List.filter_filter]
      exact List.pairwise_cons.mpr ⟨hrest.2, hrest.1⟩
    · have hfirst : first ∉ (rest.filter p).eraseDups := by simp [hp]
      rw [List.filter_cons_of_neg hp]
      exact ((ih p).push hfirst).1

/-- Without repetitions all ids are different. -/
theorem nodup_eraseDups (ids : List String) : ids.eraseDups.Nodup := by
  have horder := inOrderOf_filter (fun _ => true) ids
  rw [List.filter_true] at horder
  exact horder.nodup

/-! ## Counting -/

variable {counts : Dict Nat}

/-- Counting an id adds one to its count and leaves all others. -/
theorem countOf_countOne (counts : Dict Nat) (counted id : String) :
    countOf (countOne counts counted) id = countOf counts id + if counted = id then 1 else 0 := by
  by_cases h : counted = id
  · subst h
    simp [countOf, countOne]
  · rw [if_neg h, countOf, countOne, Dict.get?_insert_of_ne _ _ (Ne.symm h)]
    rfl

/-- Counting the ids of a list adds to each how often it occurs. -/
theorem countOf_foldl_countOne (ids : List String) (counts : Dict Nat) (id : String) :
    countOf (ids.foldl countOne counts) id = countOf counts id + ids.count id := by
  induction ids generalizing counts with
  | nil => rfl
  | cons first rest ih =>
    rw [List.foldl_cons, ih, countOf_countOne, List.count_cons, Nat.add_assoc]
    simp [Nat.add_comm]

/-- One list more is one more for the ids in it. -/
theorem countOf_afterList (list : List String) (counts : Dict Nat) (id : String) :
    countOf (list.eraseDups.foldl countOne counts) id
      = countOf counts id + if id ∈ list then 1 else 0 := by
  rw [countOf_foldl_countOne, (nodup_eraseDups list).count]
  simp only [List.mem_eraseDups]

/-- An id is counted as often as there are lists that hold it. -/
theorem countOf_tally (lists : List (List String)) (id : String) :
    countOf (tally lists) id = lists.countP fun list => list.contains id := by
  -- the induction is on the lists that are left, whatever was counted before
  have hrun : ∀ counts : Dict Nat,
      countOf (lists.foldl (fun counts list => list.eraseDups.foldl countOne counts) counts) id
        = countOf counts id + lists.countP fun list => list.contains id := by
    induction lists with
    | nil => intro counts; rfl
    | cons list rest ih =>
      intro counts
      rw [List.foldl_cons, ih, countOf_afterList, List.countP_cons, Nat.add_assoc]
      simp [Nat.add_comm]
  have hstart : countOf ([] : Dict Nat) id = 0 := rfl
  rw [tally, hrun, hstart, Nat.zero_add]

/-- A count other than zero is one that is there. -/
theorem get?_eq_some_iff {n : Nat} (hn : n ≠ 0) :
    counts.get? id = some n ↔ countOf counts id = n := by
  unfold countOf
  cases hget : counts.get? id with
  | none => simpa using hn.symm
  | some count => simp

/-- An id has the count of all lists if and only if it is in all of them. -/
theorem get?_tally (h : lists ≠ []) :
    (tally lists).get? id = some lists.length ↔ ∀ list ∈ lists, id ∈ list := by
  have hlength : lists.length ≠ 0 := fun hzero => h (List.length_eq_zero_iff.mp hzero)
  rw [get?_eq_some_iff hlength, countOf_tally, List.countP_eq_length]
  simp

/-! ## Two ways to intersect -/

/-- Counting finds the ids that searching finds, in the order of the first list as well. -/
theorem intersectByCount_eq (lists : List (List String)) :
    intersectByCount lists = intersectBySearch lists := by
  cases lists with
  | nil => rfl
  | cons first rest =>
    have hsame : ∀ id ∈ first,
        ((tally (first :: rest)).get? id == some (first :: rest).length)
          = rest.all (·.contains id) := by
      intro id hid
      rw [Bool.eq_iff_iff, beq_iff_eq, get?_tally (List.cons_ne_nil _ _)]
      simp [hid]
    show (first.filter _).eraseDups = (first.filter _).eraseDups
    rw [List.filter_congr hsame]

/-- However long the lists are, what comes out is what searching finds. -/
theorem intersect_eq (lists : List (List String)) : intersect lists = intersectBySearch lists := by
  unfold intersect
  by_cases hlong : searchLimit < lists.flatten.length
  · rw [if_pos hlong, intersectByCount_eq]
  · rw [if_neg hlong]

/-- Searching finds the ids that are in all lists, if there is a list. -/
theorem mem_intersectBySearch :
    id ∈ intersectBySearch lists ↔ lists ≠ [] ∧ ∀ list ∈ lists, id ∈ list := by
  cases lists with
  | nil => simp [intersectBySearch]
  | cons first rest => simp [intersectBySearch]

/-- An id is in the intersection of some lists if it is in all of them. -/
theorem mem_intersect : id ∈ intersect lists ↔ lists ≠ [] ∧ ∀ list ∈ lists, id ∈ list := by
  rw [intersect_eq]
  exact mem_intersectBySearch

/-! ## What an intersection is -/

/-- A list has the ids of the first of some lists that occur in every other one, in the order of
their first occurrence in the first one, and so each of them once. -/
structure IsIntersection (lists : List (List String)) (ids : List String) : Prop where
  mem_iff : ∀ id, id ∈ ids ↔ id ∈ lists.headD [] ∧ ∀ list ∈ lists.tail, id ∈ list
  inOrder : InOrderOf (lists.headD []) ids

/-- There is one intersection of some lists. -/
theorem IsIntersection.unique (h : IsIntersection lists ids)
    (hothers : IsIntersection lists others) : ids = others := by
  have hperm : ids.Perm others := by
    rw [List.perm_ext_iff_of_nodup h.inOrder.nodup hothers.inOrder.nodup]
    intro id
    rw [h.mem_iff, hothers.mem_iff]
  refine hperm.eq_of_pairwise ?_ h.inOrder hothers.inOrder
  intro a b _ _ hlt hgt
  exact absurd hgt (Nat.lt_asymm hlt)

/-- Searching finds the intersection. -/
theorem isIntersection_intersectBySearch (lists : List (List String)) :
    IsIntersection lists (intersectBySearch lists) := by
  cases lists with
  | nil => exact ⟨fun id => by simp [intersectBySearch], List.Pairwise.nil⟩
  | cons first rest =>
    refine ⟨?_, inOrderOf_filter _ first⟩
    intro id
    rw [mem_intersectBySearch]
    simp

/-- Searching and counting give the same list, whichever of them is chosen for the lists: the one
that has the distinct ids of the first list that occur in every other one, in the order of their
first occurrence. -/
theorem intersections_agree (lists : List (List String)) :
    intersectBySearch lists = intersectByCount lists ∧ intersect lists = intersectBySearch lists
      ∧ ∀ ids, IsIntersection lists ids ↔ ids = intersectBySearch lists := by
  refine ⟨(intersectByCount_eq lists).symm, intersect_eq lists, ?_⟩
  intro ids
  constructor
  · intro h
    exact h.unique (isIntersection_intersectBySearch lists)
  · rintro rfl
    exact isIntersection_intersectBySearch lists

example :
    intersectByCount [["a", "b", "c", "a"], ["c", "a", "c"], ["a", "c", "d"]] = ["a", "c"] := by
  cbv

end ObjectStore.ObjectIds
