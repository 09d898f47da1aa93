import ObjectStore.Access.Pointer
import ObjectStore.Proofs.Json.Canonical

/-!
# What dropping redundant branches keeps

A branch is dropped only beside another one of which it is a part, or which is a part of it. Each
step keeps that other branch (`exists_kept`), so when the narrow branches are dropped, whatever
passes from a branch to its parts passes from the branches that are left to all that there were
(`forall_of_dropRedundant`). When the wide ones are dropped, it passes from some branch that there
was to one that is left (`exists_of_dropRedundant`); those left were there before
(`mem_of_mem_dropRedundant`), and there is one (`dropRedundant_ne_nil`). A query comes out with its
other entries and with what is left of its combinator (`reduceCombinator_eq_collapsed`).
-/

namespace ObjectStore.Access

variable {dropWide : Bool} {branches : List Json} {place steps : Nat} {P : Json → Prop}

/-- A branch that is a part of another one asks nothing that the other one does not ask. -/
theorem isPartOf_iff {narrow wide : Object} : isPartOf (.obj narrow) (.obj wide) = true
    ↔ ∀ entry ∈ narrow, (Dict.get? wide entry.1 == some entry.2) = true := by
  simp [isPartOf, List.all_eq_true]

/-! ## One step -/

/-- Of a pair of branches, one is dropped for the sake of the other. -/
theorem redundantOfPair?_eq_some {first second : Json × Nat}
    (h : redundantOfPair? dropWide first second = some place) :
    ∃ dropped kept : Json × Nat, (dropped, kept) ∈ [(first, second), (second, first)]
      ∧ dropped.2 = place
      ∧ (if dropWide then isPartOf kept.1 dropped.1 else isPartOf dropped.1 kept.1) = true := by
  unfold redundantOfPair? at h
  split at h
  next narrow wide hpair =>
    split at h
    next hpart =>
      obtain rfl := Option.some.inj h
      -- the narrower of the two is found by their sizes, so they may have changed places
      have hswap : (narrow, wide) ∈ [(first, second), (second, first)]
          ∧ (wide, narrow) ∈ [(first, second), (second, first)] := by
        split at hpair <;> obtain ⟨rfl, rfl⟩ := Prod.mk.inj hpair <;> simp
      cases dropWide with
      | true => exact ⟨wide, narrow, hswap.2, rfl, hpart⟩
      | false => exact ⟨narrow, wide, hswap.1, rfl, hpart⟩
    next => simp at h

/-- The branch that is found redundant is so for the sake of a branch at another place. -/
theorem redundant?_eq_some {placed : List (Json × Nat)} (hplaces : (placed.map Prod.snd).Nodup)
    (h : redundant? dropWide placed = some place) :
    ∃ dropped ∈ placed, ∃ kept ∈ placed, dropped.2 = place ∧ kept.2 ≠ place
      ∧ (if dropWide then isPartOf kept.1 dropped.1 else isPartOf dropped.1 kept.1) = true := by
  induction placed with
  | nil => simp [redundant?] at h
  | cons first rest ih =>
    rw [List.map_cons, List.nodup_cons] at hplaces
    rw [redundant?, Option.or_eq_some_iff] at h
    rcases h with h | ⟨_, h⟩
    · obtain ⟨second, hsecond, h⟩ := List.exists_of_findSome?_eq_some h
      have hne : first.2 ≠ second.2 := fun e =>
        hplaces.1 (e ▸ List.mem_map_of_mem hsecond)
      obtain ⟨dropped, kept, hpair, hd, hpart⟩ := redundantOfPair?_eq_some h
      simp only [List.mem_cons, List.not_mem_nil, or_false, Prod.mk.injEq] at hpair
      rcases hpair with ⟨rfl, rfl⟩ | ⟨rfl, rfl⟩
      · exact ⟨dropped, by simp, kept, by simp [hsecond], hd, fun e => hne (hd.trans e.symm), hpart⟩
      · exact ⟨dropped, by simp [hsecond], kept, by simp, hd, fun e => hne (e.trans hd.symm), hpart⟩
    · obtain ⟨dropped, hdropped, kept, hkept, hrest⟩ := ih hplaces.2 h
      exact ⟨dropped, List.mem_cons_of_mem _ hdropped, kept, List.mem_cons_of_mem _ hkept, hrest⟩

/-- What a step drops stood beside a branch that it keeps. -/
theorem exists_kept (h : redundant? dropWide branches.zipIdx = some place) :
    ∃ dropped ∈ branches, ∃ kept ∈ branches.eraseIdx place,
      (∀ branch ∈ branches, branch = dropped ∨ branch ∈ branches.eraseIdx place)
      ∧ (if dropWide then isPartOf kept dropped else isPartOf dropped kept) = true := by
  obtain ⟨⟨dropped, i⟩, hd, ⟨kept, j⟩, hk, rfl, hne, hpart⟩ :=
    redundant?_eq_some (by simp [List.nodup_range']) h
  rw [List.mk_mem_zipIdx_iff_getElem?] at hd hk
  refine ⟨dropped, List.mem_of_getElem? hd, kept, ?_, ?_, hpart⟩
  · exact List.mem_eraseIdx_iff_getElem?.mpr ⟨j, hne, hk⟩
  · intro branch hb
    obtain ⟨k, hk⟩ := List.mem_iff_getElem?.mp hb
    by_cases hki : k = i
    · subst hki
      exact Or.inl (Option.some.inj (hk.symm.trans hd))
    · exact Or.inr (List.mem_eraseIdx_iff_getElem?.mpr ⟨k, hki, hk⟩)

/-! ## All steps -/

theorem mem_of_mem_dropRedundant {branch : Json}
    (h : branch ∈ dropRedundant dropWide steps branches) : branch ∈ branches := by
  induction steps generalizing branches with
  | zero => exact h
  | succ steps ih =>
    unfold dropRedundant at h
    split at h
    · exact List.mem_of_mem_eraseIdx (ih h)
    · exact h

/-- If the narrow branches are dropped, what holds for those left holds for all. -/
theorem forall_of_dropRedundant
    (hpart : ∀ narrow ∈ branches, ∀ wide ∈ branches, isPartOf narrow wide = true → P wide →
      P narrow)
    (h : ∀ branch ∈ dropRedundant false steps branches, P branch) :
    ∀ branch ∈ branches, P branch := by
  induction steps generalizing branches with
  | zero => exact h
  | succ steps ih =>
    unfold dropRedundant at h
    split at h
    next place hplace =>
      obtain ⟨dropped, hd, kept, hk, hothers, hkd⟩ := exists_kept hplace
      have hleft := ih (fun narrow hn wide hw => hpart narrow (List.mem_of_mem_eraseIdx hn) wide
        (List.mem_of_mem_eraseIdx hw)) h
      intro branch hb
      rcases hothers branch hb with rfl | hb
      -- the dropped branch is a part of one that the step keeps
      · exact hpart _ hd kept (List.mem_of_mem_eraseIdx hk) (by simpa using hkd) (hleft kept hk)
      · exact hleft branch hb
    next => exact h

/-- If the wide branches are dropped, what holds for some branch holds for one of those left. -/
theorem exists_of_dropRedundant
    (hpart : ∀ narrow ∈ branches, ∀ wide ∈ branches, isPartOf narrow wide = true → P wide →
      P narrow)
    (h : ∃ branch ∈ branches, P branch) :
    ∃ branch ∈ dropRedundant true steps branches, P branch := by
  induction steps generalizing branches with
  | zero => exact h
  | succ steps ih =>
    unfold dropRedundant
    split
    next place hplace =>
      obtain ⟨dropped, hd, kept, hk, hothers, hkd⟩ := exists_kept hplace
      refine ih (fun narrow hn wide hw => hpart narrow (List.mem_of_mem_eraseIdx hn) wide
        (List.mem_of_mem_eraseIdx hw)) ?_
      obtain ⟨branch, hb, hP⟩ := h
      rcases hothers branch hb with rfl | hb
      -- the dropped branch has a part that the step keeps
      · exact ⟨kept, hk, hpart kept (List.mem_of_mem_eraseIdx hk) _ hd (by simpa using hkd) hP⟩
      · exact ⟨branch, hb, hP⟩
    next => exact h

/-- Some branch is left if there was one. -/
theorem dropRedundant_ne_nil (h : branches ≠ []) :
    dropRedundant dropWide steps branches ≠ [] := by
  induction steps generalizing branches with
  | zero => exact h
  | succ steps ih =>
    unfold dropRedundant
    split
    next hplace =>
      obtain ⟨_, _, kept, hk, _⟩ := exists_kept hplace
      exact ih (List.ne_nil_of_mem hk)
    next => exact h

/-! ## Combinators that are reduced -/

/-- Branches that are all objects are the list of these objects. -/
theorem exists_map_obj (h : ∀ branch ∈ branches, ∃ fields, branch = Json.obj fields) :
    ∃ objects : List Object, branches = objects.map Json.obj := by
  induction branches with
  | nil => exact ⟨[], rfl⟩
  | cons branch rest ih =>
    obtain ⟨fields, rfl⟩ := h branch List.mem_cons_self
    obtain ⟨objects, rfl⟩ := ih fun branch hb => h branch (List.mem_cons_of_mem _ hb)
    exact ⟨fields :: objects, rfl⟩

/-- Of branches that are all objects, some objects are left. -/
theorem exists_dropRedundant_eq_map (dropWide : Bool) (steps : Nat) (objects : List Object) :
    ∃ left : List Object, dropRedundant dropWide steps (objects.map .obj) = left.map Json.obj
      ∧ ∀ fields ∈ left, fields ∈ objects := by
  have hobj : ∀ branch ∈ dropRedundant dropWide steps (objects.map .obj),
      ∃ fields ∈ objects, Json.obj fields = branch :=
    fun branch hb => List.mem_map.mp (mem_of_mem_dropRedundant hb)
  obtain ⟨left, hleft⟩ := exists_map_obj fun branch hb => by
    obtain ⟨fields, _, rfl⟩ := hobj branch hb
    exact ⟨fields, rfl⟩
  refine ⟨left, hleft, ?_⟩
  intro fields hf
  obtain ⟨_, hf', heq⟩ := hobj (.obj fields) (hleft ▸ List.mem_map_of_mem hf)
  exact Json.obj.inj heq ▸ hf'

/-- The other entries of a query with what is left of a combinator: the only branch, or else the
combinator with those that are left. -/
def collapsed (key : String) (others : Object) : List Object → Object
  | [only] => others.merge only
  | left => others.insert key (.arr (left.map .obj))

theorem reduceCombinator_eq_collapsed {key : String} {query : Object} {objects left : List Object}
    (hget : query.get? key = some (.arr (objects.map .obj)))
    (hleft : dropRedundant dropWide objects.length (objects.map .obj) = left.map Json.obj) :
    reduceCombinator dropWide key query = collapsed key (query.erase key) left := by
  rw [reduceCombinator, hget]
  simp only [List.length_map, hleft]
  match left with
  | [] | [_] | _ :: _ :: _ => rfl

/-- What comes out of a query that is one combinator: the only branch that is left, or else the
combinator with those that are left. -/
def aloneWith (key : String) : List Object → Object
  | [only] => only
  | objects => [(key, .arr (objects.map .obj))]

/-- A query that is one combinator comes out with some of its branches, of which there is one if
there was one before. -/
theorem reduceCombinator_alone (dropWide : Bool) (key : String) {objects : List Object}
    (hsorted : ∀ fields ∈ objects, fields.Sorted) (hne : objects ≠ []) :
    ∃ left : List Object, left ≠ [] ∧ (∀ fields ∈ left, fields ∈ objects)
      ∧ dropRedundant dropWide objects.length (objects.map .obj) = left.map Json.obj
      ∧ reduceCombinator dropWide key [(key, .arr (objects.map .obj))] = aloneWith key left := by
  obtain ⟨left, hleft, hmem⟩ := exists_dropRedundant_eq_map dropWide objects.length objects
  have hnil : left ≠ [] := by
    rintro rfl
    exact dropRedundant_ne_nil (by simpa using hne) hleft
  have herase : Dict.erase [(key, Json.arr (objects.map .obj))] key = [] := by simp [Dict.erase]
  refine ⟨left, hnil, hmem, hleft, ?_⟩
  rw [reduceCombinator_eq_collapsed (by simp [Dict.get?]) hleft, herase]
  cases left with
  | nil => rfl
  | cons only rest =>
    cases rest with
    | nil => exact (hsorted only (hmem only List.mem_cons_self)).nil_merge
    | cons second others => rfl

/-- What holds for some object among branches holds for one that is left when the wide ones are
dropped, if it passes from an object to its parts. -/
theorem exists_left_of_dropRedundant {T : Object → Prop} {objects left : List Object}
    (hleft : dropRedundant true steps (objects.map .obj) = left.map Json.obj)
    (hpart : ∀ narrow ∈ objects, ∀ wide ∈ objects, isPartOf (.obj narrow) (.obj wide) = true →
      T wide → T narrow)
    (h : ∃ fields ∈ objects, T fields) : ∃ fields ∈ left, T fields := by
  have hbranch : ∃ branch ∈ dropRedundant true steps (objects.map .obj),
      ∃ fields, branch = Json.obj fields ∧ T fields := by
    refine exists_of_dropRedundant ?_ ?_
    · rintro _ hnarrow _ hwide hpartOf ⟨wide, rfl, hT⟩
      obtain ⟨narrow, hn, rfl⟩ := List.mem_map.mp hnarrow
      obtain ⟨_, hw, heq⟩ := List.mem_map.mp hwide
      exact ⟨narrow, rfl, hpart narrow hn wide (Json.obj.inj heq ▸ hw) hpartOf hT⟩
    · obtain ⟨fields, hf, hT⟩ := h
      exact ⟨_, List.mem_map_of_mem hf, fields, rfl, hT⟩
  obtain ⟨_, hkept, fields, rfl, hT⟩ := hbranch
  rw [hleft] at hkept
  obtain ⟨_, hkept, heq⟩ := List.mem_map.mp hkept
  exact ⟨fields, Json.obj.inj heq ▸ hkept, hT⟩

end ObjectStore.Access
