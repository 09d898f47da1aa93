import ObjectStore.Decimal.Reading
import ObjectStore.Proofs.Decimal.Written
import ObjectStore.Proofs.Json.Content

/-!
# Places in documents

A path leads from a document into the values inside it: a step of it is the name of a member where
it meets an object, and stands for an index where it meets an array. `Json.at?` is what lies at a
path, `Json.put` the document with a value there, and with objects for the steps that led nowhere,
and `Json.without` the document without the member there.

Two paths lead apart if neither is the beginning of the other. What changes at one place is not seen
at a place apart from it (`at?_of_changedAt`), as long as the steps through arrays name their
indices in the usual way (`Passes`): `0`, `+0` and `-1` may all be one item.
-/

namespace ObjectStore.Json

variable {d inner value : Json} {step other : String} {path rest : List String}

/-! ## One step -/

/-- The whole number that a step stands for where it meets an array: blanks, a sign and digits, of
32 bits. -/
def place? (step : String) : Option Int :=
  let blanks := [' ', '\t', '\n', '\x0b', '\x0c', '\r']
  let (negative, digits) := Decimal.takeSign (step.toList.dropWhile (blanks.contains ·))
  if digits.isEmpty || !digits.all Char.isDigit then none
  else
    let place : Int := if negative then -Decimal.ofDigits digits else Decimal.ofDigits digits
    if -2 ^ 31 ≤ place ∧ place < 2 ^ 31 then some place else none

/-- The index that a step stands for in a list; negative places count from the end. -/
def index? (length : Nat) (step : String) : Option Nat :=
  (place? step).bind fun place =>
    let index := if place < 0 then place + length else place
    if 0 ≤ index ∧ index < length then some index.toNat else none

/-- What a step leads to. -/
def child? (step : String) : Json → Option Json
  | .obj fields => Dict.get? fields step
  | .arr items => (index? items.length step).bind (items[·]?)
  | _ => none

/-- A value with another one where a step leads to; what has no place for it becomes an object. -/
def setChild (d : Json) (step : String) (child : Json) : Json :=
  match d with
  | .obj fields => .obj (Dict.insert fields step child)
  | .arr items =>
    match index? items.length step with
    | some index => .arr (items.set index child)
    | none => .obj [(step, child)]
  | _ => .obj [(step, child)]

/-- An object without a member; other values stay. -/
def dropMember (step : String) : Json → Json
  | .obj fields => .obj (Dict.erase fields step)
  | value => value

/-- A step may be taken: where it meets an array, it is the numeral of an index in it. -/
def Admits (step : String) (d : Json) : Prop :=
  ∀ items, d = .arr items → ∃ index < items.length, index < 2 ^ 31 ∧ step = toString index

/-- The kinds of values: those with places in them, and all others. -/
inductive Kind where
  | object
  | array
  | scalar
  deriving DecidableEq

/-- The kind of a value. -/
def kind : Json → Kind
  | .obj _ => .object
  | .arr _ => .array
  | _ => .scalar

/-- A numeral of 32 bits stands for its number: its first character is a digit, so no blank and no
sign is taken off it. -/
theorem place?_toString {n : Nat} (h : n < 2 ^ 31) : place? (toString n) = some (n : Int) := by
  obtain ⟨c, digits, hcons⟩ := List.exists_cons_of_ne_nil (Nat.toDigits_ne_nil (b := 10) (n := n))
  have hdigits : ∀ d ∈ c :: digits, d.isDigit = true := hcons ▸ Decimal.isDigit_of_mem_toDigits
  have hfirst {d : Char} (hd : d.isDigit = false) : c ≠ d := by
    rintro rfl
    exact Bool.false_ne_true (hd.symm.trans (hdigits c List.mem_cons_self))
  have hblank : [' ', '\t', '\n', '\x0b', '\x0c', '\r'].contains c = false := by
    simp [hfirst]
  have htext : (toString n).toList = c :: digits := by
    rw [Nat.toString_eq_repr, Nat.toList_repr, hcons]
  have hsign : Decimal.takeSign (c :: digits) = (false, c :: digits) := by
    rw [Decimal.takeSign]
    · rintro s heq
      exact hfirst (d := '-') rfl (List.cons.inj heq).1
    · rintro s heq
      exact hfirst (d := '+') rfl (List.cons.inj heq).1
  have hvalue : Decimal.ofDigits (c :: digits) = n := hcons ▸ Decimal.ofDigits_toDigits n
  have hall : (c :: digits).all Char.isDigit = true := List.all_eq_true.mpr hdigits
  have hbounds : -2 ^ 31 ≤ (n : Int) ∧ (n : Int) < 2 ^ 31 := by omega
  -- blanks, sign, digits and bounds, one test of `place?` after another
  rw [place?, htext]
  dsimp only
  rw [List.dropWhile_cons, hblank, if_neg Bool.false_ne_true, hsign]
  dsimp only
  rw [hall, hvalue, if_neg (by simp), if_neg Bool.false_ne_true, if_pos hbounds]

/-- The numeral of an index stands for it. -/
theorem index?_toString {length index : Nat} (h : index < length) (hsmall : index < 2 ^ 31) :
    index? length (toString index) = some index := by
  have hplace : ¬ ((index : Int) < 0) := by omega
  rw [index?, place?_toString hsmall, Option.bind_some]
  dsimp only
  rw [if_neg hplace, if_pos (by omega), Int.toNat_natCast]

/-- A step leads to what was set there. -/
theorem child?_setChild_self (h : Admits step d) :
    (d.setChild step value).child? step = some value := by
  cases d with
  | obj fields => exact Dict.get?_insert_self fields step value
  | arr items =>
    -- the numeral names the same index in the changed array, which is as long
    obtain ⟨index, hlt, hsmall, rfl⟩ := h items rfl
    have hindex := index?_toString hlt hsmall
    simp only [setChild, hindex, child?, List.length_set, Option.bind_some]
    exact List.getElem?_set_self hlt
  | null | bool | int | double | str => exact if_pos rfl

/-- Another step leads where it led. -/
theorem child?_setChild_of_ne (hstep : Admits step d) (hother : Admits other d)
    (hne : other ≠ step) : (d.setChild step value).child? other = d.child? other := by
  cases d with
  | obj fields => exact Dict.get?_insert_of_ne fields value hne
  | arr items =>
    obtain ⟨index, hlt, hsmall, rfl⟩ := hstep items rfl
    obtain ⟨index', hlt', hsmall', rfl⟩ := hother items rfl
    have hindex := index?_toString hlt hsmall
    have hindex' := index?_toString hlt' hsmall'
    have hapart : index ≠ index' := fun heq => hne (heq ▸ rfl)
    simp only [setChild, hindex, child?, List.length_set, hindex', Option.bind_some]
    exact List.getElem?_set_ne hapart
  | null | bool | int | double | str => exact if_neg (Ne.symm hne)

/-- Taking a member out is not seen at the other steps. -/
theorem child?_dropMember_of_ne (hne : other ≠ step) :
    (d.dropMember step).child? other = d.child? other := by
  cases d with
  | obj fields => exact Dict.get?_erase_of_ne hne
  | null | bool | int | double | str | arr => rfl

/-- Setting what is there changes nothing. -/
theorem setChild_eq_self (h : d.Canonical) (hchild : d.child? step = some inner) :
    d.setChild step inner = d := by
  cases d with
  | obj fields =>
    cases h with
    | obj hsorted _ => exact congrArg Json.obj (hsorted.insert_eq_self hchild)
  | arr items =>
    obtain ⟨index, hindex, hitem⟩ := Option.bind_eq_some_iff.mp hchild
    obtain ⟨hlt, rfl⟩ := List.getElem?_eq_some_iff.mp hitem
    simp only [setChild, hindex]
    rw [List.set_getElem_self]
  | null | bool | int | double | str => cases hchild

/-- What may be taken before a change at a step may be taken after it: an array keeps its length. -/
theorem admits_setChild (hstep : Admits step d) (hother : Admits other d) :
    Admits other (d.setChild step value) := by
  intro items hitems
  cases d with
  | arr before =>
    obtain ⟨index, hlt, hsmall, rfl⟩ := hstep before rfl
    simp only [setChild, index?_toString hlt hsmall, arr.injEq] at hitems
    rw [← hitems, List.length_set]
    exact hother before rfl
  | obj | null | bool | int | double | str => cases hitems

/-- Setting a value where there are places for it keeps the kind. -/
theorem kind_setChild (hstep : Admits step d) (hplaces : d.kind ≠ .scalar) :
    (d.setChild step value).kind = d.kind := by
  cases d with
  | obj => rfl
  | arr items =>
    obtain ⟨index, hlt, hsmall, rfl⟩ := hstep items rfl
    simp only [setChild, index?_toString hlt hsmall]
    rfl
  | null | bool | int | double | str => exact absurd rfl hplaces

/-- Taking a member out keeps the kind. -/
theorem kind_dropMember : (d.dropMember step).kind = d.kind := by
  cases d <;> rfl

/-- A step leads somewhere only in an object or an array. -/
theorem kind_of_child? (h : d.child? step = some inner) : d.kind ≠ .scalar := by
  cases d with
  | obj | arr => exact nofun
  | null | bool | int | double | str => cases h

/-- What may be taken before a member goes may be taken after it. -/
theorem admits_dropMember (h : Admits other d) : Admits other (d.dropMember step) := by
  cases d with
  | obj => rintro items ⟨⟩
  | null | bool | int | double | str | arr => exact h

/-- What lies in a canonical document is canonical. -/
theorem Canonical.child? (h : d.Canonical) (hchild : d.child? step = some inner) :
    inner.Canonical := by
  cases h with
  | obj _ inside => exact inside _ (Dict.mem_of_get? hchild)
  | arr inside =>
    obtain ⟨_, _, hitem⟩ := Option.bind_eq_some_iff.mp hchild
    exact inside _ (List.mem_of_getElem? hitem)
  | null | bool | int | double | str => cases hchild

/-- A canonical document stays canonical with a canonical value at a step. -/
theorem Canonical.setChild (h : d.Canonical) (hvalue : value.Canonical) :
    (d.setChild step value).Canonical := by
  have halone : (Json.obj [(step, value)]).Canonical :=
    .obj (Dict.sorted_singleton _) (by simpa using hvalue)
  cases h with
  | obj sorted inside =>
    exact Object.canonical_iff.mp (Object.Canonical.insert ⟨sorted, inside⟩ step hvalue)
  | arr inside =>
    simp only [Json.setChild]
    -- an index that the array has not got makes an object of it
    split
    · refine .arr ?_
      intro item hitem
      rcases List.mem_or_eq_of_mem_set hitem with hitem | rfl
      · exact inside item hitem
      · exact hvalue
    · exact halone
  | null | bool | int | double | str => exact halone

/-- A canonical document stays canonical without a member. -/
theorem Canonical.dropMember (h : d.Canonical) : (d.dropMember step).Canonical := by
  cases h with
  | obj sorted inside =>
    exact Object.canonical_iff.mp (Object.Canonical.erase ⟨sorted, inside⟩ step)
  | arr inside => exact .arr inside
  | null => exact .null
  | bool b => exact .bool b
  | int n => exact .int n
  | double x => exact .double x
  | str s => exact .str s

/-! ## Paths -/

/-- What lies at a path. -/
def at? : List String → Json → Option Json
  | [], d => some d
  | step :: rest, d => (d.child? step).bind (at? rest)

/-- A document with a value at a path, and with objects for the steps that led nowhere. -/
def put : Json → List String → Json → Json
  | _, [], value => value
  | d, step :: rest, value => d.setChild step (put ((d.child? step).getD .null) rest value)

/-- A document without the member that a path leads to. -/
def without : Json → List String → Json
  | d, [] => d
  | d, [step] => d.dropMember step
  | d, step :: next :: rest =>
    match d.child? step with
    | some inner => d.setChild step (without inner (next :: rest))
    | none => d

/-- A path may be taken: so may all its steps that lead somewhere, and the first one that does
not. -/
def Passes : List String → Json → Prop
  | [], _ => True
  | step :: rest, d => Admits step d ∧ ∀ inner, d.child? step = some inner → Passes rest inner

/-- The kind of the value that the last step of a path is taken in, if the others lead to one. -/
def above (path : List String) (d : Json) : Option Kind := (d.at? path.dropLast).map kind

/-- Whether there is something for the last step of a path to be taken in. -/
def hasPlace (path : List String) (d : Json) : Bool := (above path d).any (· ≠ .scalar)

/-- Two paths lead apart: neither is the beginning of the other. -/
def Apart (p q : List String) : Prop := ¬ p <+: q ∧ ¬ q <+: p

variable {p q : List String} {next : String}

/-- Leading apart goes both ways. -/
theorem Apart.symm (h : Apart p q) : Apart q p := ⟨h.2, h.1⟩

/-- The empty path is the beginning of every path. -/
theorem not_apart_nil : ¬ Apart [] p := fun h => h.1 List.nil_prefix

/-- Paths that lead apart after a common step do so without it. -/
theorem Apart.tail (h : Apart (step :: p) (step :: q)) : Apart p q :=
  ⟨fun hpq => h.1 ((List.prefix_cons_inj step).mpr hpq),
    fun hqp => h.2 ((List.prefix_cons_inj step).mpr hqp)⟩

/-- A path that leads apart from a single step starts with another one. -/
theorem Apart.ne_of_singleton (h : Apart (other :: p) [step]) : other ≠ step := by
  rintro rfl
  exact h.2 ((List.prefix_cons_inj other).mpr List.nil_prefix)

/-- Nothing lies in `null`. -/
theorem at?_null (hp : p ≠ []) : at? p .null = none := by
  cases p with
  | nil => exact absurd rfl hp
  | cons => rfl

/-- Every path may be taken in `null`, which none of its steps leads into. -/
theorem passes_null : Passes p .null := by
  cases p with
  | nil => trivial
  | cons => exact ⟨nofun, nofun⟩

/-- The rest of a path may be taken where its first step leads, and in `null` where that leads
nowhere. -/
theorem Passes.child (h : Passes (step :: rest) d) : Passes rest ((d.child? step).getD .null) := by
  cases hchild : d.child? step with
  | none => exact passes_null
  | some inner => exact h.2 inner hchild

/-- The place for the last step is looked for inside what the first one leads to. -/
theorem above_cons (step next : String) (rest : List String) (d : Json) :
    above (step :: next :: rest) d = (d.child? step).bind (above (next :: rest)) := by
  rw [above, List.dropLast_cons_of_ne_nil (List.cons_ne_nil _ _), at?, Option.map_bind]
  rfl

/-- A single step is taken in the document itself. -/
theorem above_singleton (step : String) (d : Json) : above [step] d = some d.kind := rfl

/-- A longer path has a place if its first step leads to something in which the rest has one. -/
theorem hasPlace_cons (step next : String) (rest : List String) (d : Json) :
    hasPlace (step :: next :: rest) d = (d.child? step).any (hasPlace (next :: rest)) := by
  rw [hasPlace, above_cons, Option.any_bind]
  rfl

/-- The first step of a longer path with a place leads somewhere. -/
theorem exists_of_hasPlace (h : hasPlace (step :: next :: rest) d = true) :
    ∃ inner, d.child? step = some inner ∧ hasPlace (next :: rest) inner = true := by
  rw [hasPlace_cons] at h
  exact (Option.any_eq_true _ _).mp h

/-- Where a path has a place, its first step has one. -/
theorem kind_of_hasPlace (h : hasPlace (step :: rest) d = true) : d.kind ≠ .scalar := by
  cases rest with
  | nil => simpa [hasPlace, above_singleton] using h
  | cons next rest =>
    obtain ⟨inner, hchild, -⟩ := exists_of_hasPlace h
    exact kind_of_child? hchild

/-- A canonical document stays canonical with a canonical value at a path. -/
theorem Canonical.put (h : d.Canonical) (hvalue : value.Canonical) :
    (d.put path value).Canonical := by
  induction path generalizing d with
  | nil => exact hvalue
  | cons step rest ih =>
    refine h.setChild (ih ?_)
    -- a step that leads nowhere goes on from `null`, which is canonical too
    cases hchild : d.child? step with
    | none => exact .null
    | some inner => exact h.child? hchild

/-- A canonical document stays canonical without what a path leads to. -/
theorem Canonical.without (h : d.Canonical) : (d.without path).Canonical := by
  induction path generalizing d with
  | nil => exact h
  | cons step rest ih =>
    cases rest with
    | nil => exact h.dropMember
    | cons next rest =>
      unfold Json.without
      split
      next inner hchild => exact h.setChild (ih (h.child? hchild))
      next => exact h

/-! ## What changes at a path

`ChangedAt q d d'` says that `d'` is `d` but for what is at `q`. Paths apart from `q` are not
concerned.
-/

/-- A document is another one but for what is at a path. -/
inductive ChangedAt : List String → Json → Json → Prop
  | here (d d' : Json) : ChangedAt [] d d'
  | same (q : List String) (d : Json) : ChangedAt q d d
  | drop (step : String) (d : Json) : ChangedAt [step] d (d.dropMember step)
  | deeper {step : String} {rest : List String} {d inner : Json}
    (h : ChangedAt rest ((d.child? step).getD .null) inner) :
    ChangedAt (step :: rest) d (d.setChild step inner)

/-- Putting a value at a path changes nothing else. -/
theorem changedAt_put (d : Json) (path : List String) (value : Json) :
    ChangedAt path d (d.put path value) := by
  induction path generalizing d with
  | nil => exact .here d value
  | cons step rest ih => exact .deeper (ih _)

/-- Taking out what a path leads to changes nothing else. -/
theorem changedAt_without (d : Json) (path : List String) : ChangedAt path d (d.without path) := by
  induction path generalizing d with
  | nil => exact .same [] d
  | cons step rest ih =>
    cases rest with
    | nil => exact .drop step d
    | cons next rest =>
      rw [without]
      split
      next inner hchild =>
        refine .deeper ?_
        rw [hchild]
        exact ih inner
      next => exact .same _ d

variable {d' : Json}

/-- What lies at a path is not changed by a change at a path apart from it. -/
theorem at?_of_changedAt (hchanged : ChangedAt q d d') (hp : Passes p d) (hq : Passes q d)
    (h : Apart p q) : d'.at? p = d.at? p := by
  -- By induction on the change. As long as the steps are the same, both paths go on in the same
  -- value; at the first step where they differ the change is out of sight.
  induction hchanged generalizing p with
  | here => exact absurd h.symm not_apart_nil
  | same => rfl
  | drop step d =>
    cases p with
    | nil => exact absurd h not_apart_nil
    | cons other p => rw [at?, at?, child?_dropMember_of_ne h.ne_of_singleton]
  | @deeper step rest d inner _ ih =>
    cases p with
    | nil => exact absurd h not_apart_nil
    | cons other p =>
      rw [at?, at?]
      by_cases hne : other = step
      · subst hne
        rw [child?_setChild_self hq.1, Option.bind_some, ih hp.child hq.child h.tail]
        cases hchild : d.child? other with
        -- the change made an object here, and `p` led nowhere before it either
        | none => exact at?_null fun hnil => not_apart_nil (hnil ▸ h.tail)
        | some before => rfl
      · rw [child?_setChild_of_ne hq.1 hp.1 hne]

/-- A path may be taken after a change at a path apart from it, if it might be before. -/
theorem passes_of_changedAt (hchanged : ChangedAt q d d') (hp : Passes p d) (hq : Passes q d)
    (h : Apart p q) : Passes p d' := by
  induction hchanged generalizing p with
  | here => exact absurd h.symm not_apart_nil
  | same => exact hp
  | drop step d =>
    cases p with
    | nil => trivial
    | cons other p =>
      refine ⟨admits_dropMember hp.1, ?_⟩
      intro after hafter
      rw [child?_dropMember_of_ne h.ne_of_singleton] at hafter
      exact hp.2 after hafter
  | @deeper step rest d inner _ ih =>
    cases p with
    | nil => trivial
    | cons other p =>
      refine ⟨admits_setChild hq.1 hp.1, ?_⟩
      intro after hafter
      by_cases hne : other = step
      · subst hne
        rw [child?_setChild_self hq.1] at hafter
        obtain rfl := Option.some.inj hafter
        exact ih hp.child hq.child h.tail
      · rw [child?_setChild_of_ne hq.1 hp.1 hne] at hafter
        exact hp.2 after hafter

/-- The path of a change may be taken again. -/
theorem passes_self_of_changedAt (hchanged : ChangedAt q d d') (hq : Passes q d) : Passes q d' := by
  induction hchanged with
  | here => trivial
  | same => exact hq
  | drop step d => exact ⟨admits_dropMember hq.1, fun _ _ => trivial⟩
  | deeper _ ih =>
    refine ⟨admits_setChild hq.1 hq.1, ?_⟩
    intro after hafter
    rw [child?_setChild_self hq.1] at hafter
    exact Option.some.inj hafter ▸ ih hq.child

/-- A change where there is a place for it makes no other places, and takes none away. -/
theorem above_of_changedAt (hchanged : ChangedAt q d d') (hp : Passes p d) (hq : Passes q d)
    (h : Apart p q) (hplace : hasPlace q d = true) : above p d' = above p d := by
  induction hchanged generalizing p with
  | here => exact absurd h.symm not_apart_nil
  | same => rfl
  | drop step d =>
    -- the last step of `p` is taken here, or further inside
    rcases p with _ | ⟨other, _ | ⟨next, p⟩⟩
    · exact absurd h not_apart_nil
    · rw [above_singleton, above_singleton, kind_dropMember]
    · rw [above_cons, above_cons, child?_dropMember_of_ne h.ne_of_singleton]
  | @deeper step rest d inner _ ih =>
    rcases p with _ | ⟨other, _ | ⟨next, p⟩⟩
    · exact absurd h not_apart_nil
    · rw [above_singleton, above_singleton, kind_setChild hq.1 (kind_of_hasPlace hplace)]
    · rw [above_cons, above_cons]
      by_cases hne : other = step
      · subst hne
        cases rest with
        | nil => exact absurd h.tail.symm not_apart_nil
        | cons after rest =>
          obtain ⟨before, hchild, hbefore⟩ := exists_of_hasPlace hplace
          rw [hchild] at ih
          rw [child?_setChild_self hq.1, hchild]
          exact ih (hp.2 before hchild) (hq.2 before hchild) h.tail hbefore
      · rw [child?_setChild_of_ne hq.1 hp.1 hne]

/-- There is no list above a place in `null`. -/
theorem above_null : above p .null ≠ some .array := by
  cases hp : p.dropLast with
  | nil => simp [above, hp, at?, kind]
  | cons => simp [above, hp, at?, child?]

/-- Where no list was above a place, a change apart from it makes none. -/
theorem above_ne_array_of_changedAt (hchanged : ChangedAt q d d') (hp : Passes p d)
    (hq : Passes q d) (h : Apart p q) (hlast : above p d ≠ some .array) :
    above p d' ≠ some .array := by
  induction hchanged generalizing p with
  | here => exact absurd h.symm not_apart_nil
  | same => exact hlast
  | drop step d =>
    rcases p with _ | ⟨other, _ | ⟨next, p⟩⟩
    · exact absurd h not_apart_nil
    · rwa [above_singleton, kind_dropMember, ← above_singleton other]
    · rwa [above_cons, child?_dropMember_of_ne h.ne_of_singleton, ← above_cons]
  | @deeper step rest d inner _ ih =>
    rcases p with _ | ⟨other, _ | ⟨next, p⟩⟩
    · exact absurd h not_apart_nil
    -- a value without places becomes an object, which is no list
    · by_cases hplaces : d.kind = .scalar
      · cases d with
        | obj | arr => cases hplaces
        | null | bool | int | double | str => exact nofun
      · rwa [above_singleton, kind_setChild hq.1 hplaces, ← above_singleton other]
    · rw [above_cons] at hlast ⊢
      by_cases hne : other = step
      · subst hne
        rw [child?_setChild_self hq.1, Option.bind_some]
        refine ih hp.child hq.child h.tail ?_
        cases hchild : d.child? other with
        | none => exact above_null
        | some before => rwa [hchild] at hlast
      · rwa [child?_setChild_of_ne hq.1 hp.1 hne]

/-- What was put at a path lies there. -/
theorem at?_put_self (h : Passes path d) : (d.put path value).at? path = some value := by
  induction path generalizing d with
  | nil => rfl
  | cons step rest ih =>
    rw [put, at?, child?_setChild_self h.1]
    exact ih h.child

/-- A member that was taken out is gone; only an array would keep what a step leads to. -/
theorem child?_dropMember_self (h : d.kind ≠ .array) : (d.dropMember step).child? step = none := by
  cases d with
  | obj fields => exact Dict.get?_erase_self fields step
  | arr => exact absurd rfl h
  | null | bool | int | double | str => rfl

/-- What was taken out at a path is gone, unless a list is above it. -/
theorem at?_without_self (hpath : path ≠ []) (h : Passes path d)
    (hlast : above path d ≠ some .array) : (d.without path).at? path = none := by
  induction path generalizing d with
  | nil => exact absurd rfl hpath
  | cons step rest ih =>
    cases rest with
    | nil =>
      rw [above_singleton, Ne, Option.some.injEq] at hlast
      rw [without, at?, child?_dropMember_self hlast]
      rfl
    | cons next rest =>
      rw [without]
      cases hchild : d.child? step with
      | none =>
        dsimp only
        rw [at?, hchild]
        rfl
      | some inner =>
        rw [above_cons, hchild, Option.bind_some] at hlast
        dsimp only
        rw [at?, child?_setChild_self h.1]
        exact ih (List.cons_ne_nil _ _) (h.2 inner hchild) hlast

/-! ## Paths without a place -/

/-- Without a place for its last step a path leads nowhere. -/
theorem at?_eq_none_of_not_hasPlace (hp : p ≠ []) (h : hasPlace p d = false) : d.at? p = none := by
  induction p generalizing d with
  | nil => exact absurd rfl hp
  | cons step rest ih =>
    rw [at?]
    cases hchild : d.child? step with
    | none => rfl
    | some inner =>
      cases rest with
      | nil =>
        have hkind : d.kind = .scalar := by simpa [hasPlace, above_singleton] using h
        exact absurd hkind (kind_of_child? hchild)
      | cons next rest =>
        rw [hasPlace_cons, hchild] at h
        exact ih (List.cons_ne_nil _ _) h

/-- Without a place for it there is nothing to take out. -/
theorem without_of_not_hasPlace (hd : d.Canonical) (h : hasPlace p d = false) :
    d.without p = d := by
  induction p generalizing d with
  | nil => rfl
  | cons step rest ih =>
    cases rest with
    | nil =>
      have hkind : d.kind = .scalar := by simpa [hasPlace, above_singleton] using h
      rw [without]
      cases d with
      | obj => cases hkind
      | null | bool | int | double | str | arr => rfl
    | cons next rest =>
      rw [without]
      split
      next inner hchild =>
        rw [hasPlace_cons, hchild] at h
        rw [ih (hd.child? hchild) h, setChild_eq_self hd hchild]
      next => rfl

/-! ## Places in what a document says -/

namespace Content

/-- What a step leads to in what a document says. -/
def child? (step : String) : Content → Option Content
  | .obj fields => Dict.get? fields step
  | .arr items => (index? items.length step).bind (items[·]?)
  | _ => none

/-- What lies at a path in what a document says. -/
def at? : List String → Content → Option Content
  | [], content => some content
  | step :: rest, content => (content.child? step).bind (at? rest)

end Content

/-- What the items of a list say is said item by item. -/
theorem contentItems_eq_map (items : List Json) : contentItems items = items.map content := by
  induction items with
  | nil => rfl
  | cons item rest ih => rw [contentItems, ih, List.map_cons]

/-- What a member says is found under its name. -/
theorem get?_contentFields (fields : Object) (key : String) :
    Dict.get? (contentFields fields) key = (Dict.get? fields key).map content := by
  induction fields with
  | nil => rfl
  | cons field rest ih =>
    obtain ⟨k, v⟩ := field
    rw [contentFields, Dict.get?, Dict.get?]
    split
    · rfl
    · exact ih

/-- A step leads to the same place in a document and in what it says. -/
theorem child?_content (step : String) (d : Json) :
    d.content.child? step = (d.child? step).map content := by
  cases d with
  | obj fields => exact get?_contentFields fields step
  | arr items =>
    rw [content, contentItems_eq_map]
    simp only [Content.child?, child?, List.length_map, List.getElem?_map, Option.map_bind]
    rfl
  | double x =>
    rw [content]
    split <;> rfl
  | null | bool | int | str => rfl

/-- A path leads to the same place in a document and in what it says. -/
theorem at?_content (path : List String) (d : Json) :
    d.content.at? path = (d.at? path).map content := by
  induction path generalizing d with
  | nil => rfl
  | cons step rest ih =>
    rw [Content.at?, at?, child?_content, Option.bind_map, Option.map_bind]
    congr 1
    funext inner
    exact ih inner

end ObjectStore.Json
