import ObjectStore.Proofs.Json.Parts
import ObjectStore.Proofs.Text.Split
import ObjectStore.Request.Write

/-!
# What answers to writes reveal

An answer to a write is put together key by key: what the row holds at the path of a key is copied,
and objects on the way are made where the answer has none yet. The paths of keys may overlap, so a
key may find what it wants in the answer already, or parts of it.

What carries over from key to key is `Reveals`: the answer is a part of the row, each scalar in it
is at or below the path of one of the keys so far, and what the row holds at the paths of these keys
is there in full. One key more keeps it up (`Reveals.copied`), hence so do all keys of an update
(`reveals_operatorResults`). So an answer has those scalars of the row that are at or below the
paths of the operators of the update, and no others (`operatorResults_reveal`).
-/

namespace ObjectStore.Request

variable {answer row fields update : Object} {parts : List String} {keys more : List (List String)}
  {path : List Json.Step} {value : Json} {key : String}

/-! ## The steps of a key -/

/-- The steps that the parts of a dotted key name. They are members: a key leads through objects. -/
def stepsTo (parts : List String) : List Json.Step := parts.map .member

theorem stepsTo_cons (name : String) (parts : List String) :
    stepsTo (name :: parts) = .member name :: stepsTo parts := rfl

/-- The steps that a dotted key names. -/
def stepsOf (key : String) : List Json.Step := stepsTo (Text.split '.' key)

/-! ## One key -/

theorem canonical_copyPath (hrow : row.Canonical) (hanswer : answer.Canonical)
    (parts : List String) : (copyPath answer row parts).Canonical := by
  fun_induction copyPath answer row parts with
  | case1 => exact hanswer
  | case2 answer row key value hvalue => exact hanswer.insert key (hrow.get? hvalue)
  | case3 => exact hanswer
  | case4 answer row key next rest inner hnone hinner ih =>
    have hcopied := ih (Object.canonical_iff.mpr (hrow.get? hinner)) Object.canonical_nil
    exact hanswer.insert key (Object.canonical_iff.mp hcopied)
  | case5 answer row key next rest inner slot hslot hinner ih =>
    have hcopied := ih (Object.canonical_iff.mpr (hrow.get? hinner))
      (Object.canonical_iff.mpr (hanswer.get? hslot))
    exact hanswer.insert key (Object.canonical_iff.mp hcopied)
  | case6 => exact hanswer

/-- A part of a row stays one. -/
theorem isPartOf_copyPath (h : Json.IsPartOf (.obj answer) (.obj row)) (parts : List String) :
    Json.IsPartOf (.obj (copyPath answer row parts)) (.obj row) := by
  fun_induction copyPath answer row parts with
  | case1 => exact h
  | case2 answer row key value hvalue => exact h.insert hvalue (.refl value)
  | case3 => exact h
  | case4 answer row key next rest inner hnone hinner ih =>
    exact h.insert hinner (ih (Json.isPartOf_empty inner))
  | case5 answer row key next rest inner slot hslot hinner ih =>
    exact h.insert hinner (ih (h.member hslot hinner))
  | case6 => exact h

/-- What a copy does to the member under one name: nothing, or it is what the row has there, or the
copy goes on inside it. -/
theorem get?_copyPath (answer row : Object) (parts : List String) (name : String) :
    (copyPath answer row parts).get? name = answer.get? name
      ∨ (parts = [name] ∧ (copyPath answer row parts).get? name = row.get? name)
      ∨ ∃ inner slot more, parts = name :: more ∧ row.get? name = some (.obj inner)
        ∧ (answer.get? name = none ∧ slot = [] ∨ answer.get? name = some (.obj slot))
        ∧ (copyPath answer row parts).get? name = some (.obj (copyPath slot inner more)) := by
  fun_cases copyPath answer row parts with
  | case1 => exact .inl rfl
  | case2 key value hvalue =>
    rcases Dict.get?_insert_cases answer key value name with ⟨rfl, hget⟩ | hsame
    · exact .inr (.inl ⟨rfl, hget.trans hvalue.symm⟩)
    · exact .inl hsame
  | case3 => exact .inl rfl
  | case4 key next rest inner hnone hinner =>
    rcases Dict.get?_insert_cases answer key _ name with ⟨rfl, hget⟩ | hsame
    · exact .inr (.inr ⟨inner, [], _, rfl, hinner, .inl ⟨hnone, rfl⟩, hget⟩)
    · exact .inl hsame
  | case5 key next rest inner slot hslot hinner =>
    rcases Dict.get?_insert_cases answer key _ name with ⟨rfl, hget⟩ | hsame
    · exact .inr (.inr ⟨inner, slot, _, rfl, hinner, .inr hslot, hget⟩)
    · exact .inl hsame
  | case6 => exact .inl rfl

/-- A scalar in an answer was there, or is at the path that was copied or below it. -/
theorem isPrefix_of_copyPath (hscalar : value.kind = .scalar)
    (h : (Json.obj (copyPath answer row parts)).reach? path = some value) :
    (Json.obj answer).reach? path = some value ∨ stepsTo parts <+: path := by
  induction path generalizing answer row parts with
  | nil =>
    obtain rfl := Option.some.inj h
    cases hscalar
  | cons step rest ih =>
    obtain ⟨name, found, rfl, hfound, hrest⟩ := Json.exists_member_of_reach? h
    rcases get?_copyPath answer row parts name with hsame | ⟨rfl, -⟩
      | ⟨inner, slot, more, rfl, -, hslot, hcopied⟩
    · rw [hsame] at hfound
      exact .inl (by rw [Json.reach?_member, hfound]; exact hrest)
    · exact .inr ((List.prefix_cons_inj _).mpr List.nil_prefix)
    · obtain rfl := Option.some.inj (hcopied.symm.trans hfound)
      rcases ih hrest with hbefore | hprefix
      · rcases hslot with ⟨-, rfl⟩ | hslot
        · exact absurd hbefore (Json.reach?_empty_ne hscalar)
        · exact .inl (by rw [Json.reach?_member, hslot]; exact hbefore)
      · exact .inr ((List.prefix_cons_inj _).mpr hprefix)

/-- A copy of what is there changes nothing. -/
theorem copyPath_self (hrow : row.Canonical) (parts : List String) :
    copyPath row row parts = row := by
  induction parts generalizing row with
  | nil => rfl
  | cons key rest ih =>
    cases rest with
    | nil =>
      unfold copyPath
      split
      next value hvalue => exact hrow.sorted.insert_eq_self hvalue
      next => rfl
    | cons next rest =>
      unfold copyPath
      split
      next inner hnone hinner => cases hnone.symm.trans hinner
      next inner slot hslot hinner =>
        obtain rfl := Json.obj.inj (Option.some.inj (hslot.symm.trans hinner))
        rw [ih (Object.canonical_iff.mpr (hrow.get? hinner))]
        exact hrow.sorted.insert_eq_self hinner
      next => rfl

/-- What an answer has in full stays there in full. -/
theorem reach?_copyPath_of_whole (hrow : row.Canonical)
    (hanswer : (Json.obj answer).reach? path = some value)
    (hvalue : (Json.obj row).reach? path = some value) :
    (Json.obj (copyPath answer row parts)).reach? path = some value := by
  induction path generalizing answer row parts with
  | nil =>
    obtain rfl := Json.obj.inj (Option.some.inj (hanswer.trans hvalue.symm))
    rw [copyPath_self hrow]
    exact hvalue
  | cons step rest ih =>
    obtain ⟨name, held, rfl, hheld, hrest⟩ := Json.exists_member_of_reach? hanswer
    obtain ⟨_, stored, hname, hstored, hbelow⟩ := Json.exists_member_of_reach? hvalue
    obtain rfl := Json.Step.member.inj hname
    rw [Json.reach?_member]
    rcases get?_copyPath answer row parts name with hsame | ⟨-, hcopied⟩
      | ⟨inner, slot, more, -, hinner, hslot, hcopied⟩
    · rw [hsame, hheld]
      exact hrest
    · rw [hcopied, hstored]
      exact hbelow
    · rw [hcopied]
      obtain rfl := Option.some.inj (hinner.symm.trans hstored)
      rcases hslot with ⟨hnone, -⟩ | hslot
      · cases hnone.symm.trans hheld
      · obtain rfl := Option.some.inj (hslot.symm.trans hheld)
        exact ih (Object.canonical_iff.mpr (hrow.get? hinner)) hrest hbelow

/-- What the row has at a path is in the answer once it is copied. -/
theorem reach?_copyPath (h : Json.IsPartOf (.obj answer) (.obj row)) (hparts : parts ≠ [])
    (hvalue : (Json.obj row).reach? (stepsTo parts) = some value) :
    (Json.obj (copyPath answer row parts)).reach? (stepsTo parts) = some value := by
  fun_induction copyPath answer row parts with
  | case1 => exact absurd rfl hparts
  | case2 answer row key stored hstored =>
    rw [stepsTo_cons, Json.reach?_member, hstored] at hvalue
    rw [stepsTo_cons, Json.reach?_insert_self]
    exact hvalue
  | case3 answer row key hnone =>
    rw [stepsTo_cons, Json.reach?_member, hnone] at hvalue
    cases hvalue
  | case4 answer row key next rest inner hnone hinner ih =>
    rw [stepsTo_cons, Json.reach?_member, hinner] at hvalue
    rw [stepsTo_cons, Json.reach?_insert_self]
    exact ih (Json.isPartOf_empty inner) (List.cons_ne_nil _ _) hvalue
  | case5 answer row key next rest inner slot hslot hinner ih =>
    rw [stepsTo_cons, Json.reach?_member, hinner] at hvalue
    rw [stepsTo_cons, Json.reach?_insert_self]
    exact ih (h.member hslot hinner) (List.cons_ne_nil _ _) hvalue
  | case6 answer row key next rest hnone hslot =>
    -- the row has an object there, so what a part of it has there is none other
    obtain ⟨stored, hstored, hbelow⟩ := Option.bind_eq_some_iff.mp hvalue
    obtain ⟨inner, rfl⟩ := Json.exists_object_of_reach? hbelow
    cases hheld : answer.get? key with
    | none => exact absurd hheld (hnone inner hstored)
    | some held =>
      obtain ⟨slot, rfl⟩ := h.exists_object hheld hstored
      exact absurd hheld (hslot inner slot hstored)

/-! ## All keys -/

/-- An answer shows of a row what is at or below the paths of some keys, and no other scalars. -/
structure Reveals (row : Object) (keys : List (List String)) (answer : Object) : Prop where
  canonical : answer.Canonical
  isPart : Json.IsPartOf (.obj answer) (.obj row)
  onPath : ∀ path value, value.kind = .scalar → (Json.obj answer).reach? path = some value →
    ∃ parts ∈ keys, stepsTo parts <+: path
  whole : ∀ parts ∈ keys, ∀ value, (Json.obj row).reach? (stepsTo parts) = some value →
    (Json.obj answer).reach? (stepsTo parts) = some value

theorem reveals_nil (row : Object) : Reveals row [] [] := by
  refine ⟨Object.canonical_nil, Json.isPartOf_empty row, ?_, by simp⟩
  intro path value hscalar h
  exact absurd h (Json.reach?_empty_ne hscalar)

/-- One key more is copied. -/
theorem Reveals.copied (h : Reveals row keys answer) (hrow : row.Canonical) (hparts : parts ≠ []) :
    Reveals row (keys ++ [parts]) (copyPath answer row parts) where
  canonical := canonical_copyPath hrow h.canonical parts
  isPart := isPartOf_copyPath h.isPart parts
  onPath := by
    intro path value hscalar hvalue
    rcases isPrefix_of_copyPath hscalar hvalue with hbefore | hprefix
    · obtain ⟨earlier, hmem, hprefix⟩ := h.onPath path value hscalar hbefore
      exact ⟨earlier, List.mem_append_left _ hmem, hprefix⟩
    · exact ⟨parts, by simp, hprefix⟩
  whole := by
    intro other hmem value hvalue
    rcases List.mem_append.mp hmem with hmem | hmem
    · exact reach?_copyPath_of_whole hrow (h.whole other hmem value hvalue) hvalue
    · obtain rfl := List.mem_singleton.mp hmem
      exact reach?_copyPath h.isPart hparts hvalue

/-- All keys are copied, one after another. -/
theorem Reveals.copiedAll (h : Reveals row keys answer) (hrow : row.Canonical)
    (hmore : ∀ parts ∈ more, parts ≠ []) :
    Reveals row (keys ++ more)
      (more.foldl (fun answer parts => copyPath answer row parts) answer) := by
  induction more generalizing keys answer with
  | nil => simpa using h
  | cons parts rest ih =>
    rw [List.forall_mem_cons] at hmore
    have hrest := ih (h.copied hrow hmore.1) hmore.2
    rw [List.append_assoc] at hrest
    exact hrest

/-! ## The operators of an update -/

/-- An update has under a key an operator whose result is answered. -/
def Operates (update : Object) (key : String) : Prop :=
  ∃ value tag, (key, value) ∈ update ∧ value.opTag? = some tag
    ∧ tag ∈ ["Increment", "Add", "AddUnique", "Remove"]

theorem isAnswered_iff : isAnswered value = true
    ↔ ∃ tag, value.opTag? = some tag ∧ tag ∈ ["Increment", "Add", "AddUnique", "Remove"] := by
  have htag : ∀ tag, (ListOperator.ofTag? tag).isSome = true
      ↔ tag = "Add" ∨ tag = "AddUnique" ∨ tag = "Remove" := by
    intro tag
    unfold ListOperator.ofTag?
    split <;> simp_all
  unfold isAnswered
  cases value.opTag? with
  | none => simp
  | some tag => simp [htag]

/-- The paths of the operators of an update. -/
def answeredPaths (update : Object) : List (List String) :=
  (update.filter fun (_, value) => isAnswered value).map fun (key, _) => Text.split '.' key

theorem mem_answeredPaths :
    parts ∈ answeredPaths update ↔ ∃ key, Operates update key ∧ parts = Text.split '.' key := by
  constructor
  · intro h
    obtain ⟨⟨key, value⟩, hmem, rfl⟩ := List.mem_map.mp h
    obtain ⟨hmem, hanswered⟩ := List.mem_filter.mp hmem
    obtain ⟨tag, htag, hlisted⟩ := isAnswered_iff.mp hanswered
    exact ⟨key, ⟨value, tag, hmem, htag, hlisted⟩, rfl⟩
  · rintro ⟨key, ⟨value, tag, hmem, htag, hlisted⟩, rfl⟩
    have hanswered : isAnswered value = true := isAnswered_iff.mpr ⟨tag, htag, hlisted⟩
    exact List.mem_map.mpr ⟨(key, value), List.mem_filter.mpr ⟨hmem, hanswered⟩, rfl⟩

theorem reveals_operatorResults (hrow : row.Canonical) (update : Object) :
    Reveals row (answeredPaths update) (operatorResults update row) := by
  have hparts : ∀ parts ∈ answeredPaths update, parts ≠ [] := by
    intro parts hmem hnil
    obtain ⟨key, -, rfl⟩ := mem_answeredPaths.mp hmem
    exact Text.splitChars_ne_nil _ _ (List.map_eq_nil_iff.mp hnil)
  have hall := (reveals_nil row).copiedAll hrow hparts
  rw [answeredPaths, List.foldl_map] at hall
  exact hall

/-- An answer to a write has exactly those scalars of the row, each at its place, that are at the
path of an operator of the update or below it; and what the row has at the path of an operator is in
the answer as a whole, whether or not the paths of others go through it. -/
theorem operatorResults_reveal (update : Object) (hrow : row.Canonical) :
    (operatorResults update row).Canonical
      ∧ (∀ path value, value.kind = .scalar →
        ((Json.obj (operatorResults update row)).reach? path = some value
          ↔ (Json.obj row).reach? path = some value
            ∧ ∃ key, Operates update key ∧ stepsOf key <+: path))
      ∧ ∀ key value, Operates update key → (Json.obj row).reach? (stepsOf key) = some value →
        (Json.obj (operatorResults update row)).reach? (stepsOf key) = some value := by
  have hreveals := reveals_operatorResults hrow update
  have hwhole : ∀ key value, Operates update key →
      (Json.obj row).reach? (stepsOf key) = some value →
      (Json.obj (operatorResults update row)).reach? (stepsOf key) = some value := by
    intro key value hkey hvalue
    exact hreveals.whole _ (mem_answeredPaths.mpr ⟨key, hkey, rfl⟩) value hvalue
  refine ⟨hreveals.canonical, fun path value hscalar => ⟨?_, ?_⟩, hwhole⟩
  · intro h
    refine ⟨hreveals.isPart.scalar h hscalar, ?_⟩
    obtain ⟨parts, hmem, hprefix⟩ := hreveals.onPath path value hscalar h
    obtain ⟨key, hkey, rfl⟩ := mem_answeredPaths.mp hmem
    exact ⟨key, hkey, hprefix⟩
  · rintro ⟨hvalue, key, hkey, below, rfl⟩
    -- what is at the path of the key is in the answer, and all that is in it
    rw [Json.reach?_append] at hvalue ⊢
    obtain ⟨found, hfound, hbelow⟩ := Option.bind_eq_some_iff.mp hvalue
    rw [hwhole key found hkey hfound]
    exact hbelow

/-- An update whose operators overlap, and one of which is on a path that the row does not have. -/
def overlapping : Object :=
  [("data.count", .obj [("__op", .str "Increment"), ("amount", .int 1)]),
    ("data.lists.none", .obj [("__op", .str "Remove"), ("objects", .arr [.int 1])]),
    ("name", .str "x"),
    ("stats", .obj [("__op", .str "AddUnique"), ("objects", .arr [])]),
    ("stats.views", .obj [("__op", .str "Increment"), ("amount", .int 1)]),
    ("tags", .obj [("__op", .str "Delete")])]

/-- The row after it. -/
def overlappingRow : Object :=
  [("data", .obj [("count", .int 4), ("lists", .obj [("all", .str "a")]), ("secret", .str "s")]),
    ("name", .str "x"), ("stats", .obj [("likes", .int 2), ("views", .arr [.int 7])])]

/-- The count and all of the statistics are answered, nothing else beside them. -/
theorem overlapping_reveals :
    overlappingRow.Canonical
      ∧ (Json.obj (operatorResults overlapping overlappingRow)).reach?
        [.member "stats", .member "views", .item 0] = some (.int 7)
      ∧ (Json.obj (operatorResults overlapping overlappingRow)).reach? (stepsOf "stats")
        = some (.obj [("likes", .int 2), ("views", .arr [.int 7])])
      ∧ (Json.obj (operatorResults overlapping overlappingRow)).reach?
        [.member "data", .member "secret"] = none
      ∧ operatorResults overlapping overlappingRow
        = [("data", .obj [("count", .int 4), ("lists", .obj [])]),
          ("stats", .obj [("likes", .int 2), ("views", .arr [.int 7])])] := by
  have hrow : overlappingRow.Canonical := Object.canonical_of_isCanonical (by decide)
  have hviews : Operates overlapping "stats.views" :=
    ⟨.obj [("__op", .str "Increment"), ("amount", .int 1)], "Increment", by simp [overlapping], rfl,
      by simp⟩
  have hstats : Operates overlapping "stats" :=
    ⟨.obj [("__op", .str "AddUnique"), ("objects", .arr [])], "AddUnique", by simp [overlapping],
      rfl, by simp⟩
  have hreveal := operatorResults_reveal overlapping hrow
  refine ⟨hrow, ?_, ?_, rfl, rfl⟩
  · exact (hreveal.2.1 _ (.int 7) rfl).mpr ⟨rfl, "stats.views", hviews, [.item 0], rfl⟩
  · exact hreveal.2.2 "stats" _ hstats rfl

end ObjectStore.Request
