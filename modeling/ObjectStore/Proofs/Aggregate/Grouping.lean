import Mathlib.Data.List.Nodup
import ObjectStore.Objects.Read
import ObjectStore.Proofs.Aggregate.Quoted
import ObjectStore.Proofs.Json.Canonical

/-!
# What grouping keeps

The output columns of a `$group` stage get their names from three places: the labels of the parts of
the key, the object id, and the fields of the accumulators, each once for every operator. No two of
these names are compared. A row has one value under one name, and `foldKey` puts the key under the
object id, whatever is there. So all values of a row come back just if the names are apart from one
another, and from the object id (`Plan.group_keeps_iff`).
-/

namespace ObjectStore

namespace Aggregate

open Result

/-! ## Putting a key together -/

/-- Takes the part of a key with some label out of a row, which is first, into the key, which is
second. -/
def moveLabel (state : Object × Object) (label : String) : Object × Object :=
  match Dict.get? state.1 label with
  | some value => (Dict.erase state.1 label, Dict.insert state.2 label value)
  | none => state

variable {row : Object} {label : String} {labels : List String} {state : Object × Object}

/-- Putting a key together moves its labels one after another. -/
theorem foldKey_eq_foldl (row : Object) (labels : List String) :
    foldKey row labels =
      let moved := labels.foldl moveLabel (row, [])
      Dict.insert moved.1 objectIdField (.obj moved.2) := rfl

/-- What has the label is gone from the row. -/
theorem moveLabel_fst (state : Object × Object) (label : String) :
    (moveLabel state label).1 = state.1.erase label := by
  unfold moveLabel
  cases hget : Dict.get? state.1 label with
  | some value => rfl
  | none => exact (Dict.erase_of_get?_eq_none hget).symm

/-- What has the label is in the key, and everything that was there before stays. -/
theorem get?_moveLabel_snd (state : Object × Object) (label key : String) :
    (moveLabel state label).2.get? key
      = if key = label then (state.1.get? key).or (state.2.get? key) else state.2.get? key := by
  unfold moveLabel
  by_cases hkey : key = label
  · subst hkey
    cases hget : Dict.get? state.1 key <;> simp
  · cases hget : Dict.get? state.1 label with
    | some value => simp [hkey, Dict.get?_insert_of_ne _ _ hkey]
    | none => simp [hkey]

/-- The key stays in order. -/
theorem sorted_moveLabel (h : state.2.Sorted) (label : String) :
    (moveLabel state label).2.Sorted := by
  unfold moveLabel
  cases Dict.get? state.1 label with
  | some value => exact h.insert label value
  | none => exact h

/-- All that has one of the labels is gone from the row. -/
theorem foldl_moveLabel_fst (state : Object × Object) (labels : List String) :
    (labels.foldl moveLabel state).1 = state.1.filter fun entry => decide (entry.1 ∉ labels) := by
  induction labels generalizing state with
  | nil => simp
  | cons label rest ih =>
    rw [List.foldl_cons, ih, moveLabel_fst, Dict.erase, List.filter_filter]
    refine List.filter_congr ?_
    intro entry _
    rw [Bool.eq_iff_iff]
    simp [and_comm]

/-- What has one of the labels is in the key. -/
theorem get?_foldl_moveLabel_snd (state : Object × Object) (labels : List String) (key : String) :
    (labels.foldl moveLabel state).2.get? key
      = if key ∈ labels then (state.1.get? key).or (state.2.get? key) else state.2.get? key := by
  induction labels generalizing state with
  | nil => simp
  | cons label rest ih =>
    rw [List.foldl_cons, ih, moveLabel_fst, get?_moveLabel_snd]
    by_cases hkey : key = label
    · subst hkey
      simp [Dict.get?_erase_self]
    · simp [hkey, Dict.get?_erase_of_ne hkey]

/-- The key is in order. -/
theorem sorted_foldl_moveLabel (h : state.2.Sorted) (labels : List String) :
    (labels.foldl moveLabel state).2.Sorted := by
  induction labels generalizing state with
  | nil => exact h
  | cons label rest ih => exact ih (sorted_moveLabel h label)

/-- What has a label goes into the key, and the key goes where the object id was. -/
theorem foldKey_eq (h : row.Sorted) (labels : List String) :
    foldKey row labels =
      Dict.insert (row.filter fun entry => decide (entry.1 ∉ labels)) objectIdField
        (.obj (row.filter fun entry => decide (entry.1 ∈ labels))) := by
  -- the key and the part of the row are both in order, so they are the same if every name leads to
  -- the same
  have hkey : (labels.foldl moveLabel (row, [])).2
      = row.filter fun entry => decide (entry.1 ∈ labels) := by
    refine (sorted_foldl_moveLabel Dict.sorted_nil labels).ext (h.filter _) ?_
    intro key
    rw [get?_foldl_moveLabel_snd, Dict.get?_filter_key fun key => decide (key ∈ labels)]
    simp
  simp only [foldKey_eq_foldl]
  rw [hkey, foldl_moveLabel_fst]

/-! ## Values that come back -/

/-- An answer has the parts of a key under the object id, all others at top level, and nothing
else. -/
structure Holds (answer : Object) (key others : List (String × Json)) : Prop where
  key : ∃ parts, answer.get? objectIdField = some (.obj parts) ∧ parts.Perm key
  others : (answer.erase objectIdField).Perm others

/-- Where no other entry has a label of the key, the labels tell the key from the others. -/
theorem filter_labels {key others : List (String × Json)}
    (h : ∀ entry ∈ others, entry.1 ∉ key.map Prod.fst) :
    (key ++ others).filter (fun entry => decide (entry.1 ∈ key.map Prod.fst)) = key
      ∧ (key ++ others).filter (fun entry => decide (entry.1 ∉ key.map Prod.fst)) = others := by
  have hkey : ∀ entry ∈ key, entry.1 ∈ key.map Prod.fst := fun _ => List.mem_map_of_mem
  constructor
  · rw [List.filter_append, List.filter_eq_self.mpr fun entry he => decide_eq_true (hkey entry he),
      List.filter_eq_nil_iff.mpr fun entry he => by simpa using h entry he, List.append_nil]
  · rw [List.filter_append, List.filter_eq_nil_iff.mpr fun entry he => by simpa using hkey entry he,
      List.filter_eq_self.mpr fun entry he => decide_eq_true (h entry he), List.nil_append]

/-- A row whose key is put together has all values just if no two have one name, and none besides
the key has the name of the object id. -/
theorem holds_foldKey_iff (key others : List (String × Json)) :
    Holds (foldKey (Dict.ofList (key ++ others)) (key.map Prod.fst)) key others ↔
      ((key ++ others).map Prod.fst).Nodup ∧ objectIdField ∉ others.map Prod.fst := by
  have hsorted := Dict.sorted_ofList (key ++ others)
  have hordered : ((key ++ others).map Prod.fst).Nodup →
      (Dict.ofList (key ++ others)).Perm (key ++ others) := Dict.perm_ofList_iff.mpr
  generalize Dict.ofList (key ++ others) = row at hsorted hordered
  rw [foldKey_eq hsorted, List.map_append, List.nodup_append]
  -- an answer with all values has as many names; distinct names put all values into the row, and
  -- the labels tell the key from the others
  constructor
  · rintro ⟨⟨parts, hparts, hkey⟩, hothers⟩
    rw [Dict.get?_insert_self] at hparts
    obtain rfl := Json.obj.inj (Option.some.inj hparts)
    rw [Dict.erase_insert] at hothers
    -- what is left of the row besides the key has neither a label of it nor the object id
    have hapart : ∀ name ∈ others.map Prod.fst, name ∉ key.map Prod.fst ∧ name ≠ objectIdField := by
      intro name hname
      obtain ⟨entry, hentry, rfl⟩ := List.mem_map.mp hname
      obtain ⟨hmem, hne⟩ := Dict.mem_erase.mp (hothers.mem_iff.mpr hentry)
      exact ⟨by simpa using (List.mem_filter.mp hmem).2, hne⟩
    refine ⟨⟨?_, ?_, ?_⟩, ?_⟩
    · exact (hkey.map Prod.fst).nodup_iff.mp (hsorted.filter _).nodup_keys
    · exact (hothers.map Prod.fst).nodup_iff.mp ((hsorted.filter _).erase _).nodup_keys
    · intro label hlabel name hname heq
      exact (hapart name hname).1 (heq ▸ hlabel)
    · intro hname
      exact (hapart _ hname).2 rfl
  · rintro ⟨hnodup, hobjectId⟩
    have hperm := hordered (by rw [List.map_append, List.nodup_append]; exact hnodup)
    obtain ⟨hkey, hothers⟩ := filter_labels fun entry hentry hlabel =>
      hnodup.2.2 entry.1 hlabel entry.1 (List.mem_map_of_mem hentry) rfl
    have hparts := hperm.filter fun entry => decide (entry.1 ∈ key.map Prod.fst)
    have hrest := hperm.filter fun entry => decide (entry.1 ∉ key.map Prod.fst)
    rw [hkey] at hparts
    rw [hothers] at hrest
    refine ⟨⟨_, Dict.get?_insert_self _ _ _, hparts⟩, ?_⟩
    rw [Dict.erase_insert, Dict.erase, List.filter_eq_self.mpr]
    · exact hrest
    · intro entry hentry
      have hne : entry.1 ≠ objectIdField := fun heq =>
        hobjectId (heq ▸ List.mem_map_of_mem (hrest.mem_iff.mp hentry))
      simpa using hne

/-! ## The names of the columns -/

/-- The name that an output column is given. -/
def alias? (column : Sql) : Option String :=
  match column.getLast? with
  | some (.name label) => some label
  | _ => none

/-- The labels of a key of several parts. -/
def partLabels? : Json → Option (List String)
  | .obj parts => some (parts.map Prod.fst)
  | _ => none

/-- The names of the columns of a key; one that has no parts is the object id. -/
def keyLabels (key : Json) : List String := (partLabels? key).getD [objectIdField]

/-- The operators of an accumulator. -/
def operatorsOf (member : String × Json) : Object := member.2.obj?.getD []

/-- The names of the columns of the accumulators: that of each field once for every operator. -/
def accumulatorLabels (spec : Object) : List String :=
  (spec.erase groupKeyField).flatMap fun member => (operatorsOf member).map fun _ => member.1

variable {key value reference : Json} {group : Group} {spec : Object} {field operator : String}
  {column : Sql} {columns : List Sql}

/-- A labelled expression has its label for a name. -/
theorem alias?_labelled (expression : Sql) (label : String) :
    alias? (labelled expression label) = some label := by
  simp [alias?, labelled, Sql.name]

/-- The columns of a key have its labels, or the object id. -/
theorem groupBy_eq_ok (h : groupBy key = .ok group) :
    group.columns.map alias? = (keyLabels key).map some ∧ group.labels = partLabels? key := by
  cases key with
  | null | str =>
    obtain rfl := Except.ok.inj h
    simp [alias?_labelled, keyLabels, partLabels?]
  | obj parts =>
    obtain ⟨found, hfound, h⟩ := bind_eq_ok.mp h
    obtain rfl := pure_eq_ok.mp h
    have hlabels : found.map Prod.fst = parts.map Prod.fst := by
      refine map_eq_of_mapM hfound ?_
      intro part answer h
      obtain ⟨sql, -, h⟩ := bind_eq_ok.mp h
      exact (congrArg Prod.fst (pure_eq_ok.mp h)).symm
    refine ⟨?_, congrArg some hlabels⟩
    rw [keyLabels, partLabels?, Option.getD_some, ← hlabels, List.map_map, List.map_map]
    exact List.map_congr_left fun part _ => alias?_labelled part.2 part.1
  | bool | int | double | arr => cases h

/-- The column of an accumulator has the name of its field. -/
theorem accumulatorColumn_eq_ok (h : accumulatorColumn field operator reference = .ok column) :
    alias? column = some field := by
  unfold accumulatorColumn at h
  split at h
  · cases h
  · split at h
    · obtain rfl := Except.ok.inj h
      exact alias?_labelled _ _
    · obtain ⟨name, -, h⟩ := bind_eq_ok.mp h
      obtain rfl := pure_eq_ok.mp h
      exact alias?_labelled _ _

/-- Each operator of an accumulator makes a column with the name of its field. -/
theorem accumulatorColumns_eq_ok (h : accumulatorColumns field value = .ok columns) :
    columns.map alias? = (operatorsOf (field, value)).map fun _ => some field := by
  unfold accumulatorColumns at h
  split at h
  · cases h
  next operators hoperators =>
    rw [operatorsOf, hoperators]
    exact map_eq_of_mapM h fun _ _ h => accumulatorColumn_eq_ok h

/-- The output columns of a group have the names of its key and then those of its accumulators. -/
theorem groupOf_eq_ok (h : groupOf spec = .ok group) :
    ∃ key, spec.get? groupKeyField = some key ∧ group.labels = partLabels? key ∧
      group.columns.map alias? = (keyLabels key ++ accumulatorLabels spec).map some := by
  unfold groupOf at h
  split at h
  · cases h
  next key hkey =>
    obtain ⟨keyed, hkeyed, h⟩ := bind_eq_ok.mp h
    obtain ⟨columns, hcolumns, h⟩ := bind_eq_ok.mp h
    obtain rfl := pure_eq_ok.mp h
    obtain ⟨hnames, hlabels⟩ := groupBy_eq_ok hkeyed
    have heach := map_eq_of_mapM hcolumns fun _ _ h => accumulatorColumns_eq_ok h
    have haccumulators : columns.flatten.map alias? = (accumulatorLabels spec).map some := by
      rw [List.map_flatten, heach, accumulatorLabels, List.map_flatMap, List.flatMap_def]
      simp
    exact ⟨key, hkey, hlabels, by rw [List.map_append, hnames, haccumulators, List.map_append]⟩

/-- The group of a plan is read off the last `$group` stage of its pipeline. -/
theorem group_ofPipeline {c : Compiler} {pipeline : List Json} {plan : Plan}
    (h : Plan.ofPipeline c pipeline = .ok plan) :
    ((specifications "$group" pipeline).getLast?).map groupOf = plan.group.map .ok := by
  refine Plan.ofPipeline_induction (P := fun seen plan =>
    ((specifications "$group" seen).getLast?).map groupOf = plan.group.map .ok) rfl ?_ h
  intro seen before stage value after hbefore hadds
  cases hadds with
  | group hgroup =>
    rw [specifications_snoc, List.getLast?_concat, Option.map_some, hgroup]
    rfl
  | condition | projection | sorting | limit | offset => rwa [specifications_keep (by decide)]

/-! ## Stages whose names are apart -/

/-- No accumulator has two operators. -/
def IsSingle (spec : Object) : Prop :=
  ∀ member ∈ spec.erase groupKeyField, (operatorsOf member).length ≤ 1

/-- No accumulator with an operator has one of some names. -/
def Avoids (spec : Object) (names : List String) : Prop :=
  ∀ member ∈ spec.erase groupKeyField, operatorsOf member ≠ [] → member.1 ∉ names

/-- A name is that of an accumulator if a field with an operator has it. -/
theorem mem_accumulatorLabels : label ∈ accumulatorLabels spec ↔
    ∃ member ∈ spec.erase groupKeyField, operatorsOf member ≠ [] ∧ member.1 = label := by
  simp only [accumulatorLabels, List.mem_flatMap, List.mem_map]
  constructor
  · rintro ⟨member, hmember, operator, hoperator, hlabel⟩
    exact ⟨member, hmember, List.ne_nil_of_mem hoperator, hlabel⟩
  · rintro ⟨member, hmember, hne, hlabel⟩
    obtain ⟨operator, hoperator⟩ := List.exists_mem_of_ne_nil _ hne
    exact ⟨member, hmember, operator, hoperator, hlabel⟩

/-- Accumulators avoid some names if none of these is among theirs. -/
theorem avoids_iff {names : List String} :
    Avoids spec names ↔ ∀ name ∈ names, name ∉ accumulatorLabels spec := by
  constructor
  · intro h name hname hmem
    obtain ⟨member, hmember, hne, rfl⟩ := mem_accumulatorLabels.mp hmem
    exact h member hmember hne hname
  · intro h member hmember hne hname
    exact h _ hname (mem_accumulatorLabels.mpr ⟨member, hmember, hne, rfl⟩)

/-- Accumulators have distinct names if none has two operators: their fields are keys of one object.
-/
theorem nodup_accumulatorLabels_iff (h : spec.Sorted) :
    (accumulatorLabels spec).Nodup ↔ IsSingle spec := by
  have heach (member : String × Json) :
      ((operatorsOf member).map fun _ => member.1).Nodup ↔ (operatorsOf member).length ≤ 1 := by
    rw [List.map_const', List.nodup_replicate]
  have hapart : (spec.erase groupKeyField).Pairwise fun a b => a.1 ≠ b.1 :=
    List.pairwise_map.mp (h.erase groupKeyField).nodup_keys
  rw [accumulatorLabels, List.nodup_flatMap]
  constructor
  · exact fun hall member hmember => (heach member).mp (hall.1 member hmember)
  · intro hsingle
    refine ⟨fun member hmember => (heach member).mpr (hsingle member hmember), ?_⟩
    refine hapart.imp fun hne name ha hb => ?_
    obtain ⟨_, _, rfl⟩ := List.mem_map.mp ha
    obtain ⟨_, _, hname⟩ := List.mem_map.mp hb
    exact hne hname.symm

/-- The columns of a key have distinct names. -/
theorem nodup_keyLabels (h : key.Canonical) : (keyLabels key).Nodup := by
  cases h with
  | obj sorted _ => exact sorted.nodup_keys
  | _ => exact List.nodup_singleton objectIdField

/-- The names of the output columns are distinct just if no accumulator has two operators and none
has the name of a column of the key. -/
theorem nodup_labels_iff (hspec : spec.Canonical) (hkey : spec.get? groupKeyField = some key) :
    (keyLabels key ++ accumulatorLabels spec).Nodup
      ↔ IsSingle spec ∧ Avoids spec (keyLabels key) := by
  have hlabels := nodup_keyLabels (hspec.get? hkey)
  rw [List.nodup_append', nodup_accumulatorLabels_iff hspec.sorted, avoids_iff]
  constructor
  · rintro ⟨-, hsingle, hapart⟩
    exact ⟨hsingle, fun name hname => hapart hname⟩
  · rintro ⟨hsingle, hapart⟩
    exact ⟨hlabels, hsingle, fun name hname => hapart name hname⟩

/-! ## What comes back of a row -/

/-- An answer has all entries of a row: those with the labels of a key, which come first, together
under the object id, and the others at top level. -/
def Keeps (labels : Option (List String)) (entries : List (String × Json)) (answer : Object) :
    Prop :=
  match labels with
  | some labels => Holds answer (entries.take labels.length) (entries.drop labels.length)
  | none => answer.Perm entries

variable {c : Compiler} {pipeline : List Json} {plan : Plan} {entries : List (String × Json)}
  {names : List String}

/-- What becomes of a row of a group whose key has some labels. -/
def shaped (labels : Option (List String)) (row : Object) : Object :=
  (labels.map (foldKey row)).getD row

/-- A row with the columns of a key and some others is answered with all of its values if the names
are distinct and none of the others is the object id. -/
theorem keeps_shaped_iff (hnames : entries.map Prod.fst = keyLabels key ++ names) :
    Keeps (partLabels? key) entries (shaped (partLabels? key) (Dict.ofList entries))
      ↔ (keyLabels key ++ names).Nodup ∧ objectIdField ∉ names := by
  rw [keyLabels] at hnames ⊢
  cases hlabels : partLabels? key with
  -- a key without labels is the object id itself, which the others have to avoid anyway
  | none =>
    rw [hlabels, Option.getD_none] at hnames
    simp only [Keeps, shaped, Option.map_none, Option.getD_none]
    rw [Dict.perm_ofList_iff, hnames, List.singleton_append, List.nodup_cons]
    exact ⟨fun h => ⟨h, h.1⟩, fun h => h.1⟩
  | some labels =>
    rw [hlabels, Option.getD_some] at hnames
    have hkey : (entries.take labels.length).map Prod.fst = labels := by
      rw [List.map_take, hnames, List.take_left]
    have hothers : (entries.drop labels.length).map Prod.fst = names := by
      rw [List.map_drop, hnames, List.drop_left]
    have hholds := holds_foldKey_iff (entries.take labels.length) (entries.drop labels.length)
    rw [List.take_append_drop, hkey, hothers, hnames] at hholds
    exact hholds

/-- A row of a group is answered with its key put together. -/
theorem shapeRow_eq {group : Group} {row : Row} {record : Object} (schema : Schema)
    (hgroup : plan.group = some group) (hrow : row.toRecord = .ok record) :
    Objects.shapeRow schema plan row = .ok (shaped plan.labels record) := by
  unfold Objects.shapeRow
  rw [hrow]
  cases hlabels : plan.labels with
  | some labels => rfl
  | none => simp [shaped, hgroup, bind, Except.bind, pure, Except.pure]

/-- The stages of a canonical pipeline are canonical. -/
theorem canonical_of_mem_specifications {name : String}
    (hcanonical : ∀ document ∈ pipeline, document.Canonical)
    (h : spec ∈ specifications name pipeline) : spec.Canonical := by
  obtain ⟨document, hdocument, hread⟩ := List.mem_filterMap.mp h
  split at hread
  next stage found =>
    obtain ⟨-, hfound⟩ := Option.ite_none_right_eq_some.mp hread
    obtain rfl := Option.some.inj hfound
    have hinside := Object.canonical_iff.mpr (hcanonical _ hdocument)
    exact Object.canonical_iff.mpr (hinside.inside _ List.mem_cons_self)
  next => cases hread

/-- Grouping keeps all values of a row just if the stage names them apart. The output columns have
distinct names if and only if no accumulator has two operators and none has the name of a column of
the key. Every row with these columns is answered, and the answer has each value of the key under
the object id and each value of an accumulator at top level, once, if and only if besides no
accumulator is named like the object id. -/
theorem Plan.group_keeps_iff (hcanonical : ∀ document ∈ pipeline, document.Canonical)
    (hplan : Plan.ofPipeline c pipeline = .ok plan)
    (hspec : (specifications "$group" pipeline).getLast? = some spec) :
    ∃ key group, ∃ aliases : List String,
      spec.get? groupKeyField = some key ∧ plan.group = some group ∧
      plan.output = Sql.join ", " group.columns ∧ group.columns.map alias? = aliases.map some ∧
      (aliases.Nodup ↔ IsSingle spec ∧ Avoids spec (keyLabels key)) ∧
      ∀ (schema : Schema) (row : Row) (values : List Json), values.length = aliases.length →
        row.toRecord = .ok (Dict.ofList (aliases.zip values)) →
        ∃ answer, Objects.shapeRow schema plan row = .ok answer ∧
          (Keeps plan.labels (aliases.zip values) answer ↔
            IsSingle spec ∧ Avoids spec (objectIdField :: keyLabels key)) := by
  have hread := group_ofPipeline hplan
  rw [hspec, Option.map_some] at hread
  obtain ⟨group, hgroup, hof⟩ := Option.map_eq_some_iff.mp hread.symm
  obtain ⟨key, hkey, hlabels, haliases⟩ := groupOf_eq_ok hof.symm
  have hdistinct := nodup_labels_iff
    (canonical_of_mem_specifications hcanonical (List.mem_of_getLast? hspec)) hkey
  have houtput : plan.output = Sql.join ", " group.columns := by rw [Plan.output, hgroup]
  refine ⟨key, group, _, hkey, hgroup, houtput, haliases, hdistinct, ?_⟩
  intro schema row values hlength hrow
  refine ⟨_, shapeRow_eq schema hgroup hrow, ?_⟩
  have hplanLabels : plan.labels = partLabels? key := by
    rw [Plan.labels, hgroup, Option.bind_some, hlabels]
  have hnames := List.map_fst_zip (Nat.le_of_eq hlength.symm)
  rw [hplanLabels, keeps_shaped_iff hnames, hdistinct, avoids_iff, avoids_iff,
    List.forall_mem_cons, and_assoc, and_comm (a := _ ∉ _)]

/-- A class of orders. -/
def orderSchema : Schema :=
  { className := "Order", fields := [("status", .string), ("total", .number)] }

/-- A pipeline that groups orders by their status, with some accumulators. -/
def byStatus (accumulators : Object) : List Json :=
  [.obj [("$group", .obj ((groupKeyField, .obj [("status", .str "$status")]) :: accumulators))]]

/-- A row of an answer to a pipeline. -/
def recordRow (record : Object) : Row := [(Row.recordColumn, .json (some (.obj record)))]

/-- The revenue of a group of orders comes back next to their status. -/
theorem revenue_kept :
    let pipeline := byStatus [("revenue", .obj [("$sum", .str "$total")])]
    let row := recordRow [("revenue", .int 12), ("status", .str "open")]
    (∀ document ∈ pipeline, document.Canonical) ∧
      ∃ plan answer, Plan.ofPipeline (.ofSchema orderSchema false ⟨0, 0⟩) pipeline = .ok plan ∧
        Objects.shapeRow orderSchema plan row = .ok answer ∧
        Keeps plan.labels [("status", .str "open"), ("revenue", .int 12)] answer := by
  intro pipeline row
  have hcanonical : ∀ document ∈ pipeline, document.Canonical := fun document hdocument =>
    Json.canonical_of_isCanonical (by rw [List.mem_singleton.mp hdocument]; decide)
  obtain ⟨plan, found, hplan, hfound, hnames⟩ : ∃ plan found,
      Plan.ofPipeline (.ofSchema orderSchema false ⟨0, 0⟩) pipeline = .ok plan ∧
      plan.group = some found ∧ found.columns.map alias? = [some "status", some "revenue"] :=
    ⟨_, _, rfl, rfl, rfl⟩
  obtain ⟨key, group, aliases, hkey, hgroup, -, haliases, -, hkeeps⟩ :=
    plan.group_keeps_iff hcanonical hplan rfl
  obtain rfl := Option.some.inj (hfound.symm.trans hgroup)
  obtain rfl : aliases = ["status", "revenue"] :=
    (List.map_inj_right fun _ _ => Option.some.inj).mp (haliases.symm.trans hnames)
  obtain rfl := Option.some.inj hkey
  obtain ⟨answer, hanswer, hiff⟩ :=
    hkeeps orderSchema row [.str "open", .int 12] rfl rfl
  refine ⟨hcanonical, plan, answer, hplan, hanswer, hiff.mpr ⟨?_, ?_⟩⟩
  · simp [IsSingle, Dict.erase, groupKeyField, operatorsOf, Json.obj?]
  · simp [Avoids, Dict.erase, groupKeyField, operatorsOf, Json.obj?, keyLabels, partLabels?,
      objectIdField]

/-- An accumulator named like a part of the key takes its place in the row and is then moved into
the key; one that is named like the object id gives way to the key. -/
theorem total_lost :
    (∃ plan group answer, Plan.ofPipeline (.ofSchema orderSchema false ⟨0, 0⟩)
        (byStatus [("status", .obj [("$max", .str "$total")])]) = .ok plan ∧
      plan.group = some group ∧ ¬ (group.columns.map alias?).Nodup ∧
      let entries := [("status", .str "open"), ("status", .int 12)]
      Objects.shapeRow orderSchema plan (recordRow (Dict.ofList entries)) = .ok answer ∧
        answer = [("objectId", .obj [("status", .int 12)])] ∧ ¬ Keeps plan.labels entries answer) ∧
    ∃ plan group answer, Plan.ofPipeline (.ofSchema orderSchema false ⟨0, 0⟩)
        (byStatus [("objectId", .obj [("$max", .str "$total")])]) = .ok plan ∧
      plan.group = some group ∧ (group.columns.map alias?).Nodup ∧
      let entries := [("status", .str "open"), ("objectId", .int 12)]
      Objects.shapeRow orderSchema plan (recordRow (Dict.ofList entries)) = .ok answer ∧
        answer = [("objectId", .obj [("status", .str "open")])] ∧
        ¬ Keeps plan.labels entries answer := by
  -- in both answers nothing is left at top level, where the total belongs
  constructor
  · refine ⟨_, _, _, rfl, rfl, by decide, rfl, rfl, ?_⟩
    intro h
    exact nomatch h.others.length_eq
  · refine ⟨_, _, _, rfl, rfl, by decide, rfl, rfl, ?_⟩
    intro h
    exact nomatch h.others.length_eq

end Aggregate

end ObjectStore
