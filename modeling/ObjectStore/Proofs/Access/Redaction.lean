import ObjectStore.Access.Acl
import ObjectStore.Access.Protected
import ObjectStore.Proofs.Dict
import ObjectStore.Proofs.Engine.Agreement
import ObjectStore.Value.Decode

/-!
# What redaction leaves of a record

Redaction drops the fields of a list. Everything that happens to a record between the engine and a
caller either commutes with it, or depends on dropped fields only: decoding (`decodeCells_redact`),
the stubs of relations (`redact_merge`) and the wire form (`redact_toWire`), as long as the `ACL` is
not made of dropped columns. So records that differ in dropped fields only leave the same
(`agree_decodeRow`, `redact_toWire_congr`).
-/

namespace ObjectStore

namespace Access

variable {object other : Object} {fields : List String} {key : String} {value : Json}

/-! ## Redaction and the operations on objects -/

/-- Dropping fields one after another leaves the members with other names. -/
theorem redact_eq_filter (object : Object) (fields : List String) :
    redact object fields = object.filter fun entry => decide (entry.1 ∉ fields) := by
  unfold redact
  induction fields generalizing object with
  | nil => simp
  | cons field rest ih =>
    rw [List.foldl_cons, ih, Dict.erase, List.filter_filter]
    refine List.filter_congr ?_
    intro entry _
    by_cases h : entry.1 = field <;> simp [h]

/-- A first member with a dropped name leaves nothing. -/
theorem redact_cons_of_mem {entry : String × Json} (h : entry.1 ∈ fields) (rest : Object) :
    redact (entry :: rest) fields = redact rest fields := by
  rw [redact_eq_filter, redact_eq_filter, List.filter_cons_of_neg (by simpa using h)]

/-- A first member with another name stays the first one. -/
theorem redact_cons_of_notMem {entry : String × Json} (h : entry.1 ∉ fields) (rest : Object) :
    redact (entry :: rest) fields = entry :: redact rest fields := by
  rw [redact_eq_filter, redact_eq_filter, List.filter_cons_of_pos (by simpa using h)]

/-- What stands under a field that is not dropped stays there. -/
theorem get?_redact_of_notMem (h : key ∉ fields) :
    (redact object fields).get? key = object.get? key := by
  unfold redact
  induction fields generalizing object with
  | nil => rfl
  | cons field rest ih =>
    obtain ⟨hfield, hrest⟩ := List.ne_and_not_mem_of_not_mem_cons h
    rw [List.foldl_cons, ih hrest, Dict.get?_erase_of_ne hfield]

/-- Nothing stands under a dropped field. -/
theorem get?_redact_of_mem (h : key ∈ fields) : (redact object fields).get? key = none := by
  refine Option.eq_none_iff_forall_ne_some.mpr ?_
  intro value hvalue
  have hmem := Dict.mem_of_get? hvalue
  rw [redact_eq_filter, List.mem_filter] at hmem
  simp [h] at hmem

/-- Redaction keeps the order of the members. -/
theorem sorted_redact (h : object.Sorted) : (redact object fields).Sorted := by
  rw [redact_eq_filter]
  exact List.Pairwise.sublist (List.filter_sublist.map _) h

/-- Redaction and removing a key may change places. -/
theorem redact_erase (object : Object) (key : String) (fields : List String) :
    redact (object.erase key) fields = (redact object fields).erase key := by
  rw [redact_eq_filter, redact_eq_filter, Dict.erase, Dict.erase, List.filter_filter,
    List.filter_filter]
  exact List.filter_congr fun entry _ => Bool.and_comm _ _

/-- Dropping more fields forgets that some were dropped before. -/
theorem redact_redact_of_subset {more : List String} (h : fields ⊆ more) :
    redact (redact object fields) more = redact object more := by
  rw [redact_eq_filter, redact_eq_filter, redact_eq_filter, List.filter_filter]
  refine List.filter_congr ?_
  intro entry _
  by_cases hentry : entry.1 ∈ fields
  · simp [hentry, h hentry]
  · simp [hentry]

/-- What is stored under a dropped field leaves nothing. -/
theorem redact_insert_of_mem (h : key ∈ fields) (object : Object) (value : Json) :
    redact (object.insert key value) fields = redact object fields := by
  induction object with
  | nil => exact redact_cons_of_mem h []
  | cons head rest ih =>
    obtain ⟨k, v⟩ := head
    -- the member is stored where the key stands, before a greater key, or further behind
    unfold Dict.insert
    split
    next hk => rw [redact_cons_of_mem h, redact_cons_of_mem (hk ▸ h)]
    next =>
      split
      · rw [redact_cons_of_mem h]
      · by_cases hmem : k ∈ fields
        · rw [redact_cons_of_mem hmem, redact_cons_of_mem hmem, ih]
        · rw [redact_cons_of_notMem hmem, redact_cons_of_notMem hmem, ih]

/-- Redaction and storing under another field may change places. -/
theorem redact_insert_of_notMem (hs : object.Sorted) (h : key ∉ fields) (value : Json) :
    redact (object.insert key value) fields = (redact object fields).insert key value := by
  -- both sides are in key order, so it is enough that every name leads to the same
  refine (sorted_redact (hs.insert key value)).ext ((sorted_redact hs).insert key value) ?_
  intro name
  by_cases hname : name ∈ fields
  · have hne : name ≠ key := fun heq => h (heq ▸ hname)
    rw [get?_redact_of_mem hname, Dict.get?_insert_of_ne _ _ hne, get?_redact_of_mem hname]
  · rw [get?_redact_of_notMem hname]
    by_cases hkey : name = key
    · rw [hkey, Dict.get?_insert_self, Dict.get?_insert_self]
    · rw [Dict.get?_insert_of_ne _ _ hkey, Dict.get?_insert_of_ne _ _ hkey,
        get?_redact_of_notMem hname]

/-- Redaction of a merge is the merge of what redaction leaves. -/
theorem redact_merge (hs : object.Sorted) (other : Object) :
    redact (object.merge other) fields = (redact object fields).merge (redact other fields) := by
  induction other generalizing object with
  | nil => rw [redact_eq_filter [], List.filter_nil]; rfl
  | cons head rest ih =>
    have hstep : object.merge (head :: rest) = (object.insert head.1 head.2).merge rest := rfl
    rw [hstep, ih (hs.insert _ _)]
    by_cases hmem : head.1 ∈ fields
    · rw [redact_insert_of_mem hmem, redact_cons_of_mem hmem]
    · rw [redact_insert_of_notMem hs hmem, redact_cons_of_notMem hmem]
      rfl

/-! ## The wire form -/

/-- The `ACL` that callers see is dropped, or else the columns that it is made of are not. -/
def ConcealsAcl (fields : List String) : Prop :=
  aclField ∈ fields ∨ (readColumn ∉ fields ∧ writeColumn ∉ fields)

/-- Where the `ACL` is dropped, so are the columns that it was made of. -/
theorem redact_toWire_of_mem (h : aclField ∈ fields) (object : Object) :
    redact (toWire object) fields
      = ((redact object fields).erase readColumn).erase writeColumn := by
  rw [← redact_erase, ← redact_erase]
  -- the wire form has no `ACL` only where there are no columns to make it of
  dsimp only [toWire]
  split
  next hnone =>
    simp only [Bool.and_eq_true, Option.isNone_iff_eq_none] at hnone
    have hwrite : (object.erase readColumn).get? writeColumn = none :=
      (Dict.get?_erase_of_ne (by decide)).trans hnone.2
    rw [Dict.erase_of_get?_eq_none hwrite, Dict.erase_of_get?_eq_none hnone.1]
  next => exact redact_insert_of_mem h _ _

/-- Where neither the `ACL` nor its columns are dropped, redaction and the wire form may change
places. -/
theorem redact_toWire_of_notMem (hs : object.Sorted) (hacl : aclField ∉ fields)
    (hread : readColumn ∉ fields) (hwrite : writeColumn ∉ fields) :
    redact (toWire object) fields = toWire (redact object fields) := by
  dsimp only [toWire]
  rw [get?_redact_of_notMem hread, get?_redact_of_notMem hwrite]
  split
  · rfl
  · rw [redact_insert_of_notMem ((hs.erase _).erase _) hacl, redact_erase, redact_erase]

/-- Objects that leave the same also leave the same in their wire form. -/
theorem redact_toWire_congr (hconceals : ConcealsAcl fields) (hs : object.Sorted)
    (hs' : other.Sorted) (h : redact object fields = redact other fields) :
    redact (toWire object) fields = redact (toWire other) fields := by
  -- either the `ACL` is dropped on both sides, or it is made of what is the same on both
  by_cases hacl : aclField ∈ fields
  · rw [redact_toWire_of_mem hacl, redact_toWire_of_mem hacl, h]
  · obtain ⟨hread, hwrite⟩ := hconceals.resolve_left hacl
    rw [redact_toWire_of_notMem hs hacl hread hwrite,
      redact_toWire_of_notMem hs' hacl hread hwrite, h]

end Access

/-! ## Decoding -/

namespace Schema

open Access Result

variable {s : Schema} {record record' : Object} {fields : List String}
  {cells : List (String × Json)}

/-- What a record holds in a field can be decoded. -/
def Decodes (s : Schema) (record : Object) (name : String) : Prop :=
  ∀ stored, record.get? name = some stored → ∃ value, s.decodeCell name stored = .ok value

/-- Two records differ in some fields only, and there in what can be decoded. -/
structure AlikeOutside (s : Schema) (fields : List String) (record record' : Object) : Prop where
  sorted : record.Sorted
  sorted' : record'.Sorted
  alike : ∀ name, record.get? name = record'.get? name ∨
    (name ∈ fields ∧ s.Decodes record name ∧ s.Decodes record' name)

/-- Decoding adds no fields. -/
theorem sublist_decodeCells (h : s.decodeCells record = .ok cells) :
    (cells.map Prod.fst).Sublist (record.map Prod.fst) := by
  induction record generalizing cells with
  | nil =>
    obtain rfl := Except.ok.inj h
    exact .slnil
  | cons head rest ih =>
    obtain ⟨value, _, h⟩ := bind_eq_ok.mp h
    obtain ⟨others, hothers, h⟩ := bind_eq_ok.mp h
    obtain rfl := pure_eq_ok.mp h
    cases value with
    | none => exact (ih hothers).cons _
    | some value => exact (ih hothers).cons_cons _

/-- A record is decoded field by field. -/
theorem decodeCells_cons (name : String) (stored : Json) (rest : Object) :
    s.decodeCells ((name, stored) :: rest) = (do
      let value ← s.decodeCell name stored
      let others ← s.decodeCells rest
      pure ((value.map (Prod.mk name)).toList ++ others)) := by
  rw [decodeCells]
  refine bind_congr fun value => bind_congr ?_
  intro others
  cases value <;> rfl

/-- What decodes without failure decodes alike whether it is dropped before or after. -/
theorem decodeCells_redact (hs : record.Sorted) (h : ∀ name ∈ fields, s.Decodes record name) :
    s.decodeCells (redact record fields)
      = (s.decodeCells record).map fun cells => redact cells fields := by
  induction record with
  | nil => rw [redact_eq_filter]; exact congrArg Except.ok (redact_eq_filter [] fields).symm
  | cons head rest ih =>
    obtain ⟨name, stored⟩ := head
    obtain ⟨hlt, hrest⟩ := Dict.sorted_cons.mp hs
    have hdecodes : ∀ other ∈ fields, s.Decodes rest other := by
      intro other hother value hvalue
      -- a later entry is also what the whole record holds, as keys occur once
      refine h other hother value ((hs.get?_eq_some_iff).mpr ?_)
      exact List.mem_cons_of_mem _ (Dict.mem_of_get? hvalue)
    rw [decodeCells_cons]
    -- a field that is dropped is decoded to no avail, and without failure by assumption
    by_cases hmem : name ∈ fields
    · obtain ⟨value, hvalue⟩ := h name hmem stored (by simp [Dict.get?])
      rw [redact_cons_of_mem hmem, ih hrest hdecodes, hvalue]
      cases s.decodeCells rest with
      | error e => rfl
      | ok others =>
        cases value with
        | none => rfl
        | some value => exact congrArg Except.ok (redact_cons_of_mem hmem others).symm
    · rw [redact_cons_of_notMem hmem, decodeCells_cons, ih hrest hdecodes]
      cases s.decodeCell name stored with
      | error e => rfl
      | ok value =>
        cases s.decodeCells rest with
        | error e => rfl
        | ok others =>
          cases value with
          | none => rfl
          | some value => exact congrArg Except.ok (redact_cons_of_notMem hmem others).symm

/-- Records that are alike outside of some fields are decoded to objects of which redaction leaves
the same. -/
theorem agree_decodeRow (h : s.AlikeOutside fields record record') :
    Agree (fun object object' => object.Sorted ∧ object'.Sorted ∧
      redact object fields = redact object' fields) (s.decodeRow record) (s.decodeRow record') := by
  classical
  -- the fields in which the records do differ; what is dropped outside of them is the same anyway
  let differing := fields.filter fun name => record.get? name ≠ record'.get? name
  have hsubset : differing ⊆ fields := List.filter_subset_self _
  have hdecodes : ∀ name ∈ differing, s.Decodes record name ∧ s.Decodes record' name := by
    intro name hname
    have hne := of_decide_eq_true (List.mem_filter.mp hname).2
    exact ((h.alike name).resolve_left hne).2
  have hsame : redact record differing = redact record' differing := by
    refine (sorted_redact h.sorted).ext (sorted_redact h.sorted') ?_
    intro name
    by_cases hname : name ∈ differing
    · rw [get?_redact_of_mem hname, get?_redact_of_mem hname]
    · rw [get?_redact_of_notMem hname, get?_redact_of_notMem hname]
      refine Decidable.byContradiction fun hne => hname ?_
      obtain ⟨hmem, _⟩ := (h.alike name).resolve_left hne
      exact List.mem_filter.mpr ⟨hmem, decide_eq_true hne⟩
  have hcells : (s.decodeCells record).map (fun cells => redact cells differing)
      = (s.decodeCells record').map fun cells => redact cells differing := by
    rw [← decodeCells_redact h.sorted fun name hname => (hdecodes name hname).1,
      ← decodeCells_redact h.sorted' fun name hname => (hdecodes name hname).2, hsame]
  -- both records are decoded or fail alike, as they do without the differing fields
  unfold decodeRow
  cases hc : s.decodeCells record with
  | error e =>
    cases hc' : s.decodeCells record' with
    | error e' =>
      rw [hc, hc'] at hcells
      obtain rfl := Except.error.inj hcells
      exact .error e
    | ok cells' =>
      rw [hc, hc'] at hcells
      cases hcells
  | ok cells =>
    cases hc' : s.decodeCells record' with
    | error e' =>
      rw [hc, hc'] at hcells
      cases hcells
    | ok cells' =>
      rw [hc, hc'] at hcells
      have hredact : redact cells differing = redact cells' differing := Except.ok.inj hcells
      have hsorted : Dict.Sorted cells := List.Pairwise.sublist (sublist_decodeCells hc) h.sorted
      have hsorted' : Dict.Sorted cells' :=
        List.Pairwise.sublist (sublist_decodeCells hc') h.sorted'
      refine .ok ⟨hsorted.merge, hsorted'.merge, ?_⟩
      rw [redact_merge hsorted, redact_merge hsorted', ← redact_redact_of_subset hsubset, hredact,
        redact_redact_of_subset hsubset]

end Schema

end ObjectStore
