import ObjectStore.Access.Protected
import ObjectStore.Proofs.Relation.Narrowing
import ObjectStore.Proofs.Request.Roles

/-!
# Privilege uncovers fields

The fields that are kept from a caller are those in all lists that apply to it
(`mem_commonFields_applicable_iff`), so whoever more lists apply to has fewer fields kept from it,
as long as at least one list applies to the lesser caller. What lifts the protection altogether is
more of the same: a query for an own object, or a user that asks for everything, lifts it for every
caller above (`Outranks`).
-/

namespace ObjectStore

/-- The roles of a caller are written as groups, as `Caller.ofUser` does. -/
def Caller.HoldsRoles (caller : Caller) : Prop :=
  ∀ role ∈ caller.roles, Text.startsWith role roleMark = true

/-- A user made from names of roles holds them as groups. -/
theorem Caller.holdsRoles_ofUser (id : String) (roles : List String) :
    (ofUser id roles).HoldsRoles := by
  intro role hrole
  obtain ⟨name, _, rfl⟩ := List.mem_map.mp hrole
  exact startsWith_roleGroup name

theorem Caller.holdsRoles_anonymous : anonymous.HoldsRoles := List.forall_mem_nil _

namespace Access

variable {lists : Dict (List String)} {caller lesser : Caller} {permissions : Option Permissions}
  {query : Object} {fields : List String} {field key id : String} {roles wider : List String}

/-! ## The lists that apply -/

/-- The list under a key applies to a caller: that of everyone, and to a user those of all users, of
the roles that it holds, and its own. -/
def AppliesTo (caller : Caller) (key : String) : Prop :=
  key = publicGroup ∨ ∃ id, caller.userId? = some id ∧
    (key = authenticatedKey ∨ key ∈ caller.roles ∨ key = id)

/-- A field is kept from a caller: some list applies to it, and every list that does has the
field. -/
def IsKept (lists : Dict (List String)) (caller : Caller) (field : String) : Prop :=
  (∃ entry ∈ lists, AppliesTo caller entry.1) ∧
    ∀ entry ∈ lists, AppliesTo caller entry.1 → field ∈ entry.2

/-- The key of a role is not one that depends on a field of the object. -/
theorem not_userField_of_role (h : Text.startsWith key roleMark = true) :
    Text.startsWith key userFieldMark = false := by
  obtain ⟨rest, hrest⟩ := List.isPrefixOf_iff_prefix.mp h
  rw [Text.startsWith, ← hrest]
  rfl

/-- Apart from the list of one user, the lists that apply are those that apply by what the caller
is. -/
theorem appliesByKind_iff (h : caller.HoldsRoles) : appliesByKind caller key = true ↔
    key = publicGroup
      ∨ (caller.userId?.isSome ∧ (key = authenticatedKey ∨ key ∈ caller.roles)) := by
  have hkind : ∀ {key}, key = publicGroup ∨ key = authenticatedKey ∨ key ∈ caller.roles →
      Text.startsWith key userFieldMark = false := by
    rintro key (rfl | rfl | hrole)
    · rfl
    · rfl
    · exact not_userField_of_role (h key hrole)
  unfold appliesByKind
  cases hfield : Text.startsWith key userFieldMark with
  | true =>
    simp only [if_true, Bool.false_eq_true, false_iff]
    rintro (hpublic | ⟨_, hkey⟩)
    · exact absurd hfield (by simp [hkind (.inl hpublic)])
    · exact absurd hfield (by simp [hkind (.inr hkey)])
  | false =>
    have hrole : key ∈ caller.roles → Text.startsWith key roleMark = true := h key
    by_cases hpublic : key = publicGroup <;> simp [hpublic]
    intro _
    exact or_congr_right ⟨And.right, fun hmem => ⟨hrole hmem, hmem⟩⟩

/-- The lists that are taken are those that apply, the caller's own included, which is looked up
under its id and not by what the caller is. -/
theorem mem_applicable_iff (hs : lists.Sorted) (hroles : caller.HoldsRoles) :
    fields ∈ applicable lists caller ↔ ∃ entry ∈ lists, AppliesTo caller entry.1 ∧
      entry.2 = fields := by
  have hown : fields ∈ (caller.userId?.bind lists.get?).toList ↔
      ∃ id, caller.userId? = some id ∧ (id, fields) ∈ lists := by
    simp [Option.mem_toList, Option.bind_eq_some_iff, hs.get?_eq_some_iff]
  simp only [applicable, List.mem_append, List.mem_map, List.mem_filter, hown,
    appliesByKind_iff hroles, Option.isSome_iff_exists]
  constructor
  · rintro (⟨entry, ⟨hmem, hkind⟩, rfl⟩ | ⟨id, hid, hmem⟩)
    · refine ⟨entry, hmem, hkind.imp_right fun ⟨⟨id, hid⟩, hkey⟩ => ⟨id, hid, ?_⟩, rfl⟩
      exact hkey.imp_right .inl
    · exact ⟨(id, fields), hmem, .inr ⟨id, hid, .inr (.inr rfl)⟩, rfl⟩
  · rintro ⟨entry, hmem, hpublic | ⟨id, hid, hkey | hkey | hkey⟩, rfl⟩
    · exact .inl ⟨entry, ⟨hmem, .inl hpublic⟩, rfl⟩
    · exact .inl ⟨entry, ⟨hmem, .inr ⟨⟨id, hid⟩, .inl hkey⟩⟩, rfl⟩
    · exact .inl ⟨entry, ⟨hmem, .inr ⟨⟨id, hid⟩, .inr hkey⟩⟩, rfl⟩
    · exact .inr ⟨id, hid, hkey ▸ hmem⟩

/-! ## The fields in all of them -/

/-- A field is common to some lists if there is one and all have it. -/
theorem mem_commonFields_iff {lists : List (List String)} :
    field ∈ commonFields lists ↔ lists ≠ [] ∧ ∀ list ∈ lists, field ∈ list := by
  simp only [commonFields, List.mem_filter, List.mem_eraseDups, List.mem_flatten, List.all_eq_true,
    List.contains_iff_mem]
  refine and_congr_left fun hall => ⟨fun ⟨_, hmem, _⟩ => List.ne_nil_of_mem hmem, ?_⟩
  intro hne
  obtain ⟨list, hlist⟩ := List.exists_mem_of_ne_nil _ hne
  exact ⟨list, hlist, hall list hlist⟩

/-- No common field is told twice. -/
theorem nodup_commonFields (lists : List (List String)) : (commonFields lists).Nodup :=
  (ObjectIds.nodup_eraseDups _).filter _

/-- The fields that occur in all lists that apply are those that are kept. -/
theorem mem_commonFields_applicable_iff (hs : lists.Sorted) (hroles : caller.HoldsRoles) :
    field ∈ commonFields (applicable lists caller) ↔ IsKept lists caller field := by
  have hmem (fields : List String) : fields ∈ applicable lists caller ↔
      ∃ entry ∈ lists, AppliesTo caller entry.1 ∧ entry.2 = fields := mem_applicable_iff hs hroles
  rw [mem_commonFields_iff]
  refine and_congr ⟨?_, ?_⟩ ⟨?_, ?_⟩
  · intro hne
    obtain ⟨list, hlist⟩ := List.exists_mem_of_ne_nil _ hne
    obtain ⟨entry, hentry, happlies, _⟩ := (hmem list).mp hlist
    exact ⟨entry, hentry, happlies⟩
  · rintro ⟨entry, hentry, happlies⟩
    exact List.ne_nil_of_mem ((hmem entry.2).mpr ⟨entry, hentry, happlies, rfl⟩)
  · intro hall entry hentry happlies
    exact hall _ ((hmem entry.2).mpr ⟨entry, hentry, happlies, rfl⟩)
  · intro hall list hlist
    obtain ⟨entry, hentry, happlies, rfl⟩ := (hmem list).mp hlist
    exact hall entry hentry happlies

/-! ## Redaction -/

/-- The protected fields of a permission table, if there is one. -/
def protectedLists (permissions : Option Permissions) : Dict (List String) :=
  (permissions.map Permissions.protectedFields).getD []

/-- The protection of fields is lifted for a caller: it asks for its own object, or is a user and
asks for everything. -/
def IsLifted (query : Object) (caller : Caller) : Prop :=
  asksForSelf query caller = true ∨ (caller.userId?.isSome ∧ query = [])

/-- Redaction applies if the table protects something and the protection is not lifted. -/
theorem protectedFields?_eq_some_iff : protectedFields? permissions query caller = some fields ↔
    protectedLists permissions ≠ [] ∧ ¬ IsLifted query caller ∧
      commonFields (applicable (protectedLists permissions) caller) = fields := by
  have hnone : ((protectedLists permissions).isEmpty || asksForSelf query caller
      || (caller.userId?.isSome && query.isEmpty)) = true ↔
        protectedLists permissions = [] ∨ IsLifted query caller := by
    simp [IsLifted, or_assoc]
  unfold protectedFields?
  change (if ((protectedLists permissions).isEmpty || _ || _) = true then _ else _) = _ ↔ _
  split
  next h =>
    refine iff_of_false nofun ?_
    rintro ⟨hne, hlifted, _⟩
    exact (hnone.mp h).elim hne hlifted
  next h =>
    obtain ⟨hne, hlifted⟩ := not_or.mp (mt hnone.mpr h)
    constructor
    · intro heq
      exact ⟨hne, hlifted, Option.some.inj heq⟩
    · rintro ⟨_, _, heq⟩
      exact congrArg some heq

/-- The fields that are kept from a caller, which are none if no list is to be applied. -/
def hidden (permissions : Option Permissions) (query : Object) (caller : Caller) : List String :=
  (protectedFields? permissions query caller).getD []

/-- A field is hidden if the protection is not lifted and the field is kept. Without a list that
applies both sides are false. -/
theorem mem_hidden_iff (hs : (protectedLists permissions).Sorted) (hroles : caller.HoldsRoles) :
    field ∈ hidden permissions query caller ↔
      ¬ IsLifted query caller ∧ IsKept (protectedLists permissions) caller field := by
  have hsome : field ∈ hidden permissions query caller ↔
      ∃ fields, protectedFields? permissions query caller = some fields ∧ field ∈ fields := by
    unfold hidden
    cases protectedFields? permissions query caller <;> simp
  simp only [hsome, protectedFields?_eq_some_iff]
  constructor
  · rintro ⟨_, ⟨_, hlifted, rfl⟩, hmem⟩
    exact ⟨hlifted, (mem_commonFields_applicable_iff hs hroles).mp hmem⟩
  · rintro ⟨hlifted, hkept⟩
    obtain ⟨entry, hentry, _⟩ := hkept.1
    exact ⟨_, ⟨List.ne_nil_of_mem hentry, hlifted, rfl⟩,
      (mem_commonFields_applicable_iff hs hroles).mpr hkept⟩

/-! ## Callers above others -/

/-- A caller stands above another one: it has the groups of the other, is a user if the other is,
and all lists apply to it that apply to the other. -/
structure Outranks (caller lesser : Caller) : Prop where
  groups : ∀ group ∈ lesser.groups?.getD [], group ∈ caller.groups?.getD []
  known : lesser.userId?.isSome → caller.userId?.isSome
  lists : ∀ key, AppliesTo lesser key → AppliesTo caller key

/-- A user with more roles stands above the same user with fewer. -/
theorem outranks_ofUser (h : roles ⊆ wider) : Outranks (.ofUser id wider) (.ofUser id roles) where
  groups := Caller.groupsOf_subset h
  known := fun _ => rfl
  lists := by
    rintro key (hpublic | ⟨_, hid, hkey | hkey | hkey⟩)
    · exact .inl hpublic
    · exact .inr ⟨_, rfl, .inl hkey⟩
    · exact .inr ⟨_, rfl, .inr (.inl (List.map_subset _ h hkey))⟩
    · obtain rfl := Option.some.inj hid
      exact .inr ⟨_, rfl, .inr (.inr hkey)⟩

/-- Every user stands above someone unknown, who is in the public group alone. -/
theorem outranks_anonymous (id : String) (roles : List String) :
    Outranks (.ofUser id roles) .anonymous where
  groups := by
    intro group hgroup
    obtain rfl := List.mem_singleton.mp hgroup
    exact List.mem_cons_self
  known := fun h => nomatch h
  lists := by
    rintro key (hpublic | ⟨_, hnone, _⟩)
    · exact .inl hpublic
    · exact nomatch hnone

/-- What lifts the protection for a caller lifts it for those above. -/
theorem IsLifted.of_outranks (h : Outranks caller lesser) (hlifted : IsLifted query lesser) :
    IsLifted query caller := by
  refine hlifted.imp ?_ fun ⟨hknown, hempty⟩ => ⟨h.known hknown, hempty⟩
  intro hself
  unfold asksForSelf at hself ⊢
  cases hid : (query.get? objectIdField).bind Json.str? with
  | none => exact nomatch hid ▸ hself
  | some id =>
    rw [hid] at hself
    exact List.contains_iff_mem.mpr (h.groups id (List.contains_iff_mem.mp hself))

/-- If some list applies to everyone, a caller has no more fields kept from it than one below. -/
theorem hidden_subset_of_outranks (h : Outranks caller lesser) (hroles : caller.HoldsRoles)
    (hlesser : lesser.HoldsRoles) (hs : (protectedLists permissions).Sorted)
    (hpublic : (protectedLists permissions).contains publicGroup = true) (query : Object) :
    hidden permissions query caller ⊆ hidden permissions query lesser := by
  intro field hfield
  obtain ⟨hlifted, _, hall⟩ := (mem_hidden_iff hs hroles).mp hfield
  obtain ⟨list, hlist⟩ := Dict.contains_iff.mp hpublic
  -- the list for everyone is one that applies to the lesser caller
  refine (mem_hidden_iff hs hlesser).mpr ⟨fun hless => hlifted (hless.of_outranks h), ?_, ?_⟩
  · exact ⟨_, Dict.mem_of_get? hlist, .inl rfl⟩
  · exact fun entry hentry happlies => hall entry hentry (h.lists _ happlies)

/-- For every permission table, query and caller to whom redaction applies: the fields that are kept
are, each once, those that every list which applies to the caller has, and none if no list applies.
And if there is a list for everyone, a user has no more fields kept from it with more roles, and
never more than someone unknown, where no redaction keeps nothing. -/
theorem protectedFields_shrink (permissions : Option Permissions) (query : Object)
    (hs : (protectedLists permissions).Sorted) :
    (∀ caller fields, caller.HoldsRoles → protectedFields? permissions query caller = some fields →
      fields.Nodup ∧
      (∀ field, field ∈ fields ↔ IsKept (protectedLists permissions) caller field) ∧
      ((∀ entry ∈ protectedLists permissions, ¬ AppliesTo caller entry.1) → fields = [])) ∧
    ((protectedLists permissions).contains publicGroup = true → ∀ id roles wider, roles ⊆ wider →
      hidden permissions query (.ofUser id wider) ⊆ hidden permissions query (.ofUser id roles) ∧
      hidden permissions query (.ofUser id roles) ⊆ hidden permissions query .anonymous ∧
      hidden permissions query (.ofUser id wider) ⊆ hidden permissions query .anonymous) := by
  constructor
  · intro caller fields hroles h
    obtain ⟨_, _, rfl⟩ := protectedFields?_eq_some_iff.mp h
    have hmem (field : String) :
        field ∈ commonFields (applicable (protectedLists permissions) caller) ↔
          IsKept (protectedLists permissions) caller field :=
      mem_commonFields_applicable_iff hs hroles
    refine ⟨nodup_commonFields _, hmem, ?_⟩
    intro hnone
    refine List.eq_nil_iff_forall_not_mem.mpr ?_
    intro field hfield
    obtain ⟨⟨entry, hentry, happlies⟩, _⟩ := (hmem field).mp hfield
    exact hnone entry hentry happlies
  · intro hpublic id roles wider hsubset
    have hroles := Caller.holdsRoles_ofUser id roles
    have hwider := Caller.holdsRoles_ofUser id wider
    have hmore := hidden_subset_of_outranks (outranks_ofUser hsubset) hwider hroles hs
      hpublic query
    have hknown := hidden_subset_of_outranks (outranks_anonymous id roles) hroles
      Caller.holdsRoles_anonymous hs hpublic query
    exact ⟨hmore, hknown, List.Subset.trans hmore hknown⟩

/-- A table that keeps two fields from everyone, and one of them from staff. -/
def staffTable : Permissions :=
  { protectedFields := [(publicGroup, ["email", "phone"]), ("role:staff", ["phone"])] }

/-- Staff sees the field that only everyone else has kept. -/
theorem staff_sees_more :
    let query : Object := [("name", .str "x")]
    (protectedLists (some staffTable)).Sorted ∧
    protectedFields? (some staffTable) query (.ofUser "u" ["staff"]) = some ["phone"] ∧
    protectedFields? (some staffTable) query .anonymous = some ["email", "phone"] ∧
    (∀ field, field ∈ ["phone"] ↔
      IsKept (protectedLists (some staffTable)) (.ofUser "u" ["staff"]) field) ∧
    hidden (some staffTable) query (.ofUser "u" ["staff"])
      ⊆ hidden (some staffTable) query (.ofUser "u" []) := by
  intro query
  have hs : (protectedLists (some staffTable)).Sorted := by
    change List.Pairwise (· < ·) ["*", "role:staff"]
    decide +kernel
  have hstaff : protectedFields? (some staffTable) query (.ofUser "u" ["staff"]) = some ["phone"] :=
    by decide +kernel
  obtain ⟨hfields, hshrink⟩ := protectedFields_shrink (some staffTable) query hs
  refine ⟨hs, hstaff, by decide +kernel, ?_, ?_⟩
  · exact (hfields _ _ (Caller.holdsRoles_ofUser _ _) hstaff).2.1
  · exact (hshrink (by decide +kernel) "u" [] ["staff"] (List.nil_subset _)).1

end Access

end ObjectStore
