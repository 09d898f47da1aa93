import ObjectStore.Proofs.Access.Widening

/-!
# Permissions by pointer are a conjunction

Where only pointer fields grant an operation, a query is restricted to alternatives, one for each
field, and each of them says the same as the query and the constraint of its field
(`entrywise_alternative_iff`). Redundant alternatives are dropped from the disjunction, which loses
no row: if an alternative is a part of another one, it asks for a constraint that the other one asks
for too (`of_isPartOf_alternative`).

So the restricted query selects the rows of the query on which one of the fields points at the user,
and no others (`pointersGrant_of_compiles`). That holds also if the query asks something of these
fields itself, and if a field is listed twice.
-/

namespace ObjectStore.Access

open Result Query

variable {P : Object → Prop} {PEntry : String × Json → Prop} {c : Compiler} {v : Valuation}
  {s : Schema} {op : Operation} {groups : List String} {query : Object} {alternatives : List Object}
  {field user : String} {constraint : Json}

/-! ## Parts of alternatives -/

/-- A branch that is left of an `$and` holds, if the `$and` is a part of what holds. -/
theorem of_isPartOf_aloneWith (hP : Entrywise P PEntry) {fields wide : Object} {left : List Object}
    (hf : fields ∈ left) (hfields : fields.Canonical) (hexact : (Json.obj fields).isExact = true)
    (hpart : isPartOf (.obj (aloneWith "$and" left)) (.obj wide) = true)
    (h : ∀ entry ∈ wide, PEntry entry) : P fields := by
  match left with
  | [only] =>
    obtain rfl := List.mem_singleton.mp hf
    refine (hP.entries hfields).mpr fun entry he => h entry ?_
    exact mem_of_isPartOf hpart he (Or.inl (Json.isExact_obj.mp hexact entry he))
  | first :: second :: rest =>
    have hbeq := isPartOf_iff.mp hpart _ List.mem_cons_self
    cases hget : Dict.get? wide "$and" with
    | none => simp [hget] at hbeq
    | some value =>
      -- the `$and` of the other query has the same branches, and all of them hold
      obtain ⟨branches, rfl, hbranches⟩ := hP.and.mp (h _ (Dict.mem_of_get? hget))
      simp only [hget, Option.some_beq_some] at hbeq
      obtain ⟨_, heq, hP⟩ := hbranches _
        (Json.mem_of_beqItems hbeq (List.mem_map_of_mem hf) hexact)
      exact Json.obj.inj heq ▸ hP

/-- An alternative that is a part of something says no more than this and the query: the constraint
of its pointer is asked there too. -/
theorem of_isPartOf_alternative (hP : Entrywise P PEntry) (hq : query.Canonical)
    (hp : pointsTo s field user = .ok constraint) {wide : Object} (hw : wide.Canonical)
    (hpart : isPartOf (.obj (alternative query field constraint)) (.obj wide) = true)
    (hquery : P query) (h : P wide) : P (alternative query field constraint) := by
  refine (entrywise_alternative_iff hP hq hp).mpr ⟨hquery, ?_⟩
  have hentries := (hP.entries hw).mp h
  have hpointer : Object.Canonical [(field, constraint)] :=
    ⟨Dict.sorted_singleton _, List.forall_mem_singleton.mpr (canonical_pointsTo hp)⟩
  unfold alternative at hpart
  split at hpart
  next hfield =>
    obtain ⟨left, hmem, hleft, hreduced⟩ := exists_reducedPair hq.sorted field constraint
    rw [hreduced] at hpart
    -- what is left of the pair is the query, or the pointer, which is a part of what is asked
    have hsaid : ∀ fields ∈ left, ∀ entry ∈ fields, PEntry entry := by
      intro fields hf
      rcases List.mem_cons.mp (hmem fields hf) with rfl | hf'
      · exact (hP.entries hpointer).mp
          (of_isPartOf_aloneWith hP hf hpointer (isExact_pointerBranch hp) hpart hentries)
      · exact List.mem_singleton.mp hf' ▸ (hP.entries hq).mp hquery
    exact (forall_of_reducedPair (isExact_pointerBranch hp) hleft hsaid).1 _ List.mem_cons_self
  next =>
    exact hentries _ (mem_of_isPartOf hpart (Dict.mem_insert_self ..)
      (Or.inl (isExact_pointsTo hp)))

/-! ## One alternative -/

/-- An alternative admits what the query admits where the field points at the user. -/
theorem admits_alternative_iff (hq : query.Canonical)
    (hp : pointsTo s field user = .ok constraint) :
    c.Admits v (alternative query field constraint)
      ↔ c.Admits v query ∧ PointsAt c v s field user := by
  rw [entrywise_alternative_iff (Compiler.entrywise_admits c v) hq hp, pointsAt_iff hp]

/-- An alternative of a query that compiles does so too, and it asks something, for where no clause
is true the field does not point at the user. -/
theorem compiles_alternative (hq : query.Canonical) (hcompiles : c.Compiles query)
    (hkey : Combinator.ofKey? field = none) (hp : pointsTo s field user = .ok constraint) :
    c.Compiles (alternative query field constraint)
      ∧ c.Asks (alternative query field constraint) := by
  obtain ⟨clause, hentry⟩ := compileEntry_pointsTo c hkey hp
  have halternative : c.Compiles (alternative query field constraint) :=
    (entrywise_alternative_iff (Compiler.entrywise_compiles c) hq hp).mpr ⟨hcompiles, _, hentry⟩
  refine ⟨halternative, Compiler.asks_of_not_admits (v := fun _ => none) halternative ?_⟩
  intro h
  obtain ⟨_, _, _, _, htrue⟩ := ((admits_alternative_iff hq hp).mp h).2
  cases htrue

/-! ## All alternatives -/

/-- Alternatives, each of which compiles and asks something, of which none that is a part of another
one asks more: together they admit what one of them admits. -/
theorem admits_anyAlternative_iff (hne : alternatives ≠ [])
    (hcanonical : ∀ made ∈ alternatives, made.Canonical)
    (hasks : ∀ made ∈ alternatives, c.Asks made)
    (hpart : ∀ narrow ∈ alternatives, ∀ wide ∈ alternatives,
      isPartOf (.obj narrow) (.obj wide) = true → c.Admits v wide → c.Admits v narrow) :
    c.Admits v (anyAlternative alternatives) ↔ ∃ made ∈ alternatives, c.Admits v made := by
  refine ⟨exists_of_anyAlternative (Compiler.entrywise_admits c v) hne hcanonical, ?_⟩
  intro hsome
  obtain ⟨left, _, hmem, hdropped, hany⟩ :=
    exists_anyAlternative hne fun made hm => (hcanonical made hm).sorted
  -- dropping loses no row, so one of those that are left admits it too
  obtain ⟨kept, hkept, hadmits⟩ := exists_left_of_dropRedundant hdropped hpart hsome
  rw [hany]
  match left with
  | [only] => exact List.mem_singleton.mp hkept ▸ hadmits
  | one :: two :: others =>
    refine Compiler.admits_iff.mpr (List.forall_mem_singleton.mpr ?_)
    refine (Compiler.admitsEntry_or_iff (by simp) ?_).mpr ⟨kept, List.mem_map_of_mem hkept, hadmits⟩
    intro branch hb
    obtain ⟨fields, hf, rfl⟩ := List.mem_map.mp hb
    exact ⟨fields, rfl, hasks fields (hmem fields hf)⟩

/-- Alternatives that all compile do so together. -/
theorem compiles_anyAlternative (hne : alternatives ≠ [])
    (hcanonical : ∀ made ∈ alternatives, made.Canonical)
    (hcompiles : ∀ made ∈ alternatives, c.Compiles made) :
    c.Compiles (anyAlternative alternatives) := by
  obtain ⟨left, hleft, hmem, _, hany⟩ :=
    exists_anyAlternative hne fun made hm => (hcanonical made hm).sorted
  rw [hany]
  match left with
  | [only] => exact hcompiles only (hmem only List.mem_cons_self)
  | one :: two :: others =>
    refine Compiler.compiles_iff.mpr (List.forall_mem_singleton.mpr ?_)
    refine (Compiler.compilesEntry_combinator rfl).mpr ⟨_, rfl, ?_⟩
    intro branch hb
    obtain ⟨fields, hf, rfl⟩ := List.mem_map.mp hb
    exact ⟨fields, rfl, hcompiles fields (hmem fields hf)⟩

/-! ## The restriction -/

/-- Whether a field of a type can point at users: pointers, objects and arrays can. -/
def canPoint : Option FieldType → Bool
  | some (.pointer _) | some .object | some .array | some (.arrayOf _) => true
  | _ => false

theorem exists_pointsTo_iff (s : Schema) (field user : String) :
    (∃ constraint, pointsTo s field user = .ok constraint) ↔ canPoint (s.field? field) = true := by
  unfold pointsTo canPoint
  cases s.field? field with
  | none => simp
  | some type => cases type <;> simp

/-- What permissions by pointer make of a query. -/
structure PointersGrant (c : Compiler) (s : Schema) (op : Operation) (query : Object)
    (groups : List String) : Prop where
  granted : Permissions.allows s.permissions groups op = true ∨ pointerFields s op = [] →
    restrictToPointers s op query groups = .ok (some query)
  nobody : Permissions.allows s.permissions groups op = false → pointerFields s op ≠ [] →
    (restrictToPointers s op query groups = .ok none ↔ (users groups).length ≠ 1)
  refused : Permissions.allows s.permissions groups op = false → pointerFields s op ≠ [] →
    (users groups).length = 1 →
      ((∃ e, restrictToPointers s op query groups = .error e)
        ↔ ∃ field ∈ pointerFields s op, canPoint (s.field? field) = false)
  restricted : ∀ user, Permissions.allows s.permissions groups op = false →
    pointerFields s op ≠ [] → users groups = [user] →
      (∀ field ∈ pointerFields s op, canPoint (s.field? field) = true) →
        ∃ permitted, restrictToPointers s op query groups = .ok (some permitted)
          ∧ c.Compiles permitted
          ∧ ∀ v, c.Admits v permitted ↔
            c.Admits v query ∧ ∃ field ∈ pointerFields s op, PointsAt c v s field user

/-- Where only pointer fields grant an operation, for one user, a query is restricted if and only if
all of them can point. -/
theorem exists_restrictToPointers_iff (query : Object)
    (hdenied : Permissions.allows s.permissions groups op = false)
    (hne : pointerFields s op ≠ []) (husers : users groups = [user]) :
    (∃ permitted, restrictToPointers s op query groups = .ok permitted)
      ↔ ∀ field ∈ pointerFields s op, canPoint (s.field? field) = true := by
  rw [restrictToPointers_eq_match hdenied hne, husers]
  simp only [exists_map_eq_ok_iff, exists_mapM_eq_ok_iff, exists_pointsTo_iff]

/-- The query that pointer fields restrict another one to compiles, and it admits what that one
admits where one of the fields points at the user. -/
theorem restricted_of_compiles (hq : query.Canonical) (hcompiles : c.Compiles query)
    (hnames : ∀ field ∈ pointerFields s op, Combinator.ofKey? field = none)
    (hne : pointerFields s op ≠ [])
    (hmade : AreAlternatives s user query (pointerFields s op) alternatives) :
    c.Compiles (anyAlternative alternatives) ∧ ∀ v, c.Admits v (anyAlternative alternatives) ↔
      c.Admits v query ∧ ∃ field ∈ pointerFields s op, PointsAt c v s field user := by
  have hcanonical : ∀ made ∈ alternatives, made.Canonical := fun _ hm => hmade.canonical hq hm
  have hall : ∀ made ∈ alternatives, c.Compiles made ∧ c.Asks made := by
    intro made hm
    obtain ⟨field, hf, constraint, hp, rfl⟩ := hmade.exists_field hm
    exact compiles_alternative hq hcompiles (hnames field hf) hp
  refine ⟨compiles_anyAlternative (hmade.ne_nil hne) hcanonical fun made hm => (hall made hm).1, ?_⟩
  intro v
  have hany := admits_anyAlternative_iff (c := c) (v := v) (hmade.ne_nil hne) hcanonical
    fun made hm => (hall made hm).2
  rw [hany]
  · constructor
    · rintro ⟨made, hm, h⟩
      obtain ⟨field, hf, constraint, hp, rfl⟩ := hmade.exists_field hm
      have hboth := (admits_alternative_iff hq hp).mp h
      exact ⟨hboth.1, field, hf, hboth.2⟩
    · rintro ⟨hquery, field, hf, hpoints⟩
      obtain ⟨made, hm, constraint, hp, rfl⟩ := hmade.exists_made hf
      exact ⟨_, hm, (admits_alternative_iff hq hp).mpr ⟨hquery, hpoints⟩⟩
  -- an alternative that is wider than another one admits no row that the query does not
  · intro narrow hn wide hw hpart h
    obtain ⟨other, _, constraint', hp', rfl⟩ := hmade.exists_field hw
    obtain ⟨field, _, constraint, hp, rfl⟩ := hmade.exists_field hn
    exact of_isPartOf_alternative (Compiler.entrywise_admits c v) hq hp
      (canonical_alternative hq hp') hpart ((admits_alternative_iff hq hp').mp h).1 h

/-- Permissions by pointer are a conjunction: a query that compiles is restricted to the rows on
which one of the fields points at the user, whatever the query asks of these fields itself. -/
theorem pointersGrant_of_compiles (c : Compiler) (s : Schema) (op : Operation) (query : Object)
    (groups : List String) (hq : query.Canonical) (hcompiles : c.Compiles query)
    (hnames : ∀ field ∈ pointerFields s op, Text.startsWith field "$" = false) :
    PointersGrant c s op query groups where
  granted := restrictToPointers_eq_query
  nobody hdenied hne := by
    constructor
    · intro hnone hone
      obtain ⟨user, husers⟩ := List.length_eq_one_iff.mp hone
      rw [restrictToPointers_eq_match hdenied hne, husers] at hnone
      obtain ⟨alternatives, _, hsome⟩ := map_eq_ok.mp hnone
      cases hsome
    · intro hnobody
      refine restrictToPointers_eq_none hdenied hne fun user husers => hnobody ?_
      rw [husers]
      rfl
  refused hdenied hne hone := by
    obtain ⟨user, husers⟩ := List.length_eq_one_iff.mp hone
    rw [exists_error_iff, exists_restrictToPointers_iff query hdenied hne husers]
    simp
  restricted user hdenied hne husers hcan := by
    obtain ⟨result, hresult⟩ :=
      (exists_restrictToPointers_iff query hdenied hne husers).mpr hcan
    obtain ⟨permitted, rfl⟩ : ∃ permitted, result = some permitted := by
      rw [restrictToPointers_eq_match hdenied hne, husers] at hresult
      obtain ⟨alternatives, _, rfl⟩ := map_eq_ok.mp hresult
      exact ⟨_, rfl⟩
    refine ⟨permitted, hresult, ?_⟩
    rcases restrictToPointers_eq_ok hresult with ⟨hgranted, _⟩ |
      ⟨_, user', alternatives, husers', hmade, rfl⟩
    · rcases hgranted with hallows | hnil
      · rw [hdenied] at hallows
        cases hallows
      · exact absurd hnil hne
    · obtain rfl : user' = user := List.singleton_inj.mp (husers'.symm.trans husers)
      exact restricted_of_compiles hq hcompiles
        (fun field hf => Combinator.ofKey?_eq_none (hnames field hf)) hne hmade

/-- Posts that their authors may find, and that those may who are among the editors. One of the
fields is listed twice. -/
def draft : Schema :=
  { ((Schema.ofClass "Post").withField "author" (.pointer "_User")).withField "editors" .array with
    permissions := some { Permissions.everyone with
      find := some { Grants.none with pointerFields := ["author", "editors", "author"] } } }

/-- The posts of an author that name editors. -/
def byAuthor : Object :=
  [("author", userPointer "u"), ("editors", .obj [("$exists", .bool true)])]

/-- A query that asks something of both fields itself is restricted exactly. The alternative of the
author says no more than the query does, and of the two that are alike one is dropped. -/
theorem byAuthor_pointersGrant :
    byAuthor.Canonical ∧ (Compiler.ofSchema draft false ⟨0, 0⟩).Compiles byAuthor
      ∧ (∀ field ∈ pointerFields draft .find, Text.startsWith field "$" = false)
      ∧ restrictToPointers draft .find byAuthor ["*", "u", "role:editor"]
        = .ok (some [("$or", .arr [.obj byAuthor, .obj [("$and", .arr
            [.obj [("editors", .obj [("$all", .arr [userPointer "u"])])], .obj byAuthor])]])])
      ∧ PointersGrant (.ofSchema draft false ⟨0, 0⟩) draft .find byAuthor
        ["*", "u", "role:editor"] :=
  have hq : byAuthor.Canonical := Object.canonical_of_isCanonical (by decide)
  have hcompiles : (Compiler.ofSchema draft false ⟨0, 0⟩).Compiles byAuthor := ⟨_, rfl⟩
  have hnames : ∀ field ∈ pointerFields draft .find, Text.startsWith field "$" = false := by decide
  ⟨hq, hcompiles, hnames, rfl,
    pointersGrant_of_compiles _ draft .find byAuthor _ hq hcompiles hnames⟩

end ObjectStore.Access
