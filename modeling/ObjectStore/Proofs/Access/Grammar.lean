import ObjectStore.Proofs.Access.Validity

/-!
# The grammar of valid queries

Validation runs through a query with its branches and checks one thing after another. What it
accepts can be said without it: every entry on every level of the query is legal by itself
(`IsLegal`), and a level is the query or what stands in it below `$or`, `$and` and `$nor`, at any
depth.

An entry that is found valid is a legal one whose branches are valid (`isValidEntry_iff`), so the
two come to the same by induction on the branches (`accepts_exactly_grammar`).
-/

namespace ObjectStore.Access

open Result Query

variable {query : Object} {entry : String × Json} {name options key : String} {value : Json}
  {c : Char}

/-! ## Names and options -/

/-- One of the letters a to z, small or capital. -/
def IsLetter (c : Char) : Prop := ('a' ≤ c ∧ c ≤ 'z') ∨ ('A' ≤ c ∧ c ≤ 'Z')

/-- One of the digits 0 to 9. -/
def IsDecimal (c : Char) : Prop := '0' ≤ c ∧ c ≤ '9'

/-- A name is a letter, and after it letters, digits, underscores and dots. -/
def IsName (name : String) : Prop :=
  ∃ first rest, name.toList = first :: rest ∧ IsLetter first ∧
    ∀ c ∈ rest, IsLetter c ∨ IsDecimal c ∨ c = '_' ∨ c = '.'

/-- Options of a pattern are letters `i`, `m`, `x` and `s`, at least one. -/
def AreOptionLetters (options : String) : Prop :=
  options ≠ "" ∧ ∀ c ∈ options.toList, c = 'i' ∨ c = 'm' ∨ c = 'x' ∨ c = 's'

theorem isAlpha_iff : c.isAlpha = true ↔ IsLetter c := by
  have hupper : c.isUpper = true ↔ 'A' ≤ c ∧ c ≤ 'Z' := decide_eq_true_iff
  have hlower : c.isLower = true ↔ 'a' ≤ c ∧ c ≤ 'z' := by
    show (decide ('a' ≤ c) && decide (c ≤ 'z')) = true ↔ _
    rw [Bool.and_eq_true, decide_eq_true_iff, decide_eq_true_iff]
  show (c.isUpper || c.isLower) = true ↔ _
  rw [Bool.or_eq_true, hupper, hlower]
  exact or_comm

theorem isAlphanum_iff : c.isAlphanum = true ↔ IsLetter c ∨ IsDecimal c := by
  show (c.isAlpha || c.isDigit) = true ↔ _
  rw [Bool.or_eq_true, isAlpha_iff]
  simp only [Char.isDigit, Bool.and_eq_true, decide_eq_true_eq, IsDecimal, Char.le_def, ge_iff_le]

theorem isFieldName_iff : isFieldName name = true ↔ IsName name := by
  unfold isFieldName IsName
  cases name.toList with
  | nil => simp
  | cons first rest =>
    simp only [Bool.and_eq_true, List.all_eq_true, Bool.or_eq_true, decide_eq_true_eq, isAlpha_iff,
      isAlphanum_iff, or_assoc]
    constructor
    · intro h
      exact ⟨first, rest, rfl, h⟩
    · intro h
      obtain ⟨_, _, heq, h⟩ := h
      obtain ⟨rfl, rfl⟩ := List.cons.inj heq
      exact h

theorem areOptions_iff : areOptions options = true ↔ AreOptionLetters options := by
  simp [areOptions, AreOptionLetters]

/-! ## Entries -/

/-- An entry of a query is legal by itself, whatever stands in its branches. -/
structure IsLegal (entry : String × Json) : Prop where
  notAcl : entry.1 ≠ "ACL"
  key : IsName entry.1 ∨ entry.1 ∈ specialKeys
  options : ∀ pattern options, entry.2.get? "$regex" = some pattern →
    entry.2.get? "$options" = some (.str options) → AreOptionLetters options
  branches : entry.1 ∈ ["$or", "$and", "$nor"] →
    ∃ items, entry.2 = .arr items ∧ ∀ item ∈ items, item.isObject = true
  norNotEmpty : entry.1 = "$nor" → entry.2 ≠ .arr []

theorem validateOptions_eq_ok_iff : validateOptions value = .ok () ↔
    ∀ pattern options, value.get? "$regex" = some pattern →
      value.get? "$options" = some (.str options) → AreOptionLetters options := by
  unfold validateOptions
  cases hpattern : value.get? "$regex" with
  | none =>
    cases (value.get? "$options").bind Json.str? <;> simp
  | some pattern =>
    cases hoptions : value.get? "$options" with
    | none => simp
    | some payload =>
      cases payload with
      | str options =>
        simp only [Option.bind_some, Json.str?, Option.some.injEq, Json.str.injEq, ← areOptions_iff]
        by_cases h : areOptions options = true <;> simp [h]
      | _ => simp [Json.str?]

/-- A member passes if its key is one that a query may have and its options are known. -/
theorem validateMember_eq_ok_iff : validateMember entry = .ok () ↔
    validateOptions entry.2 = .ok () ∧ (IsName entry.1 ∨ entry.1 ∈ specialKeys) := by
  have hkey : isQueryKey entry.1 = true ↔ IsName entry.1 ∨ entry.1 ∈ specialKeys := by
    rw [isQueryKey, Bool.or_eq_true, isFieldName_iff, List.contains_iff_mem]
  rw [validateMember, ← hkey]
  cases hoptions : validateOptions entry.2 with
  | error e => simp [bind, Except.bind]
  | ok _ =>
    by_cases h : isQueryKey entry.1 = true
    · simp [h, bind, Except.bind, pure, Except.pure]
    · simp [h, bind, Except.bind, throw, throwThe, MonadExceptOf.throw]

/-- An entry is found valid if it is legal and its branches are valid. -/
theorem isValidEntry_iff : IsValidEntry entry ↔ IsLegal entry ∧
    ∀ items fields, (Combinator.ofKey? entry.1).isSome = true → entry.2 = .arr items →
      .obj fields ∈ items → IsValid fields := by
  constructor
  · intro h
    obtain ⟨hoptions, hkey⟩ := validateMember_eq_ok_iff.mp h.member
    have hclause : (Combinator.ofKey? entry.1).isSome = true → ∃ items, entry.2 = .arr items ∧
        (items = [] → allowsNoBranches entry.1 = true) ∧
          ∀ item ∈ items, ∃ fields, item = .obj fields ∧ IsValid fields := fun hcombinator =>
      checkClause_isOk_iff.mp (h.branches hcombinator)
    refine ⟨⟨h.notAcl, hkey, validateOptions_eq_ok_iff.mp hoptions, ?_, ?_⟩, ?_⟩
    · intro hcombinator
      obtain ⟨items, hitems, _, hall⟩ := hclause (isSome_ofKey? hcombinator)
      refine ⟨items, hitems, ?_⟩
      intro item hi
      obtain ⟨fields, rfl, _⟩ := hall item hi
      rfl
    · intro hnor hempty
      obtain ⟨items, hitems, hallows, _⟩ := hclause (by rw [hnor]; rfl)
      have hnil : items = [] := Json.arr.inj (hitems.symm.trans hempty)
      have hmay := hallows hnil
      rw [hnor] at hmay
      cases hmay
    · intro items fields hcombinator hitems hfields
      obtain ⟨_, hitems', _, hall⟩ := hclause hcombinator
      obtain rfl := Json.arr.inj (hitems.symm.trans hitems')
      obtain ⟨_, heq, hvalid⟩ := hall _ hfields
      exact Json.obj.inj heq ▸ hvalid
  · intro h
    obtain ⟨hlegal, hbranches⟩ := h
    refine ⟨hlegal.notAcl, validateMember_eq_ok_iff.mpr ⟨validateOptions_eq_ok_iff.mpr
      hlegal.options, hlegal.key⟩, ?_⟩
    intro hcombinator
    obtain ⟨items, hitems, hobjects⟩ := hlegal.branches (mem_of_isSome_ofKey? hcombinator)
    refine checkClause_isOk_iff.mpr ⟨items, hitems, ?_, ?_⟩
    · intro hnil
      -- only `$nor` must have branches, and a legal one has them
      show (entry.1 != "$nor") = true
      rw [bne_iff_ne]
      intro hnor
      exact hlegal.norNotEmpty hnor (hnil ▸ hitems)
    · intro item hi
      have hobject := hobjects item hi
      cases item with
      | obj fields => exact ⟨fields, rfl, hbranches items fields hcombinator hitems hi⟩
      | _ => cases hobject

/-! ## Queries -/

/-- A query is valid if its entries are legal and its branches are valid queries. -/
theorem isValid_iff_branches (hq : query.Canonical) : IsValid query ↔
    (∀ entry ∈ query, IsLegal entry) ∧ ∀ fields, IsBranchOf fields query → IsValid fields := by
  rw [isValid_iff hq]
  constructor
  · intro h
    refine ⟨fun entry he => (isValidEntry_iff.mp (h entry he)).1, ?_⟩
    intro fields hbranch
    obtain ⟨key, items, hkey, hentry, hfields⟩ := hbranch
    exact (isValidEntry_iff.mp (h _ hentry)).2 items fields hkey rfl hfields
  · intro h entry he
    refine isValidEntry_iff.mpr ⟨h.1 entry he, ?_⟩
    intro items fields hkey hitems hfields
    exact h.2 fields ⟨entry.1, items, hkey, hitems ▸ he, hfields⟩

/-- A query is valid if the entries on all its levels are legal. -/
theorem isValid_iff_levels (hq : query.Canonical) :
    IsValid query ↔ ∀ level, IsLevelOf level query → ∀ entry ∈ level, IsLegal entry := by
  induction query using Query.induction with
  | h query ih =>
    rw [isValid_iff_branches hq]
    constructor
    · intro h level hlevel
      cases hlevel with
      | self => exact h.1
      | inside hbranch hinside =>
        exact (ih _ hbranch (hbranch.canonical hq)).mp (h.2 _ hbranch) level hinside
    · intro h
      refine ⟨h query (.self query), ?_⟩
      intro fields hbranch
      apply (ih fields hbranch (hbranch.canonical hq)).mpr
      intro level hlevel
      exact h level (.inside hbranch hlevel)

/-- As long as no constraint is moved, validation changes no query, and it accepts a query if and
only if the entries on all its levels are legal. -/
theorem accepts_exactly_grammar (query : Object) (hq : query.Canonical) :
    (∀ settled, validate false query = .ok settled → settled = query) ∧
      (validate false query = .ok query ↔
        ∀ level, IsLevelOf level query → ∀ entry ∈ level, IsLegal entry) := by
  refine ⟨fun settled h => validate_eq_self hq h, ?_⟩
  rw [← isValid_iff_levels hq]
  constructor
  · intro h
    exact ⟨query, h⟩
  · intro h
    obtain ⟨settled, hsettled⟩ := h
    exact validate_eq_self hq hsettled ▸ hsettled

/-- People of an age, except those whose first name matches a pattern and those open to all. -/
def exceptNamed : Object :=
  [("$nor", .arr [.obj [("$or", .arr
      [.obj [("name.first", .obj [("$options", .str "im"), ("$regex", .str "^a")])],
        .obj [(readColumn, .obj [("$in", .ofStrings [publicGroup])])]])]]),
    ("age", .int 5)]

/-- The same, with a pattern whose options are not known. -/
def exceptMisnamed : Object :=
  [("$nor", .arr [.obj [("$or", .arr
      [.obj [("name.first", .obj [("$options", .str "iz"), ("$regex", .str "^a")])]])]]),
    ("age", .int 5)]

/-- A query is accepted or refused for what stands two combinators down. -/
theorem exceptNamed_accepted :
    exceptNamed.Canonical ∧ exceptMisnamed.Canonical ∧ validate false exceptNamed = .ok exceptNamed
      ∧ (∀ level, IsLevelOf level exceptNamed → ∀ entry ∈ level, IsLegal entry)
      ∧ ¬ ∀ level, IsLevelOf level exceptMisnamed → ∀ entry ∈ level, IsLegal entry := by
  have hnamed : exceptNamed.Canonical := Object.canonical_of_isCanonical (by decide)
  have hmisnamed : exceptMisnamed.Canonical := Object.canonical_of_isCanonical (by decide)
  have haccepted : validate false exceptNamed = .ok exceptNamed := rfl
  refine ⟨hnamed, hmisnamed, haccepted, (accepts_exactly_grammar exceptNamed hnamed).2.mp haccepted,
    ?_⟩
  intro hlegal
  have hrefused : validate false exceptMisnamed = .error (.invalidQuery (.regexOptions "iz")) := rfl
  have haccepted := (accepts_exactly_grammar exceptMisnamed hmisnamed).2.mpr hlegal
  exact nomatch hrefused.symm.trans haccepted

end ObjectStore.Access
