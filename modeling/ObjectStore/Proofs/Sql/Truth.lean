import ObjectStore.Query.Compile
import ObjectStore.Sql.Basic

/-!
# What a predicate comes to on a row

The engine evaluates a condition to true, false or unknown, and keeps the rows where it is true.
What a clause comes to is left to a `Valuation`; the connectives are those of three-valued logic, so
`Predicate.truth` is fixed by the clauses alone (`Predicate.truth_congr`).

Only truth matters to which rows are kept: a conjunction is true where all members are
(`truth_all_eq_true`) and a disjunction where some member is (`truth_any_eq_true`).
-/

namespace ObjectStore

/-- What clauses come to on one row; nothing stands for unknown. -/
abbrev Valuation := Sql → Option Bool

/-! ## Three-valued connectives -/

namespace Truth

/-- Conjunction: false wins over unknown. -/
def and : Option Bool → Option Bool → Option Bool
  | some false, _ => some false
  | _, some false => some false
  | some true, some true => some true
  | _, _ => none

/-- Disjunction: true wins over unknown. -/
def or : Option Bool → Option Bool → Option Bool
  | some true, _ => some true
  | _, some true => some true
  | some false, some false => some false
  | _, _ => none

/-- Negation: unknown stays unknown. -/
def not (a : Option Bool) : Option Bool := a.map (!·)

/-- A conjunction is true where both conjuncts are. -/
@[simp] theorem and_eq_true (a b : Option Bool) :
    and a b = some true ↔ a = some true ∧ b = some true := by
  rcases a with _ | _ | _ <;> rcases b with _ | _ | _ <;> simp [and]

/-- A disjunction is true where one of the disjuncts is. -/
@[simp] theorem or_eq_true (a b : Option Bool) :
    or a b = some true ↔ a = some true ∨ b = some true := by
  rcases a with _ | _ | _ <;> rcases b with _ | _ | _ <;> simp [or]

instance : Std.Commutative and :=
  ⟨fun a b => by rcases a with _ | _ | _ <;> rcases b with _ | _ | _ <;> rfl⟩

instance : Std.Associative and :=
  ⟨fun a b c => by
    rcases a with _ | _ | _ <;> rcases b with _ | _ | _ <;> rcases c with _ | _ | _ <;> rfl⟩

/-- A conjunct may be given to each member of a disjunction, in three values as in two. -/
theorem and_or (a b c : Option Bool) : and a (or b c) = or (and a b) (and a c) := by
  rcases a with _ | _ | _ <;> rcases b with _ | _ | _ <;> rcases c with _ | _ | _ <;> rfl

/-- What is true makes no difference to a conjunction. -/
@[simp] theorem and_true (a : Option Bool) : and a (some true) = a := by
  rcases a with _ | _ | _ <;> rfl

/-- What is false makes no difference to a disjunction. -/
@[simp] theorem or_false (a : Option Bool) : or a (some false) = a := by
  rcases a with _ | _ | _ <;> rfl

end Truth

namespace Predicate

/-! ## The truth of a predicate -/

mutual

/-- What a predicate comes to. -/
def truth (v : Valuation) : Predicate → Option Bool
  | .clause sql => v sql
  | .all members => truthOfAll v members
  | .any members => truthOfAny v members
  | .not member => Truth.not (truth v member)

/-- What a conjunction comes to; that of no members is true. -/
def truthOfAll (v : Valuation) : List Predicate → Option Bool
  | [] => some true
  | member :: rest => Truth.and (truth v member) (truthOfAll v rest)

/-- What a disjunction comes to; that of no members is false. -/
def truthOfAny (v : Valuation) : List Predicate → Option Bool
  | [] => some false
  | member :: rest => Truth.or (truth v member) (truthOfAny v rest)

end

mutual

/-- The clauses of a predicate in reading order. -/
def clauses : Predicate → List Sql
  | .clause sql => [sql]
  | .all members => clausesOf members
  | .any members => clausesOf members
  | .not member => clauses member

/-- The clauses of some predicates in reading order. -/
def clausesOf : List Predicate → List Sql
  | [] => []
  | member :: rest => clauses member ++ clausesOf rest

end

variable {v w : Valuation} {members : List Predicate} {p : Predicate}

/-- A clause comes to what the row makes of it. -/
@[simp] theorem truth_clause (sql : Sql) : (clause sql).truth v = v sql := by rw [truth]

/-- A clause is its only clause. -/
@[simp] theorem clauses_clause (sql : Sql) : (clause sql).clauses = [sql] := by rw [clauses]

/-- A negation has the clauses of what it negates. -/
@[simp] theorem clauses_not : (not p).clauses = p.clauses := by rw [clauses]

/-- The clauses of a conjunction are those of its members, in their order. -/
@[simp] theorem clauses_all : (all members).clauses = members.flatMap clauses := by
  rw [clauses]
  induction members with
  | nil => rfl
  | cons member rest ih => rw [clausesOf, ih, List.flatMap_cons]

/-- The clauses of a disjunction are those of its members, in their order. -/
@[simp] theorem clauses_any : (any members).clauses = members.flatMap clauses := by
  rw [← clauses_all, clauses, clauses]

/-- A conjunction is true where all members are; that of no members is true. -/
theorem truth_all_eq_true :
    (all members).truth v = some true ↔ ∀ member ∈ members, member.truth v = some true := by
  rw [truth]
  induction members with
  | nil => simp [truthOfAll]
  | cons member rest ih => simp [truthOfAll, ih]

/-- A disjunction is true where some member is; that of no members is not. -/
theorem truth_any_eq_true :
    (any members).truth v = some true ↔ ∃ member ∈ members, member.truth v = some true := by
  rw [truth]
  induction members with
  | nil => simp [truthOfAny]
  | cons member rest ih => simp [truthOfAny, ih]

mutual

/-- A predicate comes to the same wherever its clauses do. -/
theorem truth_congr {p : Predicate} (h : ∀ sql ∈ p.clauses, v sql = w sql) :
    p.truth v = p.truth w := by
  match p with
  | .clause sql => rw [truth, truth, h sql (by simp)]
  | .all members => rw [truth, truth, (truths_congr fun sql hs => h sql (by rwa [clauses])).1]
  | .any members => rw [truth, truth, (truths_congr fun sql hs => h sql (by rwa [clauses])).2]
  | .not member => rw [truth, truth, truth_congr fun sql hs => h sql (by rwa [clauses])]

/-- The members of a conjunction and of a disjunction come to the same wherever their clauses do. -/
theorem truths_congr {members : List Predicate} (h : ∀ sql ∈ clausesOf members, v sql = w sql) :
    truthOfAll v members = truthOfAll w members ∧ truthOfAny v members = truthOfAny w members := by
  match members with
  | [] => exact ⟨rfl, rfl⟩
  | member :: rest =>
    -- the clauses of the first member come first, those of the others after them
    have hm : member.truth v = member.truth w :=
      truth_congr fun sql hs => h sql (by rw [clausesOf]; exact List.mem_append_left _ hs)
    have hr := truths_congr fun sql hs =>
      h sql (by rw [clausesOf]; exact List.mem_append_right (clauses member) hs)
    exact ⟨by rw [truthOfAll, truthOfAll, hm, hr.1], by rw [truthOfAny, truthOfAny, hm, hr.2]⟩

end

/-! ## One predicate for several -/

/-- Only no members make no conjunction. -/
theorem all?_eq_none_iff : all? members = none ↔ members = [] := by
  rcases members with _ | ⟨a, _ | _⟩ <;> simp [all?]

/-- Only no members make no disjunction. -/
theorem any?_eq_none_iff : any? members = none ↔ members = [] := by
  rcases members with _ | ⟨a, _ | _⟩ <;> simp [any?]

/-- The one predicate for several that all hold is true where all of them are. -/
theorem truth_all?_eq_true (h : all? members = some p) :
    p.truth v = some true ↔ ∀ member ∈ members, member.truth v = some true := by
  rcases members with _ | ⟨a, _ | ⟨b, rest⟩⟩
  · simp [all?] at h
  -- a single member stands for itself
  · obtain rfl := Option.some.inj h
    simp
  · obtain rfl := Option.some.inj h
    exact truth_all_eq_true

/-- One more member of a conjunction is one more conjunct. -/
theorem map_truth_all?_cons (v : Valuation) (member : Predicate) (members : List Predicate) :
    (all? (member :: members)).map (truth v)
      = Option.merge Truth.and (some (member.truth v)) ((all? members).map (truth v)) := by
  rcases members with _ | ⟨next, _ | ⟨third, rest⟩⟩
  · rfl
  · simp [all?, truth, truthOfAll, Option.merge]
  · simp [all?, truth, truthOfAll, Option.merge]

/-- One more member of a disjunction is one more disjunct. -/
theorem map_truth_any?_cons (v : Valuation) (member : Predicate) (members : List Predicate) :
    (any? (member :: members)).map (truth v)
      = Option.merge Truth.or (some (member.truth v)) ((any? members).map (truth v)) := by
  rcases members with _ | ⟨next, _ | ⟨third, rest⟩⟩
  · rfl
  · simp [any?, truth, truthOfAny, Option.merge]
  · simp [any?, truth, truthOfAny, Option.merge]

/-- The one predicate for several that all hold has the clauses of all of them. -/
theorem clauses_all? (h : all? members = some p) : p.clauses = members.flatMap clauses := by
  rcases members with _ | ⟨a, _ | ⟨b, rest⟩⟩
  · simp [all?] at h
  · obtain rfl := Option.some.inj h
    simp
  · obtain rfl := Option.some.inj h
    exact clauses_all

/-- The one predicate for several of which one holds has the clauses of all of them. -/
theorem clauses_any? (h : any? members = some p) : p.clauses = members.flatMap clauses := by
  rcases members with _ | ⟨a, _ | ⟨b, rest⟩⟩
  · simp [any?] at h
  · obtain rfl := Option.some.inj h
    simp
  · obtain rfl := Option.some.inj h
    exact clauses_any

end Predicate

/-- A filter keeps a row where its predicate is true; without a predicate it keeps all rows. -/
def Filter.Holds (f : Filter) (v : Valuation) : Prop :=
  ∀ p, f.predicate = some p → p.truth v = some true

/-- A filter without a predicate keeps every row. -/
theorem Filter.holds_of_predicate_eq_none {f : Filter} (h : f.predicate = none) (v : Valuation) :
    f.Holds v := by
  intro p hp
  rw [h] at hp
  cases hp

end ObjectStore
