import ObjectStore.Proofs.Result
import ObjectStore.Proofs.Sql.Sound
import ObjectStore.Proofs.Sql.Truth
import ObjectStore.Proofs.Text.Split

/-!
# The quoted parts of a fragment

Whatever a client names reaches a statement as a quoted name or literal. `Sql.Reads` says of a
fragment that its text is read back as it was meant and which quoted parts it has, in reading order;
the lemmas beside it put fragments together the way the compiler does, with fixed texts between
them. `Sql.ReadsAll` is the same for several fragments, such as the clauses of a condition, and
`Predicate.reads_toSql` says that writing the condition out keeps them.
-/

namespace ObjectStore

open Sql

/-- A quoted part of a text. -/
structure Quote where
  kind : QuoteKind
  content : String
  deriving Repr, DecidableEq

/-- The quoted part that a token is. -/
def Token.quote? : Token → Option Quote
  | .name s => some ⟨.name, s⟩
  | .literal s => some ⟨.literal, s⟩
  | .text _ | .bind _ => none

/-- The quoted part that a mark is. -/
def Mark.quote? : Mark → Option Quote
  | .name s => some ⟨.name, s⟩
  | .literal s => some ⟨.literal, s⟩
  | .text _ | .placeholder _ => none

namespace Sql

/-- The quoted parts of a fragment. -/
def quotes (sql : Sql) : List Quote := sql.filterMap Token.quote?

variable {a b : Sql} {q r : List Quote} {s : String}

@[simp] theorem quotes_nil : quotes [] = [] := rfl

@[simp] theorem quotes_text (s : String) : quotes (text s) = [] := rfl

@[simp] theorem quotes_name (s : String) : quotes (name s) = [⟨.name, s⟩] := rfl

@[simp] theorem quotes_literal (s : String) : quotes (literal s) = [⟨.literal, s⟩] := rfl

@[simp] theorem quotes_bind (value : Param) : quotes (bind value) = [] := rfl

/-- The quoted parts of fragments in a row are those of the first and then those of the second. -/
@[simp] theorem quotes_append (a b : Sql) : quotes (a ++ b) = quotes a ++ quotes b :=
  List.filterMap_append

@[simp] theorem params_nil : params [] = [] := rfl

@[simp] theorem params_text (s : String) : params (text s) = [] := rfl

@[simp] theorem params_name (s : String) : params (name s) = [] := rfl

@[simp] theorem params_literal (s : String) : params (literal s) = [] := rfl

@[simp] theorem params_bind (value : Param) : params (bind value) = [value] := rfl

/-- A fragment is read as it was meant, and has some quoted parts. -/
structure Reads (sql : Sql) (q : List Quote) : Prop where
  sound : Shape.sound .plain (shapes sql) = true
  quotes_eq : quotes sql = q

namespace Reads

theorem nil : Reads [] [] := ⟨rfl, rfl⟩

theorem bind (value : Param) : Reads (Sql.bind value) [] := ⟨rfl, rfl⟩

theorem name (s : String) : Reads (Sql.name s) [⟨.name, s⟩] := ⟨rfl, rfl⟩

theorem literal (s : String) : Reads (Sql.literal s) [⟨.literal, s⟩] := ⟨rfl, rfl⟩

/-- A fixed text of the vocabulary has no quoted parts. -/
theorem text (h : s ∈ vocabulary) : Reads (Sql.text s) [] :=
  ⟨by simp [Sql.text, Token.shape, Shape.follows, h], rfl⟩

/-- A fixed text between two fragments. -/
theorem between (ha : Reads a q) (hs : Joins s) (hb : Reads b r) :
    Reads (a ++ Sql.text s ++ b) (q ++ r) where
  sound := by
    simp [Sql.text, Token.shape, Shape.follows_of_joins hs, Shape.ending_of_joins hs, ha.sound,
      hb.sound]
  quotes_eq := by simp [ha.quotes_eq, hb.quotes_eq]

/-- A fixed text and a fragment that only binds values. -/
theorem beside (ha : Reads a q) (hs : Joins s) (hb : Reads b []) :
    Reads (a ++ Sql.text s ++ b) q := by
  simpa using between ha hs hb

/-- A fixed text before a fragment. -/
theorem after (hb : Reads b r) (hs : Joins s) : Reads (Sql.text s ++ b) r :=
  between nil hs hb

/-- A fixed text behind a fragment. -/
theorem before (ha : Reads a q) (hs : Joins s) : Reads (a ++ Sql.text s) q := by
  simpa using beside ha hs nil

/-- A fixed text at the end, which may leave a quote behind. -/
theorem closed (ha : Reads a q) (hs : s ∈ vocabulary) (hdigit : s ∉ digitStarters) :
    Reads (a ++ Sql.text s) q where
  sound := by
    -- whatever the fragment ends in, a text that starts with no digit cannot be taken for more of
    -- it
    have hfollows : (Shape.text s).follows (Shape.endOf .plain (shapes a)) = true := by
      cases Shape.endOf .plain (shapes a) <;> simp [Shape.follows, hs, hdigit]
    simp [Sql.text, Token.shape, hfollows, ha.sound]
  quotes_eq := by simp [ha.quotes_eq]

/-- A fragment in parentheses. -/
theorem parens (ha : Reads a q) : Reads a.parens q :=
  (ha.after (joins_condition (by decide))).before (joins_condition (by decide))

/-- A bound document puts nothing in quotes. -/
theorem bindJson (s : String) : Reads (Sql.bindJson s) [] :=
  (bind _).before (joins_cast (by decide))

/-- Fragments with a fixed text between them are read one after another. -/
theorem join (hs : Joins s) {parts : List Sql} {qs : List (List Quote)}
    (h : List.Forall₂ Reads parts qs) : Reads (Sql.join s parts) qs.flatten := by
  induction h with
  | nil => exact nil
  | @cons part q rest qs hpart hrest ih =>
    cases hrest with
    | nil => simpa [Sql.join] using hpart
    | cons hnext hrest => exact hpart.between hs ih

end Reads

/-- A fragment is read back as it was meant, whatever it has in quotes. -/
def Readable (sql : Sql) : Prop := ∃ q, Reads sql q

/-- What is read with some quoted parts can be read. -/
theorem Reads.readable (h : Reads a q) : Readable a := ⟨q, h⟩

/-- What can be read has the quoted parts that are in it. -/
theorem Readable.reads (h : Readable a) : Reads a (quotes a) := by
  obtain ⟨_, h⟩ := h
  exact ⟨h.sound, rfl⟩

/-! ## Paths -/

/-- The quoted parts of a dotted name: its root as a name, and its other parts as literals. -/
def pathQuotes (dotted : String) : List Quote :=
  match Text.split '.' dotted with
  | [] => []
  | root :: rest => ⟨.name, root⟩ :: rest.map (⟨.literal, ·⟩)

/-- A hop of a path follows an arrow. -/
theorem pathTail_cons (asText : Bool) (part : String) (rest : List String) :
    ∃ arrow, Joins arrow ∧
      pathTail asText (part :: rest)
        = Sql.text arrow ++ Sql.literal part ++ pathTail asText rest := by
  cases rest with
  | nil =>
    refine ⟨if asText then "->>" else "->", ?_, by simp [pathTail]⟩
    cases asText <;> exact joins_condition (by decide)
  | cons next rest => exact ⟨"->", joins_condition (by decide), rfl⟩

/-- After any fragment, the hops of a path are read as its parts. -/
theorem reads_pathTail (asText : Bool) (parts : List String) (ha : Reads a q) :
    Reads (a ++ pathTail asText parts) (q ++ parts.map (⟨.literal, ·⟩)) := by
  induction parts generalizing a q with
  | nil => simpa [pathTail] using ha
  | cons part rest ih =>
    obtain ⟨arrow, hjoins, heq⟩ := pathTail_cons asText part rest
    -- the first hop goes to what stands before the path, for which the induction is general
    rw [heq, ← List.append_assoc, ← List.append_assoc]
    simpa using ih (ha.between hjoins (Reads.literal part))

/-- A path is read as its parts. -/
theorem reads_path (dotted : String) (asText : Bool) :
    Reads (path dotted asText) (pathQuotes dotted) := by
  unfold path pathQuotes
  cases h : Text.split '.' dotted with
  | nil => exact absurd (List.map_eq_nil_iff.mp h) (Text.splitChars_ne_nil '.' _)
  -- the root is a name and the hops go on from it
  | cons root rest => exact reads_pathTail asText rest (Reads.name root)

/-- A name without dots is its own only part. -/
theorem pathQuotes_of_not_contains {name : String} (h : Text.contains name "." = false) :
    pathQuotes name = [⟨.name, name⟩] := by
  rw [pathQuotes, Text.split_of_not_contains h]
  rfl

/-- A field is written as a path if it has dots in it, and as a name if it has none. -/
theorem reads_field (field : String) (asText : Bool) :
    Reads (if Text.contains field "." then path field asText else name field)
      (pathQuotes field) := by
  cases h : Text.contains field "." with
  | true => simpa using reads_path field asText
  | false => simpa [pathQuotes_of_not_contains h] using Reads.name field

/-- A path binds no values. -/
@[simp] theorem params_path (dotted : String) (asText : Bool) :
    params (path dotted asText) = [] := by
  have htail : ∀ parts, params (pathTail asText parts) = [] := by
    intro parts
    induction parts with
    | nil => rfl
    | cons part rest ih =>
      obtain ⟨arrow, _, heq⟩ := pathTail_cons asText part rest
      simp [heq, ih]
  unfold path
  split
  · rfl
  · simp [htail]

/-! ## Several fragments -/

/-- Fragments are read as they were meant, and have some quoted parts in all. -/
structure ReadsAll (parts : List Sql) (q : List Quote) : Prop where
  sound : ∀ part ∈ parts, Shape.sound .plain (shapes part) = true
  quotes_eq : parts.flatMap quotes = q

namespace ReadsAll

variable {parts others : List Sql}

theorem nil : ReadsAll [] [] := ⟨fun _ h => (List.not_mem_nil h).elim, rfl⟩

/-- One fragment. -/
theorem single (ha : Reads a q) : ReadsAll [a] q where
  sound := List.forall_mem_singleton.mpr ha.sound
  quotes_eq := by simp [ha.quotes_eq]

/-- Fragments in a row. -/
theorem append (hparts : ReadsAll parts q) (hothers : ReadsAll others r) :
    ReadsAll (parts ++ others) (q ++ r) where
  sound := List.forall_mem_append.mpr ⟨hparts.sound, hothers.sound⟩
  quotes_eq := by rw [List.flatMap_append, hparts.quotes_eq, hothers.quotes_eq]

/-- Lists of fragments in a row. -/
theorem flatten {lists : List (List Sql)} {qs : List (List Quote)}
    (h : List.Forall₂ ReadsAll lists qs) : ReadsAll lists.flatten qs.flatten := by
  induction h with
  | nil => exact nil
  | cons hpart _ ih => exact hpart.append ih

/-- Fragments that items are written as are read with what each item puts in quotes. -/
theorem map {α : Type} (items : List α) {f : α → Sql} {g : α → List Quote}
    (h : ∀ item ∈ items, Reads (f item) (g item)) : ReadsAll (items.map f) (items.flatMap g) where
  sound := List.forall_mem_map.mpr fun item hitem => (h item hitem).sound
  quotes_eq := by
    rw [List.flatMap_map]
    exact List.flatMap_congr fun item hitem => (h item hitem).quotes_eq

/-- Fragments with quoted parts of their own have these one after another. -/
theorem ofEach {qs : List (List Quote)} (h : List.Forall₂ Reads parts qs) :
    ReadsAll parts qs.flatten := by
  induction h with
  | nil => exact nil
  | cons hpart _ ih => exact (single hpart).append ih

/-- Fragments that come from items one by one are read with what each item puts in quotes. -/
theorem of_forall₂ {α : Type} {items : List α} {g : α → List Quote}
    (h : List.Forall₂ (fun item part => Reads part (g item)) items parts) :
    ReadsAll parts (items.flatMap g) := by
  have heach : List.Forall₂ Reads parts (items.map g) := List.forall₂_map_right_iff.mpr h.flip
  rw [List.flatMap_def]
  exact ofEach heach

/-- Each fragment is read with its own quoted parts. -/
theorem of_mem (h : ReadsAll parts q) (ha : a ∈ parts) : Reads a (quotes a) := ⟨h.sound a ha, rfl⟩

/-- Fragments are read one by one, each with its own quoted parts. -/
theorem forall₂ (h : ReadsAll parts q) : List.Forall₂ Reads parts (parts.map quotes) :=
  List.forall₂_map_right_iff.mpr (List.forall₂_same.mpr fun _ ha => h.of_mem ha)

/-- Fragments with a fixed text between them have their quoted parts in all. -/
theorem join (hs : Joins s) (h : ReadsAll parts q) : Reads (Sql.join s parts) q := by
  have hjoined := Reads.join hs h.forall₂
  rwa [← List.flatMap_def, h.quotes_eq] at hjoined

/-- A fixed text and fragments with commas between them, left out if there are none of them. -/
theorem unlessEmpty (ha : Reads a r) (hs : Joins s) (h : ReadsAll parts q) :
    Reads (a ++ if parts.isEmpty then [] else Sql.text s ++ Sql.join ", " parts) (r ++ q) := by
  have hjoined := h.join (joins_condition (s := ", ") (by decide))
  split
  next hempty =>
    rw [List.isEmpty_iff.mp hempty] at hjoined
    have hq : [] = q := hjoined.quotes_eq
    simpa [← hq] using ha
  next => simpa using ha.between hs hjoined

end ReadsAll

end Sql

/-! ## Conditions -/

namespace Predicate

variable {p : Predicate} {members : List Predicate} {q : List Quote}

/-- Parentheses put nothing in quotes. -/
theorem reads_grouped {sql : Sql} (inParens : Bool) (h : Reads sql q) :
    Reads (grouped inParens sql) q := by
  cases inParens with
  | false => exact h
  | true => exact h.parens

mutual

/-- A condition is read as its clauses. -/
theorem reads_toSql {p : Predicate} {q : List Quote} (h : ReadsAll p.clauses q) (nested : Bool) :
    Reads (p.toSql nested) q := by
  match p with
  | .clause sql =>
    rw [toSql]
    exact ⟨h.sound sql (by simp), by simpa using h.quotes_eq⟩
  | .all members =>
    rw [toSql]
    exact reads_grouped _ (reads_membersToSql (joins_condition (by decide)) (by rwa [clauses] at h))
  | .any members =>
    rw [toSql]
    exact reads_grouped _ (reads_membersToSql (joins_condition (by decide)) (by rwa [clauses] at h))
  -- what is negated stands in parentheses unless it is a clause
  | .not member =>
    rw [toSql]
    exact (reads_grouped _ (reads_toSql (by rwa [clauses] at h) true)).after
      (joins_condition (by decide))

/-- The members of a connective are read as their clauses. -/
theorem reads_membersToSql {members : List Predicate} {word : String} {q : List Quote}
    (hword : Joins word) (h : ReadsAll (clausesOf members) q) :
    Reads (membersToSql word members) q := by
  match members with
  | [] =>
    rw [membersToSql]
    exact ⟨rfl, by simpa [clausesOf] using h.quotes_eq⟩
  | [member] =>
    rw [membersToSql]
    exact reads_toSql (by simpa [clausesOf] using h) true
  | member :: next :: rest =>
    rw [clausesOf] at h
    -- the quoted parts of the first member come first, those of the others after them
    have hmember : ReadsAll member.clauses (member.clauses.flatMap quotes) :=
      ⟨fun part hp => h.sound part (List.mem_append_left _ hp), rfl⟩
    have hrest : ReadsAll (clausesOf (next :: rest))
        ((clausesOf (next :: rest)).flatMap quotes) :=
      ⟨fun part hp => h.sound part (List.mem_append_right _ hp), rfl⟩
    rw [membersToSql, ← h.quotes_eq, List.flatMap_append]
    exact (reads_toSql hmember true).between hword (reads_membersToSql hword hrest)

end

end Predicate

end ObjectStore
