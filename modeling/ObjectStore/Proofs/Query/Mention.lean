import ObjectStore.Proofs.Query.Leaves
import ObjectStore.Proofs.Sql.Quotes

/-!
# What a query puts in quotes

All conditions on a field are written with its column and fixed texts; what they compare it with is
bound. So the only quoted parts of such a condition are copies of the column, and the pattern of a
match, which is written out as a literal. How many copies there are is told by the operator and its
payload (`Operator.timesNamed`), so the quoted parts of a query are one list, without any choice.

* `Operator.reads_compile` says so of every operator of a field;
* `Compiler.reads_compileEntries` puts the operators of all fields together, by induction on the
  branches of the query: the quoted parts come in the order in which a reader of the query meets
  the fields (`Compiler.leaves`).
-/

namespace ObjectStore

open Sql Result

/-- The quoted parts of a column, so many times. -/
def copies (column : List Quote) (n : Nat) : List Quote := (List.replicate n column).flatten

@[simp] theorem copies_zero (column : List Quote) : copies column 0 = [] := rfl

@[simp] theorem copies_one (column : List Quote) : copies column 1 = column := by simp [copies]

/-- Copies of a column come one after another. -/
theorem copies_add (column : List Quote) (m n : Nat) :
    copies column (m + n) = copies column m ++ copies column n := by
  rw [copies, List.replicate_add, List.flatten_append]
  rfl

/-! ## Conditions on one field -/

namespace FieldRef

variable {f : FieldRef} {p r : Predicate} {sql operand : Sql} {sign : String} {value : Json}
  {values : List Json} {point : GeoPoint} {m n : Nat}

/-- A column is read with its own name, or with the names along a path, in quotes. -/
theorem reads_column (f : FieldRef) : Reads f.column f.column.quotes := by
  unfold column
  split
  · exact ⟨(reads_path f.name true).sound, rfl⟩
  · exact ⟨(Reads.name f.name).sound, rfl⟩

@[simp] theorem params_column (f : FieldRef) : f.column.params = [] := by
  unfold column
  split <;> simp

/-- A condition has so many copies of the column of a field in quotes, and nothing else. -/
def Mentions (f : FieldRef) (p : Predicate) (n : Nat) : Prop :=
  ReadsAll p.clauses (copies f.column.quotes n)

/-- A clause with the column in it once. -/
theorem mentions_clause (h : Reads sql f.column.quotes) : f.Mentions (.clause sql) 1 := by
  have hone : ReadsAll [sql] f.column.quotes := ReadsAll.single h
  simpa [Mentions] using hone

/-- A condition that is true or false of all rows. -/
theorem mentions_fixed (h : sign ∈ digitStarters) : f.Mentions (.clause (Sql.text sign)) 0 := by
  have hfixed : Reads (Sql.text sign) [] := Reads.text (by simp [vocabulary, h])
  simpa [Mentions] using ReadsAll.single hfixed

/-- A negation mentions the column as often as what it negates. -/
theorem mentions_not (h : f.Mentions p m) : f.Mentions (.not p) m := by
  rwa [Mentions, Predicate.clauses_not]

/-- Two conditions mention the column as often as each of them. -/
theorem Mentions.readsAll_pair (hp : f.Mentions p m) (hr : f.Mentions r n) :
    ReadsAll ([p, r].flatMap Predicate.clauses) (copies f.column.quotes (m + n)) := by
  have hboth := ReadsAll.append hp hr
  rw [← copies_add] at hboth
  simpa using hboth

/-- An alternative of two conditions mentions the column as often as both together. -/
theorem mentions_any (hp : f.Mentions p m) (hr : f.Mentions r n) :
    f.Mentions (.any [p, r]) (m + n) := by
  rw [Mentions, Predicate.clauses_any]
  exact hp.readsAll_pair hr

/-- A conjunction of two conditions mentions the column as often as both together. -/
theorem mentions_all (hp : f.Mentions p m) (hr : f.Mentions r n) :
    f.Mentions (.all [p, r]) (m + n) := by
  rw [Mentions, Predicate.clauses_all]
  exact hp.readsAll_pair hr

/-- To be null is asked of the column once. -/
theorem mentions_isNull : f.Mentions f.isNull 1 :=
  mentions_clause (f.reads_column.before (joins_condition (by decide)))

/-- To be there is asked of the column once. -/
theorem mentions_isNotNull : f.Mentions f.isNotNull 1 :=
  mentions_clause (f.reads_column.before (joins_condition (by decide)))

/-! ## Values to compare with -/

theorem reads_bindText (s : String) : Reads (Sql.bindText s) [] := Reads.bind _

/-- What a column is compared with is bound, so nothing of it is in quotes. -/
theorem reads_comparand (type : Option FieldType) (value : Json) :
    Reads (FieldType.comparand type value) [] := by
  unfold FieldType.comparand
  split
  · exact (Reads.bind _).before (joins_cast (by decide))
  · split
    · exact Reads.bindJson _
    · exact Reads.bind _

/-- An array of texts is bound as one value. -/
theorem reads_textArray (items : List Json) : Reads (FieldType.textArray items) [] :=
  (reads_bindText _).before (joins_cast (by decide))

/-- A point is bound as two coordinates. -/
theorem reads_point (point : GeoPoint) : Reads point.sql [] :=
  ((Reads.bind _).after (joins_condition (by decide)) |>.between (joins_condition (by decide))
    (Reads.bind _)).before (joins_condition (by decide))

/-! ## Comparisons -/

/-- A column on the left of a sign, with nothing in quotes on the right, is mentioned once. -/
theorem mentions_compareWith (hsign : sign ∈ signs) (hoperand : Reads operand []) :
    f.Mentions (f.compareWith sign operand) 1 :=
  mentions_clause (f.reads_column.beside (joins_sign hsign) hoperand)

/-- A comparison names the column once, whether or not it casts it. -/
theorem mentions_compareValue (hsign : sign ∈ signs) :
    f.Mentions (f.compareValue sign value) 1 := by
  unfold compareValue
  split
  · split
    next type hcast =>
      -- a column is only ever cast to the type of a number or of a flag
      have htype : type ∈ ["double precision", "boolean"] := by
        cases value <;> simp_all [castFor]
      have hmem : ") AS " ++ type ++ ") " ++ sign ++ " " ∈ pathCasts :=
        List.mem_flatMap.mpr ⟨type, htype, List.mem_map.mpr ⟨sign, hsign, rfl⟩⟩
      have hcolumn := f.reads_column.after (joins_condition (s := "CAST((") (by decide))
      exact mentions_clause (hcolumn.beside (joins_pathCast hmem) (Reads.bind _))
    next => exact mentions_compareWith hsign (reads_bindText _)
  · exact mentions_compareWith hsign (reads_comparand _ _)

/-- A function of the column, as it is or converted, and of a document. -/
theorem mentions_call {function : String} (hfunction : function ∈ conditionTexts) {target : Sql}
    (h : Reads target f.column.quotes) (document : String) :
    f.Mentions (.clause (Sql.text function ++ target ++ Sql.text ", " ++ Sql.bindJson document
      ++ Sql.text ")")) 1 := by
  have hboth := (h.after (joins_condition hfunction)).beside
    (joins_condition (s := ", ") (by decide)) (Reads.bindJson document)
  exact mentions_clause (hboth.before (joins_condition (by decide)))

/-- A common item with a list is asked of the column once. -/
theorem mentions_containsAny : f.Mentions (f.containsAny values) 1 := by
  unfold containsAny
  split
  · exact mentions_compareWith (by decide) (reads_textArray _)
  · exact mentions_call (by decide) f.reads_column _

/-- To differ from a value is to be null or to compare as different, so the column is named for
both; to differ from null is to be there. -/
theorem mentions_differs (h : f.differs value = .ok p) :
    f.Mentions p (if value.isNull then 1 else 2) := by
  unfold differs at h
  split at h
  next hnull =>
    obtain rfl := Except.ok.inj h
    rw [if_pos hnull]
    exact mentions_isNotNull
  next hnull =>
    rw [if_neg hnull]
    split at h
    · obtain rfl := Except.ok.inj h
      exact mentions_any mentions_isNull (mentions_not mentions_containsAny)
    · split at h
      next point _ =>
        obtain rfl := Except.ok.inj h
        have hpoint : f.Mentions (f.compareWith "~=" point.sql) 1 :=
          mentions_compareWith (by decide) (reads_point point)
        exact mentions_any mentions_isNull (mentions_not hpoint)
      next =>
        obtain ⟨_, _, h⟩ := bind_eq_ok.mp h
        obtain rfl := pure_eq_ok.mp h
        exact mentions_any (mentions_compareValue (by decide)) mentions_isNull

/-- To equal a value, or to be null in the place of it, is asked of the column once. -/
theorem mentions_equals (h : f.equals value = .ok p) : f.Mentions p 1 := by
  unfold equals at h
  split at h
  · obtain rfl := Except.ok.inj h
    exact mentions_isNull
  · obtain ⟨_, _, h⟩ := bind_eq_ok.mp h
    obtain rfl := pure_eq_ok.mp h
    exact mentions_compareValue (by decide)

/-! ## Lists of values -/

/-- Whether a list has a null among its members. -/
def hasNull (values : List Json) : Bool := values.any Json.isNull

/-- Whether a list has a member that is not null. -/
def hasValue (values : List Json) : Bool := values.any fun value => !value.isNull

/-- How often membership in a list names the column. A path is looked up once, and so is a column of
documents, where null is a member like others. Elsewhere the nulls and the other members of the list
are asked about apart, each only if there are any; a column of texts is asked about all the same. -/
def timesIsIn (f : FieldRef) (values : List Json) : Nat :=
  let apart := (hasNull values).toNat + (hasValue values).toNat
  if f.isPath then 1
  else if f.isArray then if f.isStringArray then max 1 apart else 1
  else apart

/-- How often membership in no list names the column. A path is not asked at all. Of an array both
the elements and whether it is there are asked; a list of scalars is compared with as one. -/
def timesNotIn (f : FieldRef) (values : List Json) : Nat :=
  if f.isPath then 0
  else if f.isArray then
    if f.isStringArray && !hasValue values then (hasNull values).toNat
    else if values.isEmpty then 0 else 2
  else if values.isEmpty then 0 else 1

/-- The name for whether a list has a null. -/
theorem any_isNull (values : List Json) : values.any Json.isNull = hasNull values := rfl

/-- Nothing is left of a list without its nulls just if it has nothing else. -/
theorem isEmpty_filter_not_isNull (values : List Json) :
    (values.filter fun value => !value.isNull).isEmpty = !hasValue values := by
  rw [hasValue, Bool.eq_iff_iff, List.isEmpty_iff, List.filter_eq_nil_iff]
  simp

/-- A list without any member that is not null is empty, or has a null. -/
theorem isEmpty_eq_not_hasNull (h : hasValue values = false) :
    values.isEmpty = !hasNull values := by
  cases values with
  | nil => rfl
  | cons value rest =>
    -- the first member is a null, as it is no other value
    have hnull : value.isNull = true := by
      have hall := List.any_eq_false.mp h value List.mem_cons_self
      simpa using hall
    simp [hasNull, hnull]

/-- A list with a value is not empty. -/
theorem not_isEmpty_of_hasValue (h : hasValue values = true) : values.isEmpty = false := by
  cases values with
  | nil => cases h
  | cons value rest => rfl

/-- The JSON at the end of a path is compared with the list as a whole. -/
theorem mentions_pathIsIn {out : Compiled} (hpath : f.isPath = true)
    (h : f.pathIsIn values = .ok out) : ∃ p, f.Mentions p 1 ∧ out = .ofPredicate p := by
  unfold pathIsIn at h
  split at h
  · cases h
  · obtain rfl := Except.ok.inj h
    -- the path is written as JSON here and as text in the column, with the same keys in quotes
    have hcolumn : f.column.quotes = pathQuotes f.name := by
      rw [column, if_pos hpath, (reads_path f.name true).quotes_eq]
    refine ⟨_, mentions_clause ?_, rfl⟩
    rw [hcolumn]
    exact (reads_path f.name false).parens.beside (joins_cast (by decide)) (Reads.bindJson _)

/-- Membership in a list names a column of arrays as often as the list has it asked. -/
theorem mentions_arrayIsIn (hpath : f.isPath = false) (harray : f.isArray = true) :
    f.Mentions (f.arrayIsIn values) (f.timesIsIn values) := by
  unfold arrayIsIn timesIsIn
  rw [hpath, harray]
  cases htexts : f.isStringArray with
  | false =>
    -- null is a member like others here, so the list is compared with as it is
    by_cases hempty : values.isEmpty
    · simpa [hempty] using mentions_isNull
    · simpa [hempty] using mentions_containsAny
  | true =>
    simp only [if_true, isEmpty_filter_not_isNull, any_isNull, Bool.and_true]
    cases hvalue : hasValue values with
    | false =>
      -- without members the column is asked about null once, named in the list or not
      have honce : max 1 (hasNull values).toNat = 1 := by
        cases hasNull values <;> rfl
      simpa [honce] using mentions_isNull
    | true =>
      by_cases hnull : hasNull values
      · simpa [hnull] using mentions_any mentions_isNull mentions_containsAny
      · simpa [hnull] using mentions_containsAny

/-- A list that has members to compare with is asked about beside whether the column is null. -/
theorem mentions_notContainsAny (members : List Json) (hasNull : Bool) :
    f.Mentions (if hasNull then .all [f.isNotNull, .not (f.containsAny members)]
      else .any [f.isNull, .not (f.containsAny members)]) 2 := by
  have hnone : f.Mentions (.not (f.containsAny members)) 1 := mentions_not mentions_containsAny
  cases hasNull with
  | true => exact mentions_all mentions_isNotNull hnone
  | false => exact mentions_any mentions_isNull hnone

/-- Membership in no list names a column of arrays as often as the list has it asked. -/
theorem mentions_arrayNotIn (hpath : f.isPath = false) (harray : f.isArray = true) :
    f.Mentions (f.arrayNotIn values) (f.timesNotIn values) := by
  unfold arrayNotIn timesNotIn
  rw [hpath, harray]
  cases htexts : f.isStringArray with
  | false =>
    by_cases hempty : values.isEmpty
    · obtain rfl := List.isEmpty_iff.mp hempty
      exact mentions_fixed (by decide)
    · simpa [hempty] using mentions_notContainsAny values (values.any Json.isNull)
  | true =>
    simp only [if_true, isEmpty_filter_not_isNull, any_isNull, Bool.true_and]
    cases hvalue : hasValue values with
    | true =>
      rw [not_isEmpty_of_hasValue hvalue]
      exact mentions_notContainsAny _ _
    | false =>
      by_cases hnull : hasNull values
      · simpa [hnull] using mentions_isNotNull
      · simpa [hnull] using mentions_fixed (show "1 = 1" ∈ digitStarters by decide)

/-- A list of values to compare with is bound, so the column is the only quoted part. -/
theorem mentions_listClause (hsign : sign ∈ signs) : f.Mentions (f.listClause sign values) 1 := by
  have hitems : ReadsAll (values.map (FieldType.comparand f.type)) [] := by
    constructor
    · exact List.forall_mem_map.mpr fun _ _ => (reads_comparand _ _).sound
    · exact List.flatMap_eq_nil_iff.mpr
        (List.forall_mem_map.mpr fun _ _ => (reads_comparand _ _).quotes_eq)
  exact mentions_compareWith hsign (hitems.join (joins_condition (by decide))).parens

/-- Membership in a list names a column of scalars once for the nulls and once for the other
members. -/
theorem mentions_scalarIsIn (hpath : f.isPath = false) (harray : f.isArray = false) :
    f.Mentions (f.scalarIsIn values) (f.timesIsIn values) := by
  unfold scalarIsIn timesIsIn
  simp only [hpath, harray, isEmpty_filter_not_isNull, any_isNull]
  have hlist : f.Mentions (f.listClause "IN" (values.filter fun v => !v.isNull)) 1 :=
    mentions_listClause (by decide)
  cases hvalue : hasValue values with
  | false =>
    by_cases hnull : hasNull values
    · simpa [hnull] using mentions_isNull
    · simpa [hnull] using mentions_fixed (show "1 = 2" ∈ digitStarters by decide)
  | true =>
    by_cases hnull : hasNull values
    · simpa [hnull] using mentions_any mentions_isNull hlist
    · simpa [hnull] using hlist

/-- Membership in no list names a column of scalars once, unless nothing is asked. -/
theorem mentions_scalarNotIn (hpath : f.isPath = false) (harray : f.isArray = false) :
    f.Mentions (f.scalarNotIn values) (f.timesNotIn values) := by
  unfold scalarNotIn timesNotIn
  simp only [hpath, harray, isEmpty_filter_not_isNull, any_isNull]
  cases hvalue : hasValue values with
  | true =>
    rw [not_isEmpty_of_hasValue hvalue]
    exact mentions_listClause (by decide)
  | false =>
    rw [isEmpty_eq_not_hasNull hvalue]
    by_cases hnull : hasNull values
    · simpa [hnull] using mentions_isNotNull
    · simpa [hnull] using mentions_fixed (show "1 = 1" ∈ digitStarters by decide)

/-- To hold all of a list is asked of the column once. -/
theorem mentions_containsAll : f.Mentions (f.containsAll values) 1 := by
  unfold containsAll
  split
  · exact mentions_compareWith (by decide) (reads_textArray _)
  · exact mentions_call (by decide) f.reads_column _

/-- To hold matches of all patterns is asked of the column once; the patterns are bound. -/
theorem mentions_containsAllMatches {patterns : List String} :
    f.Mentions (f.containsAllMatches patterns) 1 := by
  unfold containsAllMatches
  dsimp only
  split
  · have htarget := f.reads_column.after (joins_condition (s := "to_jsonb(") (by decide))
    exact mentions_call (by decide) (htarget.before (joins_condition (by decide))) _
  · exact mentions_call (by decide) f.reads_column _

/-! ## Texts and places -/

/-- A search binds its language twice and its term once, and names the column once. -/
theorem mentions_searchMatch (search : TextSearch) : f.Mentions (f.searchMatch search) 1 := by
  have hlanguage := (reads_bindText search.language).after
    (joins_condition (s := "to_tsvector(") (by decide))
  have hcolumn := hlanguage.between (joins_condition (s := "::regconfig, ") (by decide))
    f.reads_column
  have hagain := hcolumn.beside (joins_condition (s := ") @@ to_tsquery(") (by decide))
    (reads_bindText search.language)
  have hterm := hagain.beside (joins_condition (s := "::regconfig, ") (by decide))
    (reads_bindText search.term)
  exact mentions_clause (hterm.before (joins_condition (by decide)))

/-- A distance is read with the column in quotes, and the point bound. -/
theorem reads_distanceTo : Reads (f.distanceTo point) f.column.quotes := by
  have hcolumn := f.reads_column.after (joins_condition (s := "ST_DistanceSphere(") (by decide))
  have hpoint := hcolumn.beside (joins_condition (s := "::geometry, ") (by decide))
    (reads_point point)
  exact hpoint.before (joins_condition (by decide))

/-- To be within a distance is asked of the column once. -/
theorem mentions_withinDistance (radians : Float) :
    f.Mentions (f.withinDistance point radians) 1 :=
  mentions_clause (reads_distanceTo.beside (joins_condition (by decide)) (Reads.bind _))

/-- To lie in a shape is asked of the column once; the literal of the shape is bound. -/
theorem mentions_shapeClause {cast literal shape : String}
    (hsign : "::" ++ cast ++ " " ++ sign ++ " " ∈ castTexts) (hshape : "::" ++ shape ∈ castTexts) :
    f.Mentions (f.shapeClause cast sign literal shape) 1 := by
  have hboth := f.reads_column.beside (joins_cast hsign) (reads_bindText literal)
  exact mentions_clause (hboth.before (joins_cast hshape))

end FieldRef

/-! ## Operators -/

/-- What the clauses of a part of a query have in quotes. -/
def Compiled.Reads (compiled : Compiled) (q : List Quote) : Prop := ReadsAll compiled.clauses q

/-- A part of one condition has in quotes what the condition has. -/
theorem Compiled.reads_ofPredicate {p : Predicate} {q : List Quote} (h : ReadsAll p.clauses q) :
    Compiled.Reads (.ofPredicate p) q := by
  simpa [Compiled.Reads, Compiled.ofPredicate, Compiled.clauses] using h

namespace Operator

/-- The pattern that an operator writes out: without its blanks and comments if option `x` says so,
and in the form of the engine. -/
def patternQuotes : Operator → List Quote
  | .matchesPattern pattern options =>
    [⟨.literal, Text.Pattern.engineForm
      (if Text.contains options "x" then Text.Pattern.condense pattern else pattern)⟩]
  | _ => []

/-- How often an operator names the column of a field: once, but for the comparisons that ask about
null as well, and for the lists that ask nothing of the field. -/
def timesNamed (f : FieldRef) : Operator → Nat
  | .notEqual value => if value.isNull then 1 else 2
  | .isIn values => f.timesIsIn (FieldRef.flatten values)
  | .notIn values => f.timesNotIn (FieldRef.flatten values)
  | .containsAll values => if f.isArray || values.length == 1 then 1 else 0
  | _ => 1

/-- What an operator on a field puts in quotes: the column, as often as the operator names it, and
then its pattern. -/
def quotes (f : FieldRef) (column : List Quote) (operator : Operator) : List Quote :=
  copies column (operator.timesNamed f) ++ operator.patternQuotes

variable {f : FieldRef} {operator : Operator} {now : Timestamp} {out : Compiled} {p : Predicate}
  {n : Nat}

/-- An operator on a field compiled to something that has its quotes. -/
def ReadsAs (f : FieldRef) (operator : Operator) (out : Compiled) : Prop :=
  out.Reads (operator.quotes f f.column.quotes)

/-- A condition that names the column as often as its operator does. -/
theorem reads_of_mentions (h : f.Mentions p n) (hn : operator.timesNamed f = n)
    (hpattern : operator.patternQuotes = []) : operator.ReadsAs f (.ofPredicate p) := by
  rw [ReadsAs, quotes, hn, hpattern, List.append_nil]
  exact Compiled.reads_ofPredicate h

/-- An operator that asks nothing of its field. -/
theorem reads_nothing (hn : operator.timesNamed f = 0) (hpattern : operator.patternQuotes = []) :
    operator.ReadsAs f {} := by
  rw [ReadsAs, quotes, hn, hpattern]
  exact ReadsAll.nil

/-- The sort clause of a place is no condition, and so makes no difference here. -/
theorem reads_near {point : GeoPoint} {maxDistance : Option Float} {sorts : List Sql}
    (h : f.Mentions p 1) : (near point maxDistance).ReadsAs f ⟨[p], sorts⟩ := by
  have hreads : (near point maxDistance).ReadsAs f (.ofPredicate p) := reads_of_mentions h rfl rfl
  exact hreads

/-- A match has the column in quotes, and after it the pattern. -/
theorem reads_matchesPattern (pattern options : String) :
    (matchesPattern pattern options).ReadsAs f
      (.ofPredicate (f.matchesPattern pattern options)) := by
  have hsign : (if Text.contains options "i" then "~*" else "~") ∈ signs := by
    split <;> decide
  -- the pattern is the one operand that is written out: it is a quoted part of its own
  have hclause := f.reads_column.between (joins_sign hsign) (Reads.literal
    (Text.Pattern.engineForm
      (if Text.contains options "x" then Text.Pattern.condense pattern else pattern)))
  refine Compiled.reads_ofPredicate ?_
  simpa [FieldRef.matchesPattern, FieldRef.compareWith, quotes, timesNamed, patternQuotes] using
    ReadsAll.single hclause

/-- A tagged value of every kind is compared with the column once. -/
theorem mentions_equalsTagged {value : TaggedValue} (h : f.equalsTagged value = .ok p) :
    f.Mentions p 1 := by
  cases value with
  | pointer target written =>
    obtain rfl := Except.ok.inj h
    split
    · exact FieldRef.mentions_containsAny
    · exact FieldRef.mentions_compareWith (by decide) (FieldRef.reads_bindText _)
  | date iso =>
    obtain rfl := Except.ok.inj h
    exact FieldRef.mentions_compareWith (by decide)
      ((FieldRef.reads_bindText _).before (joins_cast (by decide)))
  | geoPoint point =>
    obtain rfl := Except.ok.inj h
    exact FieldRef.mentions_compareWith (by decide) (FieldRef.reads_point _)
  | polygon ring =>
    obtain ⟨literal, _, h⟩ := bind_eq_ok.mp h
    obtain rfl := pure_eq_ok.mp h
    exact FieldRef.mentions_compareWith (by decide)
      ((FieldRef.reads_bindText _).before (joins_cast (by decide)))
  | file name =>
    obtain rfl := Except.ok.inj h
    exact FieldRef.mentions_compareWith (by decide) (FieldRef.reads_bindText _)

/-- A bound is compared with the column once, be it a relative time or not. -/
theorem mentions_compareBound {comparator : Comparator} {bound : Json}
    (h : f.compareBound now comparator bound = .ok p) : f.Mentions p 1 := by
  have hsign : comparator.sign ∈ signs := by cases comparator <;> decide
  unfold FieldRef.compareBound at h
  split at h
  · obtain ⟨_, _, h⟩ := bind_eq_ok.mp h
    obtain rfl := pure_eq_ok.mp h
    exact FieldRef.mentions_compareValue hsign
  · obtain rfl := Except.ok.inj h
    exact FieldRef.mentions_compareValue hsign

/-- Membership in a list names the column as often as the list has it asked. -/
theorem reads_isIn {values : List Json} (h : f.isIn values = .ok out) :
    (isIn values).ReadsAs f out := by
  unfold FieldRef.isIn at h
  cases hpath : f.isPath with
  | true =>
    rw [hpath] at h
    obtain ⟨p, hp, rfl⟩ := FieldRef.mentions_pathIsIn hpath h
    refine reads_of_mentions hp ?_ rfl
    simp [timesNamed, FieldRef.timesIsIn, hpath]
  | false =>
    rw [hpath] at h
    obtain rfl := Except.ok.inj h
    cases harray : f.isArray with
    | true => exact reads_of_mentions (FieldRef.mentions_arrayIsIn hpath harray) rfl rfl
    | false => exact reads_of_mentions (FieldRef.mentions_scalarIsIn hpath harray) rfl rfl

/-- So does membership in no list; at the end of a path it asks nothing. -/
theorem reads_notIn (f : FieldRef) (values : List Json) :
    (notIn values).ReadsAs f (f.notIn values) := by
  unfold FieldRef.notIn
  cases hpath : f.isPath with
  | true => exact reads_nothing (by simp [timesNamed, FieldRef.timesNotIn, hpath]) rfl
  | false =>
    cases harray : f.isArray with
    | true => exact reads_of_mentions (FieldRef.mentions_arrayNotIn hpath harray) rfl rfl
    | false => exact reads_of_mentions (FieldRef.mentions_scalarNotIn hpath harray) rfl rfl

/-- A field that is no array is asked for all members of a list only if the list has one. -/
theorem reads_holdsAll {values : List Json} (h : f.holdsAll values = .ok out) :
    (containsAll values).ReadsAs f out := by
  unfold FieldRef.holdsAll at h
  cases harray : f.isArray with
  | false =>
    rw [harray] at h
    match values with
    | [only] =>
      obtain rfl := Except.ok.inj h
      refine reads_of_mentions (FieldRef.mentions_compareValue (by decide)) ?_ rfl
      simp [timesNamed]
    | [] | _ :: _ :: _ =>
      obtain rfl := Except.ok.inj h
      exact reads_nothing (by simp [timesNamed, harray]) rfl
  | true =>
    have hn : timesNamed f (containsAll values) = 1 := by simp [timesNamed, harray]
    simp only [harray, Bool.not_true, Bool.false_eq_true, if_false] at h
    split at h
    · obtain rfl := Except.ok.inj h
      exact reads_of_mentions FieldRef.mentions_containsAll hn rfl
    · split at h
      · cases h
      · obtain rfl := Except.ok.inj h
        exact reads_of_mentions FieldRef.mentions_containsAllMatches hn rfl

/-- Every operator compiles to something that has its quotes, and nothing else. -/
theorem reads_compile (h : f.compileOperator now operator = .ok out) :
    operator.ReadsAs f out := by
  cases operator with
  | notEqual value =>
    obtain ⟨p, hp, rfl⟩ := map_eq_ok.mp h
    exact reads_of_mentions (FieldRef.mentions_differs hp) rfl rfl
  | equal value =>
    obtain ⟨p, hp, rfl⟩ := map_eq_ok.mp h
    exact reads_of_mentions (FieldRef.mentions_equals hp) rfl rfl
  | isIn values => exact reads_isIn h
  | notIn values =>
    obtain rfl := Except.ok.inj h
    exact reads_notIn f values
  | containsAll values => exact reads_holdsAll h
  | isPresent expected =>
    obtain rfl := Except.ok.inj h
    refine reads_of_mentions ?_ rfl rfl
    split
    · exact FieldRef.mentions_isNotNull
    · exact FieldRef.mentions_isNull
  | containedBy values =>
    obtain rfl := Except.ok.inj h
    exact reads_of_mentions (FieldRef.mentions_compareWith (by decide) (Reads.bindJson _)) rfl rfl
  | matchesText search =>
    obtain rfl := Except.ok.inj h
    exact reads_of_mentions (FieldRef.mentions_searchMatch search) rfl rfl
  | near point maxDistance =>
    obtain rfl := Except.ok.inj h
    -- without a distance to keep to, the place only has to be there
    cases maxDistance with
    | none => exact reads_near FieldRef.mentions_isNotNull
    | some radians => exact reads_near (FieldRef.mentions_withinDistance radians)
  | inBox bottomLeft topRight =>
    obtain rfl := Except.ok.inj h
    exact reads_of_mentions (FieldRef.mentions_shapeClause (by decide) (by decide)) rfl rfl
  | inSphere point distance =>
    obtain rfl := Except.ok.inj h
    exact reads_of_mentions (FieldRef.mentions_withinDistance distance) rfl rfl
  | inPolygon points =>
    obtain rfl := Except.ok.inj h
    exact reads_of_mentions (FieldRef.mentions_shapeClause (by decide) (by decide)) rfl rfl
  | intersects point =>
    obtain rfl := Except.ok.inj h
    exact reads_of_mentions (FieldRef.mentions_shapeClause (by decide) (by decide)) rfl rfl
  | matchesPattern pattern options =>
    obtain rfl := Except.ok.inj h
    exact reads_matchesPattern pattern options
  | tagged value =>
    obtain ⟨p, hp, rfl⟩ := map_eq_ok.mp h
    exact reads_of_mentions (mentions_equalsTagged hp) rfl rfl
  | compare comparator bound =>
    obtain ⟨p, hp, rfl⟩ := map_eq_ok.mp h
    exact reads_of_mentions (mentions_compareBound hp) rfl rfl

end Operator

/-! ## Constraints -/

namespace Constraint

/-- What a constraint on a field puts in quotes: what its operators do, one after another; any other
constraint compares the column with one value. -/
def quotes (f : FieldRef) (column : List Quote) : Constraint → List Quote
  | .operators list => list.flatMap (Operator.quotes f column)
  | _ => column

end Constraint

namespace Compiler

variable {c : Compiler} {f : FieldRef} {value : Json} {constraint : Constraint} {out : Compiled}
  {name : String}

/-- A bare value is compared with the column once, whether or not the operand is cast. -/
theorem mentions_equalsScalar {operand : Sql} (h : Reads operand []) :
    f.Mentions (equalsScalar f value operand) 1 := by
  unfold equalsScalar
  split
  · exact FieldRef.mentions_compareWith (by decide)
      ((FieldRef.reads_bindText _).before (joins_cast (by decide)))
  · exact FieldRef.mentions_compareWith (by decide) h

/-- A text is compared with the column once, in lower case or as it is. -/
theorem mentions_equalsText (s : String) : f.Mentions (c.equalsText f s) 1 := by
  unfold equalsText
  split
  · have hcolumn := f.reads_column.after (joins_condition (s := "LOWER(") (by decide))
    have hboth := hcolumn.beside (joins_condition (s := ") = LOWER(") (by decide))
      (FieldRef.reads_bindText s)
    exact FieldRef.mentions_clause (hboth.before (joins_condition (by decide)))
  · exact mentions_equalsScalar (FieldRef.reads_comparand _ _)

/-- Operators that are compiled one after another have their quotes one after another. -/
theorem reads_concat {list : List Operator} {parts : List Compiled} {now : Timestamp}
    (h : List.Forall₂ (fun operator part => f.compileOperator now operator = .ok part) list parts) :
    (Compiled.concat parts).Reads (list.flatMap (Operator.quotes f f.column.quotes)) := by
  induction h with
  | nil => exact ReadsAll.nil
  | cons hoperator _ ih =>
    rw [Compiled.concat_cons, Compiled.Reads, Compiled.clauses_append, List.flatMap_cons]
    exact ReadsAll.append (Operator.reads_compile hoperator) ih

/-- A constraint compiles to something that has its quotes, and nothing else. -/
theorem reads_compileConstraint (h : c.compileConstraint f value constraint = .ok out) :
    out.Reads (constraint.quotes f f.column.quotes) := by
  -- the constraints that are no operators all compile to one condition on the column
  have hbare : ∀ {p : Predicate}, f.Mentions p 1 →
      Compiled.Reads (.ofPredicate p) f.column.quotes := by
    intro p hp
    rw [FieldRef.Mentions, copies_one] at hp
    exact Compiled.reads_ofPredicate hp
  cases constraint with
  | null =>
    obtain rfl := Except.ok.inj h
    exact hbare FieldRef.mentions_isNull
  | text s =>
    obtain rfl := Except.ok.inj h
    exact hbare (mentions_equalsText s)
  | number x =>
    obtain rfl := Except.ok.inj h
    exact hbare (mentions_equalsScalar (FieldRef.reads_comparand _ _))
  | flag b =>
    obtain rfl := Except.ok.inj h
    exact hbare (mentions_equalsScalar (Reads.bind _))
  | operators list =>
    obtain ⟨parts, hparts, h⟩ := bind_eq_ok.mp h
    obtain rfl := pure_eq_ok.mp h
    exact reads_concat (mapM_eq_ok.mp hparts)

/-! ## Queries -/

/-- The column of a field that a query names is its dotted name. -/
theorem quotes_fieldRef (c : Compiler) (name : String) :
    (c.fieldRef name).column.quotes = pathQuotes name :=
  (reads_field name true).quotes_eq

/-- What a query puts in quotes for one of its fields: what its constraint does, with the column
written as the dotted name has it. -/
def fieldQuotes (c : Compiler) (field : String × Json) : List Quote :=
  if c.asksNothing field.1 field.2 then []
  else match Constraint.ofJson field.2 with
    | .ok constraint => constraint.quotes (c.fieldRef field.1) (pathQuotes field.1)
    | .error _ => []

/-- What a query puts in quotes: what its fields do, in the order in which they are met. -/
def conditionQuotes (c : Compiler) (query : Object) : List Quote :=
  (leaves query).flatMap c.fieldQuotes

/-- A field compiles to something that has its quotes, and nothing else. -/
theorem reads_compileField (h : c.compileField name value = .ok out) :
    out.Reads (c.fieldQuotes (name, value)) := by
  unfold fieldQuotes
  obtain ⟨hasks, rfl⟩ | ⟨hasks, _, constraint, hread, hcompile⟩ := compileField_eq_ok.mp h
  · rw [if_pos hasks]
    exact ReadsAll.nil
  · have hreads := reads_compileConstraint hcompile
    rw [quotes_fieldRef] at hreads
    simpa [hasks, hread] using hreads

/-- Fields that are compiled one after another have their quotes one after another. -/
theorem reads_compileTo {fields : List (String × Json)} {parts : List Compiled}
    (h : c.CompileTo fields parts) :
    ReadsAll (parts.flatMap Compiled.clauses) (fields.flatMap c.fieldQuotes) := by
  induction h with
  | nil => exact ReadsAll.nil
  | cons hfield _ ih =>
    rw [List.flatMap_cons, List.flatMap_cons]
    exact ReadsAll.append (reads_compileField hfield) ih

/-- A query compiles to something that has its quotes, and nothing else. -/
theorem reads_compileEntries {query : Object} (h : c.compileEntries query = .ok out) :
    out.Reads (c.conditionQuotes query) := by
  obtain ⟨parts, hparts, hclauses, _⟩ := compileEntries_leaves h
  rw [Compiled.Reads, hclauses]
  exact reads_compileTo hparts

/-- The clauses of the condition of a query have its quotes, and nothing else. -/
theorem reads_condition {query : Object} {filter : Filter}
    (h : Filter.ofQuery c query = .ok filter) :
    ReadsAll (filter.predicate.toList.flatMap Predicate.clauses) (c.conditionQuotes query) := by
  obtain ⟨compiled, hcompile, h⟩ := bind_eq_ok.mp h
  obtain rfl := pure_eq_ok.mp h
  have hreads := reads_compileEntries hcompile
  cases hall : Predicate.all? compiled.predicates with
  | none =>
    -- nothing is asked, so there is no clause that could have anything in quotes
    have hnil : compiled.clauses = [] := by
      rw [Compiled.clauses, Predicate.all?_eq_none_iff.mp hall, List.flatMap_nil]
    rwa [Compiled.Reads, hnil] at hreads
  | some p =>
    have hclauses : p.clauses = compiled.clauses := Predicate.clauses_all? hall
    rw [Compiled.Reads, ← hclauses] at hreads
    simpa using hreads

/-- The condition of a query is written with its quotes, and nothing else. -/
theorem reads_ofQuery {query : Object} {filter : Filter}
    (h : Filter.ofQuery c query = .ok filter) :
    Sql.Reads filter.sql (c.conditionQuotes query) := by
  have hreads := reads_condition h
  unfold Filter.sql
  cases hp : filter.predicate with
  | none =>
    rw [hp] at hreads
    exact ⟨rfl, hreads.quotes_eq⟩
  | some p =>
    rw [hp] at hreads
    exact Predicate.reads_toSql (by simpa using hreads) false

end Compiler

end ObjectStore
