import ObjectStore.Aggregate.Plan
import ObjectStore.Proofs.Query.Mention

/-!
# What a pipeline puts in quotes

The statement of a pipeline has the columns of its output, the class, the fields of its conditions,
the keys of its group and the columns that it sorts by in quotes. What they are is read off the
stages: the last `$group` counts, and all `$match`, `$project` and `$sort`. `PlanReads` is what
holds of the plan after any number of stages; `PlanReads.adds` is one stage more.
-/

namespace ObjectStore.Aggregate

open Sql Result

/-! ## Groups -/

/-- A name in a pipeline without the mark of a reference. -/
def unmarked (name : String) : String :=
  match name.toList with
  | '$' :: rest => String.ofList rest
  | _ => name

/-- The column that a name in a pipeline stands for: the id and the timestamps may also be named
with an underscore. -/
def namedColumn (name : String) : String :=
  if unmarked name = "_created_at" then "createdAt"
  else if unmarked name = "_updated_at" then "updatedAt"
  else if unmarked name = "_id" then "objectId"
  else unmarked name

/-- The column that a reference to a field names, if it is one. -/
def referenceQuotes : Json → List Quote
  | .str text => [⟨.name, namedColumn text⟩]
  | _ => []

/-- What a part of a group key puts in quotes. -/
def partQuotes : Json → List Quote
  | .obj ((_, reference) :: _) => referenceQuotes reference
  | part => referenceQuotes part

/-- What rows are grouped by in quotes. -/
def keyQuotes : Json → List Quote
  | .obj parts => parts.flatMap fun part => partQuotes part.2
  | key => referenceQuotes key

/-- What the output columns of a group key put in quotes. -/
def keyColumnQuotes : Json → List Quote
  | .obj parts => parts.flatMap fun part => partQuotes part.2 ++ [⟨.name, part.1⟩]
  | key => referenceQuotes key ++ [⟨.name, objectIdField⟩]

/-- What the output columns of the accumulators of a field put in quotes. -/
def accumulatorQuotes (member : String × Json) : List Quote :=
  (member.2.obj?.getD []).flatMap fun operator => referenceQuotes operator.2 ++ [⟨.name, member.1⟩]

/-- What the output columns of a `$group` stage put in quotes. -/
def groupColumnQuotes (spec : Object) : List Quote :=
  ((spec.get? groupKeyField).map keyColumnQuotes).getD []
    ++ (spec.erase groupKeyField).flatMap accumulatorQuotes

/-- What the keys of a `$group` stage put in quotes. -/
def groupKeyQuotes (spec : Object) : List Quote :=
  ((spec.get? groupKeyField).map keyQuotes).getD []

variable {expression sql : Sql} {q : List Quote} {label field operator : String}
  {part reference key value : Json} {spec : Object} {group : Group}

/-- Taking the mark off as a start that may be there is taking it off by looking at the first
character. -/
theorem unmarked_eq (name : String) : (Text.dropStart? name "$").getD name = unmarked name := by
  rw [Text.dropStart?, unmarked, show "$".toList = ['$'] from rfl]
  cases name.toList with
  | nil => rfl
  | cons first rest =>
    by_cases hmark : first = '$'
    · subst hmark
      rfl
    · have hnone : Text.afterStart? ['$'] (first :: rest) = none := by
        rw [Text.afterStart?, if_neg (Ne.symm hmark)]
      rw [hnone]
      simp [hmark]

/-- The column that is written for a name is the one that the name stands for. -/
theorem columnOfName_eq (name : String) : columnOfName name = namedColumn name := by
  unfold columnOfName namedColumn
  rw [unmarked_eq]
  generalize unmarked name = field
  split
  next => rfl
  next => rfl
  next => rfl
  next hcreated hupdated hid => rw [if_neg hcreated, if_neg hupdated, if_neg hid]

/-- A column that goes by a name in a pipeline is read as what the name stands for. -/
theorem reads_columnOfName (name : String) :
    Reads (Sql.name (columnOfName name)) [⟨.name, namedColumn name⟩] := by
  rw [columnOfName_eq]
  exact Reads.name _

/-- An expression with a label has its own quotes and then the label. -/
theorem reads_labelled (h : Reads expression q) (label : String) :
    Reads (labelled expression label) (q ++ [⟨.name, label⟩]) :=
  h.between (joins_pipeline (s := " AS ") (by decide)) (Reads.name label)

/-- A reference to a field is read as the column that it names. -/
theorem reads_column {name : String} (h : column reference = .ok name) :
    Reads (Sql.name name) (referenceQuotes reference) := by
  cases reference with
  | str text =>
    obtain rfl := Except.ok.inj h
    exact reads_columnOfName text
  | _ => cases h

/-- Parts of dates are among those that are known. -/
theorem datePart?_mem {unit : String} (h : datePart? operator = some unit) : unit ∈ dateParts := by
  unfold datePart? at h
  split at h <;> simp_all [dateParts]

/-- What is written around a part of a date opens and closes no quotes. -/
theorem joins_extract {unit : String} (h : unit ∈ dateParts) :
    Joins ("EXTRACT(" ++ unit ++ " FROM ") :=
  joins_pipeline (List.mem_append_right _ (List.mem_map.mpr ⟨unit, h, rfl⟩))

/-- A part of a group key has the field that it refers to in quotes, by itself or as a part of a
date. -/
theorem reads_keyPart (h : keyPart label part = .ok sql) : Reads sql (partQuotes part) := by
  unfold keyPart at h
  split at h
  · obtain rfl := Except.ok.inj h
    exact reads_columnOfName _
  · cases h
  next operator reference _ =>
    split at h
    · cases h
    next unit hunit =>
      obtain ⟨name, hname, h⟩ := bind_eq_ok.mp h
      obtain rfl := pure_eq_ok.mp h
      exact ((reads_column hname).after (joins_extract (datePart?_mem hunit))).before
        (joins_pipeline (by decide))
  · cases h

/-- A group has the quotes of its stage in its columns and keys. -/
def GroupReads (group : Group) (spec : Object) : Prop :=
  ReadsAll group.columns (groupColumnQuotes spec) ∧ ReadsAll group.keys (groupKeyQuotes spec)

/-- The columns and the keys of a group have the parts of its key in quotes, the columns with their
labels. -/
theorem reads_groupBy (h : groupBy key = .ok group) :
    ReadsAll group.columns (keyColumnQuotes key) ∧ ReadsAll group.keys (keyQuotes key) := by
  cases key with
  | null =>
    obtain rfl := Except.ok.inj h
    exact ⟨ReadsAll.single (reads_labelled (Reads.text (joins_pipeline (by decide)).mem) _),
      ReadsAll.nil⟩
  | str text =>
    obtain rfl := Except.ok.inj h
    have hkey := reads_columnOfName text
    exact ⟨ReadsAll.single (reads_labelled hkey objectIdField), ReadsAll.single hkey⟩
  | obj parts =>
    obtain ⟨found, hfound, h⟩ := bind_eq_ok.mp h
    obtain rfl := pure_eq_ok.mp h
    have hparts : List.Forall₂ (fun (part : String × Json) (found : String × Sql) =>
        found.1 = part.1 ∧ Reads found.2 (partQuotes part.2)) parts found := by
      refine (mapM_eq_ok.mp hfound).imp ?_
      intro part answer h
      obtain ⟨sql, hsql, h⟩ := bind_eq_ok.mp h
      obtain rfl := pure_eq_ok.mp h
      exact ⟨rfl, reads_keyPart hsql⟩
    constructor
    · refine ReadsAll.of_forall₂ (List.forall₂_map_right_iff.mpr (hparts.imp ?_))
      rintro part answer ⟨hlabel, hreads⟩
      exact hlabel ▸ reads_labelled hreads _
    · exact ReadsAll.of_forall₂ (List.forall₂_map_right_iff.mpr (hparts.imp fun _ _ h => h.2))
  | _ => cases h

/-- The functions of accumulators are among the known texts. -/
theorem accumulator?_mem {function : String} (h : accumulator? operator = some function) :
    function ++ "(" ∈ pipelineTexts := by
  unfold accumulator? at h
  split at h <;> first
    | obtain rfl := Option.some.inj h
      decide
    | cases h

/-- The column of an accumulator has the field that it refers to in quotes, and its label. -/
theorem reads_accumulatorColumn (h : accumulatorColumn field operator reference = .ok sql) :
    Reads sql (referenceQuotes reference ++ [⟨.name, field⟩]) := by
  unfold accumulatorColumn at h
  split at h
  · cases h
  next function hfunction =>
    split at h
    next hcount =>
      obtain rfl := Except.ok.inj h
      -- a sum of what is no reference counts the rows and names no field
      have hnone : referenceQuotes reference = [] := by
        cases reference <;> simp_all [referenceQuotes, Json.str?]
      rw [hnone]
      exact reads_labelled (Reads.text (joins_pipeline (by decide)).mem) field
    next =>
      obtain ⟨name, hname, h⟩ := bind_eq_ok.mp h
      obtain rfl := pure_eq_ok.mp h
      have hcall := (reads_column hname).after (joins_pipeline (accumulator?_mem hfunction))
      exact reads_labelled (hcall.before (joins_condition (by decide))) field

/-- The columns of a field have what all of its accumulators put in quotes. -/
theorem reads_accumulatorColumns {columns : List Sql}
    (h : accumulatorColumns field value = .ok columns) :
    ReadsAll columns (accumulatorQuotes (field, value)) := by
  unfold accumulatorColumns at h
  split at h
  · cases h
  next operators hoperators =>
    rw [accumulatorQuotes, hoperators]
    exact ReadsAll.of_forall₂ ((mapM_eq_ok.mp h).imp fun _ _ h => reads_accumulatorColumn h)

/-- A `$group` stage puts its key and its accumulators in quotes. -/
theorem reads_groupOf (h : groupOf spec = .ok group) : GroupReads group spec := by
  unfold groupOf at h
  split at h
  · cases h
  next key hkey =>
    obtain ⟨keyed, hkeyed, h⟩ := bind_eq_ok.mp h
    obtain ⟨columns, hcolumns, h⟩ := bind_eq_ok.mp h
    obtain rfl := pure_eq_ok.mp h
    obtain ⟨hcolumn, hkeys⟩ := reads_groupBy hkeyed
    have haccumulators : ReadsAll columns.flatten
        ((spec.erase groupKeyField).flatMap accumulatorQuotes) := by
      rw [List.flatMap_def]
      exact ReadsAll.flatten (List.forall₂_map_right_iff.mpr
        ((mapM_eq_ok.mp hcolumns).imp fun _ _ h => reads_accumulatorColumns h).flip)
    simp only [GroupReads, groupColumnQuotes, groupKeyQuotes, hkey, Option.map_some,
      Option.getD_some]
    exact ⟨hcolumn.append haccumulators, hkeys⟩

/-! ## Stages -/

/-- The specifications of all stages with a name. -/
def specifications (name : String) (pipeline : List Json) : List Object :=
  pipeline.filterMap fun
    | .obj [(stage, .obj spec)] => if stage = name then some spec else none
    | _ => none

/-- Whether the value of a field in a `$project` stage takes the field in: one, or true. -/
def takesIn : Json → Bool
  | .int 1 | .bool true => true
  | _ => false

/-- What the fields that a `$project` stage takes in put in quotes. -/
def projectQuotes (spec : Object) : List Quote :=
  (spec.filter fun member => takesIn member.2).map fun member => ⟨.name, namedColumn member.1⟩

/-- What a `$sort` stage puts in quotes. -/
def sortQuotes (spec : Object) : List Quote := spec.map fun member => ⟨.name, namedColumn member.1⟩

/-- What a projection takes in is one or true, whichever form the test of it has. -/
theorem isIncluded_eq (value : Json) : isIncluded value = takesIn value := by
  cases value with
  | int n =>
    show ((n == 1) || false) = takesIn (.int n)
    by_cases hone : n = 1
    · subst hone
      rfl
    · simp [takesIn, hone]
  | bool flag => cases flag <;> rfl
  | null | double _ | str _ | arr _ | obj _ => rfl

/-- What the output of a pipeline puts in quotes: its last group, or else all projected columns. -/
def outputQuotes (pipeline : List Json) : List Quote :=
  match (specifications "$group" pipeline).getLast? with
  | some spec => groupColumnQuotes spec
  | none => (specifications "$project" pipeline).flatMap projectQuotes

/-- What the keys of the last group of a pipeline put in quotes. -/
def pipelineKeyQuotes (pipeline : List Json) : List Quote :=
  (((specifications "$group" pipeline).getLast?).map groupKeyQuotes).getD []

/-- What a pipeline over a class puts in quotes: its output, the class, all its conditions, the keys
of its group and what it sorts by. -/
def pipelineQuotes (c : Compiler) (className : String) (pipeline : List Json) : List Quote :=
  outputQuotes pipeline ++ [⟨.name, className⟩]
    ++ (specifications "$match" pipeline).flatMap c.conditionQuotes
    ++ pipelineKeyQuotes pipeline ++ (specifications "$sort" pipeline).flatMap sortQuotes

/-- What holds of the plan after some stages. -/
structure PlanReads (c : Compiler) (plan : Plan) (pipeline : List Json) : Prop where
  conditions : ReadsAll (plan.conditions.flatMap Predicate.clauses)
    ((specifications "$match" pipeline).flatMap c.conditionQuotes)
  columns : plan.columns.map (fun column => ⟨.name, column⟩)
    = (specifications "$project" pipeline).flatMap projectQuotes
  group : match plan.group with
    | none => (specifications "$group" pipeline).getLast? = none
    | some group => ∃ spec, (specifications "$group" pipeline).getLast? = some spec ∧
      GroupReads group spec
  sorting : ReadsAll plan.sorting ((specifications "$sort" pipeline).flatMap sortQuotes)

variable {c : Compiler} {plan next : Plan} {pipeline : List Json} {stage : String}

/-- The stages of two pipelines in a row are those of the first and then those of the second. -/
theorem specifications_append (name : String) (seen rest : List Json) :
    specifications name (seen ++ rest) = specifications name seen ++ specifications name rest :=
  List.filterMap_append

/-- The specification of a stage is an object. -/
theorem specification_eq_ok {stage : String} (h : specification stage value = .ok spec) :
    value = .obj spec := by
  unfold specification at h
  cases value <;> simp_all [Json.obj?]

/-- A sort clause has its column in quotes. -/
theorem reads_sortClause {direction : Json} (h : sortClause field direction = .ok sql) :
    Reads sql [⟨.name, namedColumn field⟩] := by
  unfold sortClause at h
  split at h
  · obtain rfl := Except.ok.inj h
    exact (reads_columnOfName field).before (joins_condition (by decide))
  · obtain rfl := Except.ok.inj h
    exact (reads_columnOfName field).before (joins_row (by decide))
  · cases h

/-- The empty plan has read no stages. -/
theorem planReads_empty : PlanReads c {} [] where
  conditions := ReadsAll.nil
  columns := rfl
  group := rfl
  sorting := ReadsAll.nil

/-- A stage is among those of its name. -/
theorem specifications_same (stage : String) (spec : Object) :
    specifications stage [.obj [(stage, .obj spec)]] = [spec] := by
  simp [specifications]

/-- A stage is not among those of another name. -/
theorem specifications_other {name : String} (hne : stage ≠ name) (value : Json) :
    specifications name [.obj [(stage, value)]] = [] := by
  cases value <;> simp [specifications, hne]

/-- A stage changes nothing that is read off the stages with another name. -/
theorem specifications_keep {name : String} (hne : stage ≠ name) (pipeline : List Json)
    (value : Json) : specifications name (pipeline ++ [.obj [(stage, value)]])
      = specifications name pipeline := by
  rw [specifications_append, specifications_other hne, List.append_nil]

/-- A stage behind others is the last of its name. -/
theorem specifications_snoc (pipeline : List Json) (stage : String) (spec : Object) :
    specifications stage (pipeline ++ [.obj [(stage, .obj spec)]])
      = specifications stage pipeline ++ [spec] := by
  rw [specifications_append, specifications_same]

/-- What one stage more makes of a plan. -/
inductive Plan.Adds (c : Compiler) (plan : Plan) : String → Json → Plan → Prop
  | condition {spec : Object} {filter : Filter} (h : Filter.ofQuery c spec = .ok filter) :
    Adds c plan "$match" (.obj spec)
      { plan with conditions := plan.conditions ++ filter.predicate.toList }
  | group {spec : Object} {group : Group} (h : groupOf spec = .ok group) :
    Adds c plan "$group" (.obj spec) { plan with group := some group }
  | projection (spec : Object) :
    Adds c plan "$project" (.obj spec)
      { plan with columns := plan.columns ++
          (spec.filter fun member => isIncluded member.2).map fun member => columnOfName member.1 }
  | sorting {spec : Object} {clauses : List Sql}
      (h : spec.mapM (fun (field, direction) => sortClause field direction) = .ok clauses) :
    Adds c plan "$sort" (.obj spec) { plan with sorting := plan.sorting ++ clauses }
  | limit (value : Json) (n : Int64) : Adds c plan "$limit" value { plan with limit := some n }
  | offset (value : Json) (n : Int64) : Adds c plan "$skip" value { plan with offset := some n }

/-- A stage that is added without failure does one of these. -/
theorem Plan.adds_of_addStage (h : plan.addStage c stage value = .ok next) :
    Plan.Adds c plan stage value next := by
  -- one case for each name of a stage; any other name fails
  unfold Plan.addStage at h
  split at h
  · obtain ⟨spec, hspec, h⟩ := bind_eq_ok.mp h
    obtain ⟨filter, hfilter, h⟩ := bind_eq_ok.mp h
    obtain rfl := pure_eq_ok.mp h
    obtain rfl := specification_eq_ok hspec
    exact .condition hfilter
  · obtain ⟨spec, hspec, h⟩ := bind_eq_ok.mp h
    obtain ⟨group, hgroup, h⟩ := bind_eq_ok.mp h
    obtain rfl := pure_eq_ok.mp h
    obtain rfl := specification_eq_ok hspec
    exact .group hgroup
  · obtain ⟨spec, hspec, h⟩ := bind_eq_ok.mp h
    obtain rfl := pure_eq_ok.mp h
    obtain rfl := specification_eq_ok hspec
    exact .projection spec
  · obtain ⟨spec, hspec, h⟩ := bind_eq_ok.mp h
    obtain ⟨clauses, hclauses, h⟩ := bind_eq_ok.mp h
    obtain rfl := pure_eq_ok.mp h
    obtain rfl := specification_eq_ok hspec
    exact .sorting hclauses
  · obtain ⟨n, -, h⟩ := bind_eq_ok.mp h
    obtain rfl := pure_eq_ok.mp h
    exact .limit value n
  · obtain ⟨n, -, h⟩ := bind_eq_ok.mp h
    obtain rfl := pure_eq_ok.mp h
    exact .offset value n
  · cases h

/-- What holds of the empty plan, and of a plan with one more stage if it holds before, holds of the
plan of a pipeline. -/
theorem Plan.ofPipeline_induction {P : List Json → Plan → Prop} (hempty : P [] {})
    (hstep : ∀ seen plan stage value next, P seen plan → Plan.Adds c plan stage value next →
      P (seen ++ [.obj [(stage, value)]]) next)
    (h : Plan.ofPipeline c pipeline = .ok plan) : P pipeline plan := by
  refine foldlM_induction hempty ?_ h
  intro seen before document after hbefore hafter
  unfold Plan.addDocument at hafter
  split at hafter
  · exact hstep seen before _ _ after hbefore (adds_of_addStage hafter)
  · cases hafter

/-- One stage more. -/
theorem PlanReads.adds (hplan : PlanReads c plan pipeline) (h : Plan.Adds c plan stage value next) :
    PlanReads c next (pipeline ++ [.obj [(stage, value)]]) := by
  obtain ⟨hconditions, hcolumns, hgroup, hsorting⟩ := hplan
  cases h with
  | @condition spec filter hfilter =>
    -- a condition is joined with those before it
    have hcondition := Compiler.reads_condition hfilter
    refine ⟨?_, ?_, ?_, ?_⟩
    · rw [specifications_snoc, List.flatMap_append]
      simpa using hconditions.append hcondition
    · rwa [specifications_keep (by decide)]
    · rwa [specifications_keep (by decide)]
    · rwa [specifications_keep (by decide)]
  | @group spec group hnew =>
    -- a group takes the place of the one before it
    refine ⟨?_, ?_, ⟨spec, ?_, reads_groupOf hnew⟩, ?_⟩
    · rwa [specifications_keep (by decide)]
    · rwa [specifications_keep (by decide)]
    · rw [specifications_snoc, List.getLast?_concat]
    · rwa [specifications_keep (by decide)]
  | projection spec =>
    -- projected columns and sort clauses go behind those before them
    refine ⟨?_, ?_, ?_, ?_⟩
    · rwa [specifications_keep (by decide)]
    · rw [specifications_snoc, List.flatMap_append, ← hcolumns]
      simp [projectQuotes, isIncluded_eq, columnOfName_eq]
    · rwa [specifications_keep (by decide)]
    · rwa [specifications_keep (by decide)]
  | @sorting spec clauses hclauses =>
    refine ⟨?_, ?_, ?_, ?_⟩
    · rwa [specifications_keep (by decide)]
    · rwa [specifications_keep (by decide)]
    · rwa [specifications_keep (by decide)]
    · have hnew : ReadsAll clauses (sortQuotes spec) := by
        have hall := ReadsAll.of_forall₂ ((mapM_eq_ok.mp hclauses).imp
          fun _ _ h => reads_sortClause h)
        rwa [sortQuotes, List.map_eq_flatMap]
      rw [specifications_snoc, List.flatMap_append]
      simpa using hsorting.append hnew
  -- a limit and an offset are numbers, which put nothing in quotes
  | limit | offset =>
    refine ⟨?_, ?_, ?_, ?_⟩ <;> rwa [specifications_keep (by decide)]

/-- The plan of a pipeline has read all its stages. -/
theorem planReads_ofPipeline (h : Plan.ofPipeline c pipeline = .ok plan) :
    PlanReads c plan pipeline :=
  Plan.ofPipeline_induction (P := fun seen plan => PlanReads c plan seen) planReads_empty
    (fun _ _ _ _ _ hplan hadds => hplan.adds hadds) h

/-! ## The statement -/

variable {a : Sql} {r : List Quote} {parts : List Sql} {word : String}

/-- A clause that is left out where it is empty has the quotes of its parts. -/
theorem reads_clauseUnlessEmpty (ha : Reads a r) (hword : Joins word) (h : ReadsAll parts q) :
    Reads (a ++ Plan.clauseUnlessEmpty word parts) (r ++ q) :=
  h.unlessEmpty ha hword

/-- A bound number of rows puts nothing in quotes. -/
theorem reads_countClause (ha : Reads a r) (hword : Joins word) (n : Option Int64) :
    Reads (a ++ Plan.countClause word n) r := by
  cases n with
  | none => simpa [Plan.countClause] using ha
  | some n => simpa [Plan.countClause] using ha.beside hword (Reads.bind (.integer n))

/-- The conditions of a plan are read as one, in the order of their stages. -/
theorem reads_whereClause (ha : Reads a r)
    (h : ReadsAll (plan.conditions.flatMap Predicate.clauses) q) :
    Reads (a ++ match plan.condition with
      | some predicate => Sql.text " WHERE " ++ predicate.sql
      | none => []) (r ++ q) := by
  unfold Plan.condition
  cases hall : Predicate.all? plan.conditions with
  | none =>
    -- without conditions there is no clause, and there is nothing to quote
    rw [Predicate.all?_eq_none_iff.mp hall] at h
    have hq : [] = q := h.quotes_eq
    simpa [← hq] using ha
  | some p =>
    have hp : Reads p.sql q :=
      Predicate.reads_toSql (by rwa [Predicate.clauses_all? hall]) false
    simpa using ha.between (joins_row (s := " WHERE ") (by decide)) hp

/-- The output of a plan is its group, or what it projects, or whole rows. -/
theorem reads_output (h : PlanReads c plan pipeline) :
    Reads plan.output (outputQuotes pipeline) := by
  have hgroup := h.group
  unfold Plan.output outputQuotes
  cases hg : plan.group with
  | some group =>
    rw [hg] at hgroup
    obtain ⟨spec, hspec, hreads⟩ := hgroup
    rw [hspec]
    exact hreads.1.join (joins_condition (by decide))
  | none =>
    rw [hg] at hgroup
    have hnone : (specifications "$group" pipeline).getLast? = none := hgroup
    rw [hnone]
    have hnames := ReadsAll.map plan.columns fun column _ => Reads.name column
    have hcolumns := h.columns
    rw [List.map_eq_flatMap] at hcolumns
    rw [hcolumns] at hnames
    dsimp only
    split
    next hempty =>
      -- without a group and a projection, whole rows come out
      rw [List.isEmpty_iff.mp hempty] at hnames
      exact (hnames.quotes_eq : [] = _) ▸ Reads.text (joins_row (by decide)).mem
    next => exact hnames.join (joins_condition (by decide))

/-- The statement of a pipeline has only what its stages put in quotes, and the class. -/
theorem reads_ofPipeline (className : String) (h : Plan.ofPipeline c pipeline = .ok plan) :
    Reads (plan.sql className) (pipelineQuotes c className pipeline) := by
  have hplan := planReads_ofPipeline h
  have hconditions := hplan.conditions
  have hkeys : ReadsAll ((plan.group.map Group.keys).getD []) (pipelineKeyQuotes pipeline) := by
    have hgroup := hplan.group
    unfold pipelineKeyQuotes
    cases hg : plan.group with
    | none =>
      rw [hg] at hgroup
      have hnone : (specifications "$group" pipeline).getLast? = none := hgroup
      rw [hnone]
      exact ReadsAll.nil
    | some group =>
      rw [hg] at hgroup
      obtain ⟨spec, hspec, hreads⟩ := hgroup
      rw [hspec]
      exact hreads.2
  have hselect := (reads_output hplan).after (joins_pipeline
    (s := "SELECT row_to_json(a) AS \"_row\" FROM (SELECT ") (by decide))
  have hfrom := hselect.between (joins_row (s := " FROM ") (by decide)) (Reads.name className)
  have hwhere := reads_whereClause hfrom hconditions
  have hgrouped := reads_clauseUnlessEmpty hwhere
    (joins_pipeline (s := " GROUP BY ") (by decide)) hkeys
  have hsorted := reads_clauseUnlessEmpty hgrouped
    (joins_row (s := " ORDER BY ") (by decide)) hplan.sorting
  have hlimit := reads_countClause hsorted (joins_row (s := " LIMIT ") (by decide)) plan.limit
  have hoffset := reads_countClause hlimit (joins_row (s := " OFFSET ") (by decide)) plan.offset
  exact hoffset.before (joins_pipeline (by decide))

end ObjectStore.Aggregate
