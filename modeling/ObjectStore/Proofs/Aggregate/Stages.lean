import Mathlib.Data.List.Induction
import ObjectStore.Aggregate.Plan
import ObjectStore.Proofs.Result
import ObjectStore.Proofs.Sql.Truth
import ObjectStore.Proofs.Sql.Windows

/-!
# Pipelines stage by stage

A pipeline is planned as one statement, which has one place for conditions, one for sort keys and
one each for a limit and an offset. Running the stages of the pipeline one after another is another
thing: a stage works on what the one before it left, and a later sort undoes an earlier one.

Both leave open how rows are arranged that no sort tells apart, so they are compared by all that
they may answer, on an engine that reads conditions and sort keys as a `RowReading` says.
-/

namespace ObjectStore

variable {ρ : Type}

/-- How an engine reads statements on rows of some kind: what clauses come to on a row, and which of
two rows comes first by a sort key. -/
structure RowReading (ρ : Type) where
  valuation : ρ → Valuation
  compare : Sql → ρ → ρ → Ordering
  lawful : ∀ key, Std.TransCmp (compare key)

namespace RowReading

/-- Whether all of some predicates are true on a row. -/
def keeps (reading : RowReading ρ) (predicates : List Predicate) (row : ρ) : Bool :=
  predicates.all fun predicate => predicate.truth (reading.valuation row) == some true

/-- The order by some keys; each tells apart what those before it do not. -/
def order (reading : RowReading ρ) : List Sql → ρ → ρ → Ordering
  | [], _, _ => .eq
  | key :: rest, a, b => (reading.compare key a b).then (reading.order rest a b)

instance (reading : RowReading ρ) (keys : List Sql) : Std.TransCmp (reading.order keys) := by
  induction keys with
  | nil => exact { eq_swap := rfl, isLE_trans := fun _ _ => rfl }
  | cons key rest ih =>
    have hkey := reading.lawful key
    exact inferInstanceAs (Std.TransCmp (compareLex (reading.compare key) (reading.order rest)))

end RowReading

namespace Aggregate

/-- A stage that leaves rows as they are. -/
inductive Stage where
  | condition (predicate : Option Predicate)
  | sort (keys : List Sql)
  | limit (count : Int64)
  | skip (count : Int64)

namespace Stage

/-- The operators of these stages. -/
def operators : List String := ["$match", "$sort", "$limit", "$skip"]

/-- Reads the stage of an operator, as it is read for a plan. -/
def read (compiler : Compiler) (operator : String) (value : Json) : Result Stage :=
  match operator with
  | "$match" => do
    let filter ← Filter.ofQuery compiler (← specification operator value)
    pure (.condition filter.predicate)
  | "$sort" => do
    let keys ← (← specification operator value).mapM fun (field, direction) =>
      sortClause field direction
    pure (.sort keys)
  | "$limit" => do pure (.limit (← rowCount operator value))
  | "$skip" => do pure (.skip (← rowCount operator value))
  | other => .error (.invalidQuery (.unknownStage other))

/-- A pipeline consists of stages with these operators. -/
def Consists (pipeline : List Json) : Prop :=
  ∀ document ∈ pipeline, ∃ operator ∈ operators, ∃ value, document = .obj [(operator, value)]

/-- Reads a stage. -/
def ofDocument (compiler : Compiler) : Json → Result Stage
  | .obj [(operator, value)] => read compiler operator value
  | _ => .error (.invalidQuery .stageShape)

/-- A number of rows. -/
def count (n : Int64) : Nat := n.toInt.toNat

end Stage

/-- The plan with one more stage. -/
def Plan.add (plan : Plan) : Stage → Plan
  | .condition predicate => { plan with conditions := plan.conditions ++ predicate.toList }
  | .sort keys => { plan with sorting := plan.sorting ++ keys }
  | .limit n => { plan with limit := some n }
  | .skip n => { plan with offset := some n }

open Result

variable {compiler : Compiler} {plan : Plan} {pipeline : List Json} {stages early late : List Stage}

/-- One of these stages is read as it is planned. -/
theorem Plan.addStage_eq {operator : String} (h : operator ∈ Stage.operators) (compiler : Compiler)
    (plan : Plan) (value : Json) :
    plan.addStage compiler operator value = (Stage.read compiler operator value).map plan.add := by
  simp only [Stage.operators, List.mem_cons, List.not_mem_nil, or_false] at h
  rcases h with rfl | rfl | rfl | rfl
  · simp only [addStage, Stage.read]
    cases specification "$match" value with
    | error e => rfl
    | ok spec =>
      cases hfilter : Filter.ofQuery compiler spec <;> simp [bind, Except.bind, hfilter] <;> rfl
  · simp only [addStage, Stage.read]
    cases specification "$sort" value with
    | error e => rfl
    | ok spec =>
      simp only [bind, Except.bind]
      cases List.mapM (fun x => sortClause x.1 x.2) spec <;> rfl
  · simp only [addStage, Stage.read]
    cases rowCount "$limit" value <;> rfl
  · simp only [addStage, Stage.read]
    cases rowCount "$skip" value <;> rfl

/-- A pipeline of these stages is planned as its stages are. -/
theorem Plan.ofPipeline_eq_ok
    (hconsists : Stage.Consists pipeline) (h : Plan.ofPipeline compiler pipeline = .ok plan) :
    ∃ stages, pipeline.mapM (Stage.ofDocument compiler) = .ok stages ∧
      plan = stages.foldl Plan.add {} := by
  unfold ofPipeline at h
  generalize ({} : Plan) = start at h ⊢
  induction pipeline generalizing start with
  | nil => exact ⟨[], rfl, (pure_eq_ok.mp h).symm⟩
  | cons document rest ih =>
    obtain ⟨⟨operator, hoperator, value, rfl⟩, hrest⟩ := List.forall_mem_cons.mp hconsists
    rw [List.foldlM_cons] at h
    obtain ⟨next, hnext, h⟩ := bind_eq_ok.mp h
    rw [addDocument, addStage_eq hoperator] at hnext
    cases hread : Stage.read compiler operator value with
    | error e =>
      rw [hread] at hnext
      exact nomatch hnext
    | ok stage =>
      rw [hread] at hnext
      obtain rfl := Except.ok.inj hnext
      obtain ⟨stages, hstages, rfl⟩ := ih hrest (start.add stage) h
      refine ⟨stage :: stages, ?_, rfl⟩
      rw [List.mapM_cons, Stage.ofDocument, hread, hstages]
      rfl

/-! ## What stages ask for together -/

namespace Stage

/-- The condition of a stage. -/
def predicates : Stage → List Predicate
  | .condition predicate => predicate.toList
  | _ => []

/-- The sort keys of a stage. -/
def keys : Stage → List Sql
  | .sort keys => keys
  | _ => []

/-- Whether a stage counts rows. -/
def counts : Stage → Bool
  | .limit _ | .skip _ => true
  | .condition _ | .sort _ => false

/-- The keys that rows are sorted by after one more stage. -/
def lastKeys (last : List Sql) : Stage → List Sql
  | .sort (key :: rest) => key :: rest
  | _ => last

/-- A window after one more stage. -/
def window (w : Window) : Stage → Window
  | .limit n => w.take (count n)
  | .skip n => w.drop (count n)
  | _ => w

end Stage

namespace Plan

/-- The window of a plan. -/
def window (plan : Plan) : Window := ⟨plan.offset.elim 0 Stage.count, plan.limit.map Stage.count⟩

/-- Conditions are gathered from stage to stage. -/
theorem conditions_foldl_add (plan : Plan) (stages : List Stage) :
    (stages.foldl add plan).conditions = plan.conditions ++ stages.flatMap Stage.predicates := by
  induction stages generalizing plan with
  | nil => simp
  | cons stage rest ih => cases stage <;> simp [ih, add, Stage.predicates]

/-- Sort keys are gathered from stage to stage, later ones behind earlier ones. -/
theorem sorting_foldl_add (plan : Plan) (stages : List Stage) :
    (stages.foldl add plan).sorting = plan.sorting ++ stages.flatMap Stage.keys := by
  induction stages generalizing plan with
  | nil => simp
  | cons stage rest ih => cases stage <;> simp [ih, add, Stage.keys]

/-- What a statement with the plan may answer on a table. -/
def Answers (reading : RowReading ρ) (plan : Plan) (table out : List ρ) : Prop :=
  Shows (reading.order plan.sorting) plan.window
    (table.filter (reading.keeps plan.condition.toList)) out

/-- The one condition of a plan keeps the rows on which all of its conditions are true. -/
theorem keeps_condition (reading : RowReading ρ) (plan : Plan) :
    reading.keeps plan.condition.toList = reading.keeps plan.conditions := by
  funext row
  rw [Bool.eq_iff_iff]
  cases hcondition : plan.condition with
  | none =>
    rw [Predicate.all?_eq_none_iff.mp hcondition]
    rfl
  | some predicate =>
    simp [RowReading.keeps, Predicate.truth_all?_eq_true hcondition]

end Plan

/-! ## Stages one after another -/

namespace Stage

/-- What a stage may make of some rows. -/
def Yields (reading : RowReading ρ) (rows out : List ρ) : Stage → Prop
  | .condition predicate => out = rows.filter (reading.keeps predicate.toList)
  | .sort [] => out = rows
  | .sort keys => out.Perm rows ∧ Arranged (reading.order keys) out
  | .limit n => out = rows.take (count n)
  | .skip n => out = rows.drop (count n)

/-- What stages may make of some rows, one after another. -/
def Run (reading : RowReading ρ) : List Stage → List ρ → List ρ → Prop
  | [], rows, out => out = rows
  | stage :: rest, rows, out => ∃ between, stage.Yields reading rows between ∧
    Run reading rest between out

/-- What stages may answer on a table, which is read in any order. -/
def Answer (reading : RowReading ρ) (stages : List Stage) (table out : List ρ) : Prop :=
  ∃ scanned, scanned.Perm table ∧ Run reading stages scanned out

variable {reading : RowReading ρ} {rows out table : List ρ}

/-- Stages run in two parts, the second on what the first leaves. -/
theorem run_append : Run reading (early ++ late) rows out ↔
    ∃ between, Run reading early rows between ∧ Run reading late between out := by
  induction early generalizing rows with
  | nil => simp [Run]
  | cons stage rest ih =>
    simp only [List.cons_append, Run, ih]
    constructor
    · rintro ⟨between, hstage, between', hrest, hlate⟩
      exact ⟨between', ⟨between, hstage, hrest⟩, hlate⟩
    · rintro ⟨between', ⟨between, hstage, hrest⟩, hlate⟩
      exact ⟨between, hstage, between', hrest, hlate⟩

/-- Stages that count rows cut a window out of them. -/
theorem run_counts (h : ∀ stage ∈ late, stage.counts) (w : Window) :
    Run reading late (w.rows rows) out ↔ out = (late.foldl window w).rows rows := by
  induction late generalizing w with
  | nil => rfl
  | cons stage rest ih =>
    have ⟨hstage, hrest⟩ := List.forall_mem_cons.mp h
    cases stage with
    | limit n => simp [Run, Yields, window, ← ih hrest, Window.rows_take]
    | skip n => simp [Run, Yields, window, ← ih hrest, Window.rows_drop]
    | condition | sort => exact nomatch hstage

/-- What stages in two parts answer is what the second part makes of an answer of the first. -/
theorem answer_append : Answer reading (early ++ late) table out ↔
    ∃ between, Answer reading early table between ∧ Run reading late between out := by
  simp only [Answer, run_append]
  constructor
  · rintro ⟨scanned, hscanned, between, hearly, hlate⟩
    exact ⟨between, ⟨scanned, hscanned, hearly⟩, hlate⟩
  · rintro ⟨between, ⟨scanned, hscanned, hearly⟩, hlate⟩
    exact ⟨scanned, hscanned, between, hearly, hlate⟩

/-- A single stage leaves what it yields. -/
theorem run_singleton {stage : Stage} :
    Run reading [stage] rows out ↔ stage.Yields reading rows out := by
  constructor
  · rintro ⟨between, hstage, rfl⟩
    exact hstage
  · intro hstage
    exact ⟨out, hstage, rfl⟩

section Arranged

variable {order order' : ρ → ρ → Ordering} [Std.TransCmp order]

/-- A condition may come after rows are arranged as well as before. -/
theorem exists_arranged_filter_iff (keeps : ρ → Bool) :
    (∃ arranged, (arranged.Perm rows ∧ Arranged order arranged) ∧ out = arranged.filter keeps) ↔
      out.Perm (rows.filter keeps) ∧ Arranged order out := by
  constructor
  · rintro ⟨arranged, ⟨hperm, harranged⟩, rfl⟩
    exact ⟨hperm.filter _, harranged.sublist List.filter_sublist⟩
  · rintro ⟨hperm, harranged⟩
    -- the rows that are not kept are put in wherever the order wants them
    have hsplit : (out ++ rows.filter (!keeps ·)).Perm rows :=
      (hperm.append_right _).trans (List.filter_append_perm keeps rows)
    obtain ⟨arranged, hperm', harranged', hsublist⟩ :=
      exists_arranged harranged (List.sublist_append_left out (rows.filter (!keeps ·)))
    have hrows := hperm'.trans hsplit
    have hkept : out.filter keeps = out := List.filter_eq_self.mpr fun row hmem =>
      (List.mem_filter.mp (hperm.subset hmem)).2
    refine ⟨arranged, ⟨hrows, harranged'⟩, List.Sublist.eq_of_length ?_ ?_⟩
    · exact hkept ▸ hsublist.filter keeps
    · rw [hperm.length_eq, (hrows.filter keeps).length_eq]

/-- Rows that are sorted again are in the later order only. -/
theorem exists_arranged_arranged_iff :
    (∃ arranged, (arranged.Perm rows ∧ Arranged order arranged) ∧
        out.Perm arranged ∧ Arranged order' out) ↔ out.Perm rows ∧ Arranged order' out := by
  constructor
  · rintro ⟨arranged, ⟨hperm, -⟩, hout, harranged⟩
    exact ⟨hout.trans hperm, harranged⟩
  · rintro ⟨hout, harranged⟩
    have hempty : Arranged order [] := .nil
    obtain ⟨arranged, hperm, hsorted, -⟩ := exists_arranged hempty (List.nil_sublist rows)
    exact ⟨arranged, ⟨hperm, hsorted⟩, hout.trans hperm.symm, harranged⟩

end Arranged

/-- Stages that do not count rows keep those on which all of their conditions are true, and arrange
them by the keys of the last sort that has any. -/
theorem answer_early_iff (h : ∀ stage ∈ early, stage.counts = false) :
    Answer reading early table out ↔
      out.Perm (table.filter (reading.keeps (early.flatMap predicates))) ∧
        Arranged (reading.order (early.foldl lastKeys [])) out := by
  induction early using List.reverseRecOn generalizing out with
  | nil =>
    have hall : table.filter (reading.keeps []) = table := List.filter_eq_self.mpr fun _ _ => rfl
    have harranged : Arranged (reading.order []) out := List.pairwise_of_forall fun _ _ => rfl
    simp only [Answer, Run, List.flatMap_nil, hall, List.foldl_nil, harranged, and_true]
    constructor
    · rintro ⟨scanned, hperm, rfl⟩
      exact hperm
    · intro hperm
      exact ⟨out, hperm, rfl⟩
  -- the last stage works on what the stages before it may answer
  | append_singleton stages stage ih =>
    obtain ⟨hstages, hstage⟩ := List.forall_mem_append.mp h
    rw [answer_append]
    simp only [run_singleton, ih hstages, List.foldl_append, List.foldl_cons, List.foldl_nil,
      List.flatMap_append, List.flatMap_singleton]
    cases stage with
    | condition predicate =>
      have hfilter : table.filter (reading.keeps (stages.flatMap predicates ++ predicate.toList))
          = (table.filter (reading.keeps (stages.flatMap predicates))).filter
            (reading.keeps predicate.toList) := by
        rw [List.filter_filter]
        refine List.filter_congr ?_
        intro row _
        simp [RowReading.keeps, Bool.and_comm]
      simp only [Yields, predicates, lastKeys, hfilter]
      exact exists_arranged_filter_iff _
    | sort keys =>
      simp only [predicates, List.append_nil]
      cases keys with
      | nil => simp [Yields, lastKeys]
      | cons key rest => exact exists_arranged_arranged_iff
    | limit | skip => exact nomatch hstage _ (List.mem_singleton_self _)

/-- If all stages that count rows come last, stages show a window on the rows that they keep. -/
theorem answer_append_iff (hearly : ∀ stage ∈ early, stage.counts = false)
    (hlate : ∀ stage ∈ late, stage.counts) :
    Answer reading (early ++ late) table out ↔
      Shows (reading.order (early.foldl lastKeys [])) (late.foldl window {})
        (table.filter (reading.keeps (early.flatMap predicates))) out := by
  have hwindow : ∀ rows, Run reading late rows out ↔ out = (late.foldl window {}).rows rows :=
    fun rows => run_counts hlate {}
  simp only [answer_append, answer_early_iff hearly, hwindow, Shows, and_assoc]

/-- The number of a stage that skips rows. -/
def skipped? : Stage → Option Int64
  | .skip n => some n
  | _ => none

/-- The number of a stage that limits rows. -/
def limited? : Stage → Option Int64
  | .limit n => some n
  | _ => none

/-- All conditions of some stages, and one sort by all of their keys. -/
def gathered (stages : List Stage) : List Stage :=
  (stages.flatMap predicates).map (fun predicate => condition (some predicate))
    ++ [.sort (stages.flatMap keys)]

/-- The last skip of some stages, and the last limit. -/
def lastCounts (stages : List Stage) : List Stage :=
  (stages.filterMap skipped?).getLast?.toList.map skip
    ++ (stages.filterMap limited?).getLast?.toList.map limit

theorem counts_gathered : ∀ stage ∈ gathered stages, stage.counts = false :=
  List.forall_mem_append.mpr
    ⟨List.forall_mem_map.mpr fun _ _ => rfl, List.forall_mem_singleton.mpr rfl⟩

theorem counts_lastCounts : ∀ stage ∈ lastCounts stages, stage.counts = true :=
  List.forall_mem_append.mpr
    ⟨List.forall_mem_map.mpr fun _ _ => rfl, List.forall_mem_map.mpr fun _ _ => rfl⟩

theorem flatMap_predicates_gathered (stages : List Stage) :
    (gathered stages).flatMap predicates = stages.flatMap predicates := by
  simp [gathered, List.flatMap_map, predicates]

/-- Gathered stages sort by all keys at once. -/
theorem foldl_lastKeys_gathered (stages : List Stage) :
    (gathered stages).foldl lastKeys [] = stages.flatMap keys := by
  have hconditions : ∀ found : List Predicate,
      (found.map fun predicate => condition (some predicate)).foldl lastKeys [] = [] := by
    intro found
    induction found with
    | nil => rfl
    | cons predicate rest ih => exact ih
  rw [gathered, List.foldl_append, hconditions]
  cases stages.flatMap keys <;> rfl

end Stage

open Stage (skipped? limited? gathered lastCounts)

/-- The last skip is the offset of a plan. -/
theorem Plan.offset_foldl_add (plan : Plan) (stages : List Stage) :
    (stages.foldl add plan).offset = (stages.filterMap skipped?).getLast?.or plan.offset := by
  induction stages generalizing plan with
  | nil => rfl
  | cons stage rest ih =>
    rw [List.foldl_cons, ih]
    cases stage <;> simp [add, skipped?, List.getLast?_cons]

/-- The last limit is the limit of a plan. -/
theorem Plan.limit_foldl_add (plan : Plan) (stages : List Stage) :
    (stages.foldl add plan).limit = (stages.filterMap limited?).getLast?.or plan.limit := by
  induction stages generalizing plan with
  | nil => rfl
  | cons stage rest ih =>
    rw [List.foldl_cons, ih]
    cases stage <;> simp [add, limited?, List.getLast?_cons]

variable {reading : RowReading ρ} {table out : List ρ}

/-- The window of a plan is what the last skip and the last limit leave. -/
theorem Plan.window_foldl_add (stages : List Stage) :
    (stages.foldl add {}).window = (lastCounts stages).foldl Stage.window {} := by
  rw [window, offset_foldl_add, limit_foldl_add, lastCounts]
  rcases (stages.filterMap skipped?).getLast? with _ | n <;>
    rcases (stages.filterMap limited?).getLast? with _ | m <;>
      simp [Stage.window, Window.drop, Window.take]

theorem Plan.conditions_ofStages (stages : List Stage) :
    (stages.foldl add {}).conditions = stages.flatMap Stage.predicates := by
  rw [conditions_foldl_add, List.nil_append]

theorem Plan.sorting_ofStages (stages : List Stage) :
    (stages.foldl add {}).sorting = stages.flatMap Stage.keys := by
  rw [sorting_foldl_add, List.nil_append]

/-- A plan answers what all conditions of its stages do, and then one sort by all keys, the last
skip and the last limit. -/
theorem Plan.answers_foldl_add_iff (stages : List Stage) :
    (stages.foldl add {}).Answers reading table out ↔
      Stage.Answer reading (gathered stages ++ lastCounts stages) table out := by
  rw [Stage.answer_append_iff Stage.counts_gathered Stage.counts_lastCounts, Answers,
    keeps_condition, conditions_ofStages, sorting_ofStages, window_foldl_add,
    Stage.flatMap_predicates_gathered, Stage.foldl_lastKeys_gathered]

/-- For every pipeline of conditions, sorts, limits and skips that is planned, in any number and
order, and every engine: the statement answers on all tables what is answered by all conditions of
the pipeline, one sort by all of its keys, its last skip and its last limit, one after another. If
the conditions and sorts of the pipeline come before the limits and skips, its own stages answer the
same, one after another, if and only if the last skip and limit cut out the window that all of them
do and the keys of the last sort order the kept rows as all keys do, unless no row is kept or
nothing is in either window. -/
theorem Plan.answers_iff (hplan : Plan.ofPipeline compiler pipeline = .ok plan)
    (hconsists : Stage.Consists pipeline) (reading : RowReading ρ) :
    ∃ stages, pipeline.mapM (Stage.ofDocument compiler) = .ok stages ∧
      (∀ table out, plan.Answers reading table out ↔
        Stage.Answer reading (gathered stages ++ lastCounts stages) table out) ∧
      ∀ early late, stages = early ++ late → (∀ stage ∈ early, stage.counts = false) →
        (∀ stage ∈ late, stage.counts = true) →
        let kept := reading.keeps plan.condition.toList
        let window := late.foldl Stage.window {}
        let keys := early.foldl Stage.lastKeys []
        ((∀ table out, plan.Answers reading table out ↔ Stage.Answer reading stages table out) ↔
          (∀ row, kept row = false) ∨ (plan.window.IsEmpty ∧ window.IsEmpty) ∨
            (plan.window = window ∧ ∀ a b, kept a → kept b →
              (reading.order plan.sorting a b).isLE = (reading.order keys a b).isLE)) := by
  obtain ⟨stages, hstages, rfl⟩ := ofPipeline_eq_ok hconsists hplan
  refine ⟨stages, hstages, fun _ _ => answers_foldl_add_iff stages, ?_⟩
  rintro early late rfl hearly hlate kept window keys
  have hkept : kept = reading.keeps (early.flatMap Stage.predicates) := by
    have hnone : late.flatMap Stage.predicates = [] := by
      refine List.flatMap_eq_nil_iff.mpr ?_
      intro stage hmem
      cases stage <;> first | rfl | exact nomatch hlate _ hmem
    simp only [kept, keeps_condition, conditions_ofStages, List.flatMap_append, hnone,
      List.append_nil]
  have hstages : ∀ table out, Stage.Answer reading (early ++ late) table out ↔
      Shows (reading.order keys) window (table.filter kept) out := by
    intro table out
    rw [Stage.answer_append_iff hearly hlate, hkept]
  -- two windows on the same kept rows are left to compare
  simp only [hstages, Answers]
  exact forall_shows_iff kept

/-- The compiler of a class of games. -/
def gameCompiler : Compiler :=
  .ofSchema { className := "Game", fields := [("score", .number)] } false ⟨0, 0⟩

/-- Rows that are their scores, which conditions want to be above ten and sort keys put in order. -/
def scores : RowReading Nat where
  valuation score _ := some (decide (10 < score))
  compare _ := compare
  lawful _ := inferInstance

/-- The second and the third of the games with a score above ten are answered stage by stage. -/
theorem secondGames_answer :
    let pipeline : List Json :=
      [.obj [("$sort", .obj [("score", .int 1)])],
        .obj [("$match", .obj [("score", .obj [("$gt", .int 10)])])],
        .obj [("$skip", .int 1)], .obj [("$limit", .int 2)]]
    ∃ plan stages, Plan.ofPipeline gameCompiler pipeline = .ok plan ∧
      Stage.Consists pipeline ∧ plan.conditions.length = 1 ∧ plan.window = ⟨1, some 2⟩ ∧
      pipeline.mapM (Stage.ofDocument gameCompiler) = .ok stages ∧
      ∀ table out, plan.Answers scores table out ↔ Stage.Answer scores stages table out := by
  intro pipeline
  have hconsists : Stage.Consists pipeline := by
    simp [Stage.Consists, pipeline, Stage.operators]
  let key := Sql.name "score" ++ Sql.text " ASC"
  obtain ⟨plan, condition, hplan, hread, hconditions, hwindow, hsorting⟩ : ∃ plan condition,
      Plan.ofPipeline gameCompiler pipeline = .ok plan ∧
      pipeline.mapM (Stage.ofDocument gameCompiler)
        = .ok ([.sort [key], .condition condition] ++ [.skip 1, .limit 2]) ∧
      plan.conditions.length = 1 ∧ plan.window = ⟨1, some 2⟩ ∧ plan.sorting = [key] :=
    ⟨_, _, rfl, rfl, rfl, rfl, rfl⟩
  obtain ⟨stages, hstages, -, hiff⟩ := plan.answers_iff hplan hconsists scores
  obtain rfl := Except.ok.inj (hread.symm.trans hstages)
  refine ⟨plan, _, hplan, hconsists, hconditions, hwindow, hread, ?_⟩
  refine (hiff [.sort [key], .condition condition] [.skip 1, .limit 2] rfl ?_ ?_).mpr ?_
  · simp [Stage.counts]
  · simp [Stage.counts]
  · exact .inr (.inr ⟨hwindow, fun _ _ _ _ => by rw [hsorting]; rfl⟩)

/-- A limit before a skip leaves fewer rows than the statement answers. -/
theorem limitBeforeSkip_answers_more :
    let pipeline : List Json := [.obj [("$limit", .int 5)], .obj [("$skip", .int 2)]]
    ∃ plan stages, Plan.ofPipeline gameCompiler pipeline = .ok plan ∧
      pipeline.mapM (Stage.ofDocument gameCompiler) = .ok stages ∧
      plan.Answers scores [1, 2, 3, 4, 5, 6, 7] [3, 4, 5, 6, 7] ∧
      ¬ Stage.Answer scores stages [1, 2, 3, 4, 5, 6, 7] [3, 4, 5, 6, 7] := by
  refine ⟨_, _, rfl, rfl, ⟨[1, 2, 3, 4, 5, 6, 7], .refl _, ?_, rfl⟩, ?_⟩
  · exact List.pairwise_of_forall fun _ _ => rfl
  · rintro ⟨scanned, hperm, _, rfl, _, rfl, hout⟩
    have hlength : 5 = ((scanned.take 5).drop 2).length := congrArg List.length hout
    rw [List.length_drop, List.length_take, hperm.length_eq] at hlength
    exact nomatch hlength

end Aggregate

end ObjectStore
