import ObjectStore.Proofs.Access.StoredRow
import ObjectStore.Proofs.Objects.Discipline
import ObjectStore.Proofs.Query.Folding

/-!
# What operations select

Searching, counting, listing values, updating and deleting take the same queries, and each of them
compiles its query anew. Only a search heeds the switch of a store that ignores case, so what a
query selects is the same for all of them just if the switch is off or the query names no user
(`selection_eq_iff`).
-/

namespace ObjectStore.ObjectCall

open Sql Work

/-- A call selects objects by a query, with the switches of a store and no options that change what
is selected. -/
def SelectsBy (settings : Settings) (query : Object) : ObjectCall → Prop
  | .find own asked options => own = settings ∧ asked = query ∧ options.ignoreCase = false
  | .count own asked _ => own = settings ∧ asked = query
  | .distinct asked _ | .updateAll asked _ | .updateOne asked _ | .delete asked => asked = query
  | .aggregate _ | .create _ => False

/-- Whether a call searches. -/
def isSearch : ObjectCall → Bool
  | .find .. => true
  | _ => false

/-- The filter that a call compiles a query to, at some time. -/
def filterOf (call : ObjectCall) (settings : Settings) (schema : Schema) (query : Object)
    (now : Timestamp) : Result Filter :=
  Filter.ofQuery (.ofSchema schema (call.isSearch && settings.ignoresCase) now) query

variable {call call' : ObjectCall} {settings : Settings} {className : String} {schema : Schema}
  {query : Object} {s s' : Session}

/-- All statements on rows that a call sends have the filter of its query. -/
theorem ensures_filterOf (hcall : call.SelectsBy settings query) (className : String)
    (schema : Schema) (s : Session) :
    Ensures (fun statement => ∀ r, statement = .rows r →
        call.filterOf settings schema query s.now = .ok r.filter) s
      (call.run className schema) fun _ _ => True := by
  have hfilter : ∀ {A : RowAction → Prop} {c : Compiler},
      Objects.OnFilter A (fun statement => ∀ r, statement = .rows r →
        Filter.ofQuery c query = .ok r.filter) className c query :=
    fun filter action hf _ r hr => by
      cases hr
      exact hf
  cases call with
  | find own asked options =>
    obtain ⟨rfl, rfl, hcase⟩ := hcall
    refine ensures_discard (Objects.ensures_find ?_)
    rw [hcase, Bool.false_or]
    exact hfilter
  | count own asked mayEstimate =>
    obtain ⟨rfl, rfl⟩ := hcall
    exact ensures_discard (Objects.ensures_count hfilter fun _ _ _ _ h => nomatch h)
  | distinct asked field =>
    obtain rfl := hcall
    exact ensures_discard (Objects.ensures_distinct hfilter)
  | updateAll asked update =>
    obtain rfl := hcall
    exact ensures_discard (Objects.ensures_updateAll hfilter)
  | updateOne asked update =>
    obtain rfl := hcall
    exact ensures_discard (Objects.ensures_updateOne hfilter)
  | delete asked =>
    obtain rfl := hcall
    exact ensures_discard (Objects.ensures_delete hfilter)
  | aggregate pipeline => exact hcall.elim
  | create object => exact hcall.elim

/-- Two calls select alike if both search or neither does, if no case is ignored, or if the query
names no user. -/
def Alike (call call' : ObjectCall) (settings : Settings) (query : Object) : Prop :=
  call.isSearch = call'.isSearch ∨ settings.ignoresCase = false ∨ ¬ Compiler.NamesUser query

section Filters

variable {now : Timestamp} {filter filter' : Filter}

/-- Calls that select alike compile the same filter. -/
theorem Alike.filter_eq (h : call.filterOf settings schema query now = .ok filter)
    (h' : call'.filterOf settings schema query now = .ok filter')
    (halike : call.Alike call' settings query) : filter = filter' := by
  unfold filterOf at h h'
  rcases halike with hsearch | hcase | hnames
  · rw [hsearch] at h
    exact Except.ok.inj (h.symm.trans h')
  · rw [hcase, Bool.and_false] at h h'
    exact Except.ok.inj (h.symm.trans h')
  · generalize (call.isSearch && settings.ignoresCase) = flag at h
    generalize (call'.isSearch && settings.ignoresCase) = flag' at h'
    cases flag <;> cases flag'
    · exact Except.ok.inj (h.symm.trans h')
    · exact Compiler.ofQuery_eq_of_not_namesUser h h' hnames
    · exact (Compiler.ofQuery_eq_of_not_namesUser h' h hnames).symm
    · exact Except.ok.inj (h.symm.trans h')

/-- Calls that do not select alike compile filters whose conditions differ. -/
theorem alike_of_condition_eq (h : call.filterOf settings schema query now = .ok filter)
    (h' : call'.filterOf settings schema query now = .ok filter')
    (heq : filter.condition = filter'.condition) : call.Alike call' settings query := by
  by_contra hne
  simp only [Alike, not_or, Bool.not_eq_false, not_not] at hne
  obtain ⟨hsearch, hcase, hnames⟩ := hne
  unfold filterOf at h h'
  rw [hcase, Bool.and_true] at h h'
  -- one of the two searches, and the other does not
  cases hcall : call.isSearch <;> cases hcall' : call'.isSearch <;> rw [hcall] at h <;>
    rw [hcall'] at h'
  · exact hsearch (hcall.trans hcall'.symm)
  · exact Compiler.condition_ne_of_namesUser h h' hnames heq
  · exact Compiler.condition_ne_of_namesUser h' h hnames heq.symm
  · exact hsearch (hcall.trans hcall'.symm)

end Filters

/-- Of all calls that select by a query, at one time and on one class, either all refuse the query
or none does. The conditions of the statements that two of them send, with the values that are
bound, are the same just if the calls select alike, and then both reach the same rows of every
table. -/
theorem selection_eq_iff (hcall : call.SelectsBy settings query)
    (hcall' : call'.SelectsBy settings query) (hnow : s'.now = s.now) :
    (call.filterOf settings schema query s.now).isOk
        = (call'.filterOf settings schema query s'.now).isOk ∧
      ∀ r r', .rows r ∈ (call.run className schema).sent s →
        .rows r' ∈ (call'.run className schema).sent s' →
        (r.filter.condition = r'.filter.condition ↔ call.Alike call' settings query) ∧
        (call.Alike call' settings query →
          ∀ table row, r.Reaches table row ↔ r'.Reaches table row) := by
  constructor
  · rw [hnow]
    exact (Compiler.isOk_ofQuery_eq _ _ _ _).trans (Compiler.isOk_ofQuery_eq _ _ _ _).symm
  · intro r r' hr hr'
    have hfilter := (ensures_filterOf hcall className schema s).of_mem_sent hr r rfl
    have hfilter' := (ensures_filterOf hcall' className schema s').of_mem_sent hr' r' rfl
    rw [hnow] at hfilter'
    have hsame : call.Alike call' settings query → r.filter = r'.filter :=
      Alike.filter_eq hfilter hfilter'
    refine ⟨⟨alike_of_condition_eq hfilter hfilter', fun halike => by rw [hsame halike]⟩, ?_⟩
    intro halike table row
    rw [RowStatement.reaches_iff, RowStatement.reaches_iff, hsame halike]

/-- A class of people with names. -/
def people : Schema := (Schema.ofClass "Person").withField "username" .string

/-- The people of a name. -/
def named : Object := [("username", .str "Ann")]

/-- In a store that heeds case, a search for people of a name shows the rows that deleting them
reaches. -/
theorem find_and_delete_named_alike :
    ∃ r r', (run "Person" people (.find {} named {})).sent silent = [.rows r] ∧
      (run "Person" people (.delete named)).sent silent = [.rows r'] ∧
      r.filter.condition = r'.filter.condition ∧
      ∀ table row, r.Reaches table row ↔ r'.Reaches table row := by
  obtain ⟨r, hr⟩ : ∃ r, (run "Person" people (.find {} named {})).sent silent = [.rows r] :=
    ⟨_, rfl⟩
  obtain ⟨r', hr'⟩ : ∃ r', (run "Person" people (.delete named)).sent silent = [.rows r'] :=
    ⟨_, rfl⟩
  have hfind : SelectsBy {} named (.find {} named {}) := ⟨rfl, rfl, rfl⟩
  have hdelete : SelectsBy {} named (.delete named) := rfl
  have hmem : .rows r ∈ (run "Person" people (.find {} named {})).sent silent :=
    hr ▸ List.mem_singleton.mpr rfl
  have hmem' : .rows r' ∈ (run "Person" people (.delete named)).sent silent :=
    hr' ▸ List.mem_singleton.mpr rfl
  have hnow : silent.now = silent.now := rfl
  have hsame := (selection_eq_iff hfind hdelete hnow).2 r r' hmem hmem'
  have halike : Alike (.find {} named {}) (.delete named) {} named := .inr (.inl rfl)
  exact ⟨r, r', hr, hr', hsame.1.mpr halike, hsame.2 halike⟩

/-- In a store that ignores case, a search for people of a name compares lower cases, and counting
them does not. -/
theorem find_and_count_named_differ :
    ∃ r r', (run "Person" people (.find { ignoresCase := true } named {})).sent silent = [.rows r] ∧
      (run "Person" people (.count { ignoresCase := true } named false)).sent silent = [.rows r'] ∧
      r.filter.condition.1 = " WHERE LOWER(\"username\") = LOWER($1)" ∧
      r'.filter.condition.1 = " WHERE \"username\" = $1" ∧
      r.filter.condition ≠ r'.filter.condition := by
  refine ⟨_, _, rfl, rfl, by decide +kernel, by decide +kernel, ?_⟩
  intro heq
  exact absurd (congrArg Prod.fst heq) (by decide +kernel)

end ObjectStore.ObjectCall
