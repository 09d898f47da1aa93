import ObjectStore.Proofs.Engine.Document
import ObjectStore.Proofs.Update.Columns

/-!
# What dotted updates do to documents

All changes that an update asks for below a column are folded into one expression. Read back, that
expression makes the changes in the order of their keys, each to what those before it left
(`readDocument?_folded`). An addition takes the number from the column itself; if the paths lead
apart it is the number that stands in the document by then.

What a change asks for is `alter`. The expression does it where there is something for the last step
of the path to be taken in, and leaves the document as it is where there is not, since `jsonb_set`
makes no objects on its way. So a literal or an amount for a place in a missing object is lost, and
the document is what it ought to be only if every such place has something around it
(`evaluate_dotted_iff`).
-/

namespace ObjectStore.Update

open Engine Json Result

variable {base sql : Sql} {column root : String} {path p q : List String} {value d r r' : Json}
  {change : List String × Json} {changes : List (List String × Json)}
  {step : DocumentStep} {steps : List DocumentStep}

/-! ## What is asked for -/

/-- The number at a place, and zero if there is none. -/
def numberAt (path : List String) (d : Json) : Float := ((d.at? path).bind toFloat?).getD 0.0

/-- A document with one change made: a literal put where the path leads, an amount added to the
number there, or nothing left there. Objects that are missing on the way to a place are made. -/
def alter (d : Json) (change : List String × Json) : Json :=
  match change.2.opTag? with
  | none => d.put change.1 change.2
  | some "Increment" =>
    match amount change.2 with
    | .ok amount => d.put change.1 (.double (numberAt change.1 d + amount))
    | .error _ => d
  | some _ => d.without change.1

/-- Whether a change is a removal. -/
def isRemoval (change : List String × Json) : Bool := change.2.opTag? = some "Delete"

/-- A document with changes made one after another. -/
def altered (d : Json) (changes : List (List String × Json)) : Json := changes.foldl alter d

/-- A change fits a document: its path may be taken there, it takes nothing out of a list, and it
adds to nothing, `null` or a number, of which a finite number comes. -/
structure Fits (d : Json) (change : List String × Json) : Prop where
  passes : Passes change.1 d
  ofMember : isRemoval change = true → above change.1 d ≠ some .array
  toNumber : change.2.opTag? = some "Increment" → ∀ found, d.at? change.1 = some found →
    found = .null ∨ found.isNumber = true
  isFinite : change.2.opTag? = some "Increment" → ∀ x, amount change.2 = .ok x →
    (numberAt change.1 d + x).isFinite = true

/-- A change comes about by an expression: it takes something away, or there is a place for it. -/
def comesAbout (d : Json) (change : List String × Json) : Bool :=
  isRemoval change || hasPlace change.1 d

theorem amount_of_toOption {x : Float} (h : (amount value).toOption = some x) :
    amount value = .ok x := by
  cases hamount : amount value with
  | error => simp [hamount, Except.toOption] at h
  | ok y => simpa [hamount, Except.toOption] using h

theorem alter_of_isRemoval (h : isRemoval change = true) : alter d change = d.without change.1 := by
  have htag : change.2.opTag? = some "Delete" := by simpa [isRemoval] using h
  simp [alter, htag]

theorem changedAt_alter (d : Json) (change : List String × Json) :
    ChangedAt change.1 d (alter d change) := by
  unfold alter
  split
  · exact changedAt_put ..
  · split
    · exact changedAt_put ..
    · exact .same ..
  · exact changedAt_without ..

/-- Changes at other places leave a path as it is, and what it leads to. -/
theorem altered_apart (hp : Passes p d) (hchanges : ∀ change ∈ changes, Passes change.1 d)
    (hpairwise : changes.Pairwise fun a b => Apart a.1 b.1)
    (hapart : ∀ change ∈ changes, Apart p change.1) :
    Passes p (altered d changes) ∧ (altered d changes).at? p = d.at? p
      ∧ (above p d ≠ some .array → above p (altered d changes) ≠ some .array) := by
  induction changes generalizing d with
  | nil => exact ⟨hp, rfl, id⟩
  | cons change rest ih =>
    have hchanged := changedAt_alter d change
    obtain ⟨hfirst, hchanges⟩ := List.forall_mem_cons.mp hchanges
    obtain ⟨hothers, hpairwise⟩ := List.pairwise_cons.mp hpairwise
    obtain ⟨happ, hapart⟩ := List.forall_mem_cons.mp hapart
    have hlater : ∀ later ∈ rest, Passes later.1 (alter d change) := fun later hlater =>
      passes_of_changedAt hchanged (hchanges later hlater) hfirst (hothers later hlater).symm
    obtain ⟨hpasses, hat, habove⟩ :=
      ih (passes_of_changedAt hchanged hp hfirst happ) hlater hpairwise hapart
    exact ⟨hpasses, hat.trans (at?_of_changedAt hchanged hp hfirst happ),
      fun hlast => habove (above_ne_array_of_changedAt hchanged hp hfirst happ hlast)⟩

/-- What is to be at the place of a change. -/
def asked (d : Json) (change : List String × Json) : Option Json :=
  match change.2.opTag? with
  | none => some change.2
  | some "Increment" =>
    (amount change.2).toOption.map fun x => .double (numberAt change.1 d + x)
  | some _ => none

/-! ## How expressions are read -/

/-- The change of a document that a change below a column is written as. -/
def stepOf? (change : List String × Json) : Option DocumentStep :=
  match change.2.opTag? with
  | none => some (.put change.1 change.2)
  | some "Delete" => some (.remove change.1)
  | some "Increment" => (amount change.2).toOption.map (.add change.1 change.1)
  | some _ => none

/-- The tokens that changes begin with. -/
def openingSql (openings : List Opening) : Sql := openings.map fun opening => .text opening.word

/-- One more change stands around the expression of those before it. -/
theorem readSteps_pathExpression (hvalue : value.Representable) (hcanonical : value.Canonical)
    (h : pathExpression base root path value = .ok sql) :
    ∃ step opening after, stepOf? (path, value) = some step
      ∧ sql = .text opening.word :: base ++ after
      ∧ ∀ openings rest, readSteps root (opening :: openings) (after ++ rest)
        = (readSteps root openings rest).map (step :: ·) := by
  unfold pathExpression at h
  split at h
  next htag =>
    obtain rfl := Except.ok.inj h
    refine ⟨.put path value, .call, _, by simp [stepOf?, htag], by
      simp only [Sql.text, List.append_assoc, List.cons_append, List.nil_append]
      rfl, fun openings rest => ?_⟩
    simp [readSteps, bindPath, Sql.bindText, Sql.bindJson, Sql.bind, Sql.text,
      Sql.readArray_arrayLiteral, Json.read?_compact hvalue hcanonical]
  next htag =>
    obtain rfl := Except.ok.inj h
    refine ⟨.remove path, .parens, _, by simp [stepOf?, htag], by
      simp only [Sql.text, List.append_assoc, List.cons_append, List.nil_append]
      rfl, fun openings rest => ?_⟩
    simp [readSteps, bindPath, Sql.bindText, Sql.bind, Sql.text, Sql.readArray_arrayLiteral]
  next htag =>
    obtain ⟨x, hx, h⟩ := bind_eq_ok.mp h
    obtain rfl := pure_eq_ok.mp h
    refine ⟨.add path path x, .call, _, by simp [stepOf?, htag, hx, Except.toOption], by
      simp only [Sql.text, List.append_assoc, List.cons_append, List.nil_append]
      rfl, fun openings rest => ?_⟩
    simp [readSteps, bindPath, Sql.bindText, Sql.bind, Sql.text, Sql.name,
      Sql.readArray_arrayLiteral]
  next => cases h

theorem readOpenings_openingSql (openings : List Opening) (root : String) (rest : Sql) :
    readOpenings (openingSql openings ++ (objectBase root ++ rest))
      = (openings, objectBase root ++ rest) := by
  induction openings with
  | nil => rfl
  | cons opening openings ih =>
    cases opening with
    | call => exact congrArg (fun read => (Opening.call :: read.1, read.2)) ih
    | parens => exact congrArg (fun read => (Opening.parens :: read.1, read.2)) ih

/-- An expression reads as steps: it is what they begin with, the column, and how they go on. -/
def ReadsAs (root : String) (sql : Sql) (steps : List DocumentStep) : Prop :=
  ∃ openings after, sql = openingSql openings ++ (objectBase root ++ after)
    ∧ ∀ more rest, readSteps root (openings.reverse ++ more) (after ++ rest)
      = (readSteps root more rest).map (steps ++ ·)

theorem readsAs_objectBase (root : String) : ReadsAs root (objectBase root) [] :=
  ⟨[], [], (List.append_nil _).symm, fun more rest => by simp⟩

theorem ReadsAs.concat (hbase : ReadsAs root base steps) (hvalue : value.Representable)
    (hcanonical : value.Canonical) (h : pathExpression base root path value = .ok sql) :
    ∃ step, stepOf? (path, value) = some step ∧ ReadsAs root sql (steps ++ [step]) := by
  obtain ⟨openings, before, rfl, hbefore⟩ := hbase
  obtain ⟨step, opening, after, hstep, rfl, hafter⟩ := readSteps_pathExpression hvalue hcanonical h
  refine ⟨step, hstep, opening :: openings, before ++ after, by simp [openingSql], ?_⟩
  intro more rest
  rw [List.reverse_cons, List.append_assoc, List.append_assoc, List.singleton_append, hbefore,
    hafter, Option.map_map]
  simp [Function.comp_def]

theorem readDocument?_of_readsAs (h : ReadsAs root sql steps) :
    readDocument? root sql = some steps := by
  obtain ⟨openings, after, rfl, hafter⟩ := h
  have hend := hafter [] []
  rw [List.append_nil, List.append_nil] at hend
  rw [readDocument?, readOpenings_openingSql]
  simp [objectBase, Sql.text, Sql.name, hend, readSteps]

/-- The expression with all changes below a column makes them one after another. -/
theorem readDocument?_folded
    (hchanges : ∀ change ∈ changes, change.2.Representable ∧ change.2.Canonical)
    (h : folded root changes = .ok sql) :
    ∃ steps, List.Forall₂ (fun change step => stepOf? change = some step) changes steps
      ∧ readDocument? root sql = some steps := by
  suffices hreads : ∃ steps,
      List.Forall₂ (fun change step => stepOf? change = some step) changes steps
        ∧ ReadsAs root sql steps by
    obtain ⟨steps, hsteps, hsql⟩ := hreads
    exact ⟨steps, hsteps, readDocument?_of_readsAs hsql⟩
  induction changes using List.reverseRecOn generalizing sql with
  | nil =>
    obtain rfl := Except.ok.inj h
    exact ⟨[], .nil, readsAs_objectBase root⟩
  | append_singleton seen change ih =>
    rw [folded_concat] at h
    obtain ⟨base, hbase, h⟩ := bind_eq_ok.mp h
    obtain ⟨hseen, hlast⟩ := List.forall_mem_append.mp hchanges
    obtain ⟨steps, hsteps, hreads⟩ := ih hseen hbase
    obtain ⟨hvalue, hcanonical⟩ := hlast change List.mem_cons_self
    obtain ⟨step, hstep, hsql⟩ := hreads.concat hvalue hcanonical h
    exact ⟨steps ++ [step], List.rel_append hsteps (.cons hstep .nil), hsql⟩

/-! ## What they come to -/

/-- Nothing has happened at a path, or above it, since a document was as it was first. -/
structure Untouched (d r : Json) (path : List String) : Prop where
  passes : Passes path r
  at? : r.at? path = d.at? path
  above : above path r = above path d

theorem Untouched.hasPlace (h : Untouched d r path) :
    Json.hasPlace path r = Json.hasPlace path d := by
  rw [Json.hasPlace, h.above, Json.hasPlace]

theorem Untouched.numberAt (h : Untouched d r path) : numberAt path r = numberAt path d := by
  rw [Update.numberAt, h.at?, Update.numberAt]

/-- A change where there is a place for it touches no path apart from it. -/
theorem Untouched.of_changedAt (h : Untouched d r p) (hchanged : ChangedAt q r r')
    (hq : Passes q r) (hapart : Apart p q) (hplace : Json.hasPlace q r = true) :
    Untouched d r' p where
  passes := passes_of_changedAt hchanged h.passes hq hapart
  at? := (at?_of_changedAt hchanged h.passes hq hapart).trans h.at?
  above := (above_of_changedAt hchanged h.passes hq hapart hplace).trans h.above

theorem kind_of_changedAt (hchanged : ChangedAt q r r') (hq : q ≠ []) (h : r.kind = .object) :
    r'.kind = .object := by
  cases hchanged with
  | here => exact absurd rfl hq
  | same => exact h
  | drop => exact kind_dropMember.trans h
  | deeper =>
    cases r with
    | obj => rfl
    | null | bool | int | double | str | arr => cases h

/-- An object stays one that is read as it is written. -/
theorem canonical_alter (hr : r.Canonical) (hvalue : change.2.Canonical) :
    (alter r change).Canonical := by
  unfold alter
  split
  · exact hr.put hvalue
  · split
    · exact hr.put (.double _)
    · exact hr
  · exact hr.without

/-- A change that comes about touches no path apart from it. -/
theorem Untouched.alter (h : Untouched d r p) (hr : r.Canonical) (hfirst : Untouched d r change.1)
    (hapart : Apart p change.1) (hcomes : comesAbout d change = true) :
    Untouched d (alter r change) p := by
  cases hplace : Json.hasPlace change.1 r with
  | true => exact h.of_changedAt (changedAt_alter r change) hfirst.passes hapart hplace
  | false =>
    -- what there is no place for comes about only if it is a removal, which then removes nothing
    have hremoval : isRemoval change = true := by
      simpa [comesAbout, ← hfirst.hasPlace, hplace] using hcomes
    rw [alter_of_isRemoval hremoval, without_of_not_hasPlace hr hplace]
    exact h

/-- A column that holds nothing counts as the empty object. -/
theorem bind_at? (hpath : path ≠ []) (held : Option Json) :
    held.bind (Json.at? path) = (held.getD (.obj [])).at? path := by
  cases held with
  | some _ => rfl
  | none =>
    cases path with
    | nil => exact absurd rfl hpath
    | cons => rfl

/-- Adding to nothing, `null` or a number gives the sum. -/
theorem sum?_eq (other : Json → Float → Option Json) {found : Option Json} {x : Float}
    (hnumber : ∀ v, found = some v → v = .null ∨ v.isNumber = true)
    (hfinite : ((found.bind toFloat?).getD 0.0 + x).isFinite = true) :
    sum? other found x = some (.double ((found.bind toFloat?).getD 0.0 + x)) := by
  cases found with
  | none => exact if_pos hfinite
  | some v =>
    rcases hnumber v rfl with rfl | hv
    · exact if_pos hfinite
    · cases v with
      | int | double => exact if_pos hfinite
      | null | bool | str | arr | obj => cases hv

section Steps

variable {other : Json → Float → Option Json} {held : Option Json}

/-- One step makes its change if there is a place for it, and none if there is not. -/
theorem on_stepOf? (hd : d = held.getD (.obj [])) (hr : r.Canonical) (hkind : r.kind = .object)
    (hpath : change.1 ≠ []) (huntouched : Untouched d r change.1) (hfits : Fits d change)
    (hstep : stepOf? change = some step) :
    step.on other held r = some (if comesAbout d change then alter r change else r) := by
  have hplaces : ¬ r.kind = .scalar := by
    rw [hkind]
    exact nofun
  unfold stepOf? at hstep
  split at hstep
  next htag =>
    obtain rfl := Option.some.inj hstep
    have hcomes : comesAbout d change = hasPlace change.1 r := by
      simp [comesAbout, isRemoval, htag, huntouched.hasPlace]
    simp only [DocumentStep.on, if_neg hplaces, Edit.onPath_put hr hpath huntouched.passes, hcomes,
      alter, htag]
  next htag =>
    obtain rfl := Option.some.inj hstep
    have hremoval : isRemoval change = true := by simp [isRemoval, htag]
    have hlast : above change.1 r ≠ some .array := huntouched.above ▸ hfits.ofMember hremoval
    simp only [DocumentStep.on, if_neg hplaces, Edit.onPath_remove hpath huntouched.passes hlast,
      comesAbout, hremoval, Bool.true_or, if_true, alter_of_isRemoval hremoval]
  next htag =>
    obtain ⟨x, hx, rfl⟩ := Option.map_eq_some_iff.mp hstep
    have hamount := amount_of_toOption hx
    have hcomes : comesAbout d change = hasPlace change.1 r := by
      simp [comesAbout, isRemoval, htag, huntouched.hasPlace]
    have hsum : sum? other (held.bind (Json.at? change.1)) x
        = some (.double (numberAt change.1 r + x)) := by
      rw [bind_at? hpath, ← hd, huntouched.numberAt]
      exact sum?_eq other (hfits.toNumber htag) (hfits.isFinite htag x hamount)
    simp only [DocumentStep.on, if_neg hplaces, hsum, Option.bind_eq_bind, Option.bind_some,
      Edit.onPath_put hr hpath huntouched.passes, hcomes, alter, htag, hamount]
  next => cases hstep

/-- All steps make the changes that there is a place for. -/
theorem foldlM_on (hd : d = held.getD (.obj []))
    (hsteps : List.Forall₂ (fun change step => stepOf? change = some step) changes steps)
    (hr : r.Canonical) (hkind : r.kind = .object)
    (hpaths : ∀ change ∈ changes, change.1 ≠ [] ∧ change.2.Canonical)
    (huntouched : ∀ change ∈ changes, Untouched d r change.1)
    (hfits : ∀ change ∈ changes, Fits d change)
    (hpairwise : changes.Pairwise fun a b => Apart a.1 b.1) :
    steps.foldlM (DocumentStep.on other held) r
      = some (altered r (changes.filter (comesAbout d))) := by
  induction hsteps generalizing r with
  | nil => rfl
  | @cons change step rest steps hstep _ ih =>
    obtain ⟨⟨hpath, hvalue⟩, hpaths⟩ := List.forall_mem_cons.mp hpaths
    obtain ⟨hfirst, huntouched⟩ := List.forall_mem_cons.mp huntouched
    obtain ⟨hfit, hfits⟩ := List.forall_mem_cons.mp hfits
    obtain ⟨hapart, hpairwise⟩ := List.pairwise_cons.mp hpairwise
    rw [List.foldlM_cons, on_stepOf? hd hr hkind hpath hfirst hfit hstep, List.filter_cons]
    cases hcomes : comesAbout d change with
    | false => exact ih hr hkind hpaths huntouched hfits hpairwise
    | true =>
      exact ih (canonical_alter hr hvalue)
        (kind_of_changedAt (changedAt_alter r change) hpath hkind) hpaths (fun later hlater =>
          (huntouched later hlater).alter hr hfirst (hapart later hlater).symm hcomes)
        hfits hpairwise

end Steps

/-! ## What becomes of a column -/

/-- A change is made where what it is about is as it was at first. -/
theorem at?_alter_self (hpath : change.1 ≠ []) (hpasses : Passes change.1 r)
    (hat : r.at? change.1 = d.at? change.1)
    (hlast : isRemoval change = true → above change.1 r ≠ some .array)
    (hstep : stepOf? change = some step) : (alter r change).at? change.1 = asked d change := by
  unfold stepOf? at hstep
  split at hstep
  next htag =>
    simp only [alter, htag, asked]
    exact at?_put_self hpasses
  next htag =>
    have hremoval : isRemoval change = true := by simp [isRemoval, htag]
    rw [alter_of_isRemoval hremoval, at?_without_self hpath hpasses (hlast hremoval)]
    simp [asked, htag]
  next htag =>
    obtain ⟨x, hx, rfl⟩ := Option.map_eq_some_iff.mp hstep
    have hnumber : numberAt change.1 r = numberAt change.1 d := by rw [numberAt, hat, numberAt]
    simp only [alter, htag, amount_of_toOption hx, asked, hnumber]
    exact at?_put_self hpasses
  next => cases hstep

/-- The changes of an update below a column are members of it, with paths. -/
theorem exists_of_mem_changesBelow {update : Object} (h : change ∈ changesBelow column update) :
    change.1 ≠ [] ∧ ∃ key, (key, change.2) ∈ update := by
  obtain ⟨⟨key, value⟩, hmember, h⟩ := List.mem_filterMap.mp h
  unfold changeBelow? at h
  split at h
  next root rest _ =>
    split at h
    · obtain rfl := Option.some.inj h
      refine ⟨?_, key, hmember⟩
      intro hnil
      exact Text.splitChars_ne_nil _ _ (List.map_eq_nil_iff.mp hnil)
    · cases h
  next => cases h

/-- A literal or a sum is to be somewhere. -/
theorem asked_ne_none (hremoval : isRemoval change = false) (hstep : stepOf? change = some step) :
    asked d change ≠ none := by
  unfold stepOf? at hstep
  split at hstep
  next htag => simp [asked, htag]
  next htag => simp [isRemoval, htag] at hremoval
  next htag =>
    obtain ⟨x, hx, -⟩ := Option.map_eq_some_iff.mp hstep
    simp [asked, htag, hx]
  next => cases hstep

/-- What changes ask for is at the places of all of them in the end. -/
theorem at?_altered_of_mem (hpaths : ∀ change ∈ changes, change.1 ≠ [])
    (hsteps : ∀ change ∈ changes, ∃ step, stepOf? change = some step)
    (hpairwise : changes.Pairwise fun a b => Apart a.1 b.1)
    (hfits : ∀ change ∈ changes, Fits d change) (hmem : change ∈ changes) :
    (altered d changes).at? change.1 = asked d change := by
  obtain ⟨before, after, rfl⟩ := List.append_of_mem hmem
  obtain ⟨hbefore, hothers, hacross⟩ := List.pairwise_append.mp hpairwise
  obtain ⟨hlater, hafter⟩ := List.pairwise_cons.mp hothers
  obtain ⟨hfitsBefore, hfitsOthers⟩ := List.forall_mem_append.mp hfits
  obtain ⟨hfit, hfitsAfter⟩ := List.forall_mem_cons.mp hfitsOthers
  obtain ⟨step, hstep⟩ := hsteps change hmem
  have hapart {later : List String × Json} (hmem : later ∈ change :: after) :=
    altered_apart (hfits later (List.mem_append_right _ hmem)).passes
      (fun earlier hearlier => (hfitsBefore earlier hearlier).passes) hbefore
      fun earlier hearlier => (hacross earlier hearlier later hmem).symm
  obtain ⟨hpasses, hat, hlast⟩ := hapart List.mem_cons_self
  have hchanged := changedAt_alter (altered d before) change
  have hend : (altered (alter (altered d before) change) after).at? change.1
      = (alter (altered d before) change).at? change.1 :=
    (altered_apart (passes_self_of_changedAt hchanged hpasses)
      (fun later hmem => passes_of_changedAt hchanged (hapart (List.mem_cons_of_mem _ hmem)).1
        hpasses (hlater later hmem).symm)
      hafter hlater).2.1
  rw [altered, List.foldl_append, List.foldl_cons, ← altered, ← altered, hend]
  exact at?_alter_self (hpaths change hmem) hpasses hat (fun h => hlast (hfit.ofMember h)) hstep

/-- What is left out of changes is not seen at its place. -/
theorem at?_altered_filter (hpaths : ∀ change ∈ changes, change.1 ≠ [])
    (hsteps : ∀ change ∈ changes, ∃ step, stepOf? change = some step)
    (hpairwise : changes.Pairwise fun a b => Apart a.1 b.1)
    (hfits : ∀ change ∈ changes, Fits d change) (hmem : change ∈ changes) :
    (altered d (changes.filter (comesAbout d))).at? change.1
      = if comesAbout d change then asked d change else none := by
  have hsub : changes.filter (comesAbout d) ⊆ changes := List.filter_subset_self changes
  have hfiltered := hpairwise.sublist (List.filter_sublist (p := comesAbout d))
  have hfits' : ∀ change ∈ changes.filter (comesAbout d), Fits d change :=
    fun change hchange => hfits change (hsub hchange)
  split
  next hcomes =>
    have hpaths' : ∀ change ∈ changes.filter (comesAbout d), change.1 ≠ [] :=
      fun change hchange => hpaths change (hsub hchange)
    have hsteps' : ∀ change ∈ changes.filter (comesAbout d), ∃ step, stepOf? change = some step :=
      fun change hchange => hsteps change (hsub hchange)
    have hmem' := List.mem_filter.mpr ⟨hmem, hcomes⟩
    exact at?_altered_of_mem hpaths' hsteps' hfiltered hfits' hmem'
  next hlost =>
    have hplace : hasPlace change.1 d = false := by
      simpa using (Bool.or_eq_false_iff.mp (Bool.eq_false_iff.mpr hlost)).2
    have hothers : ∀ other ∈ changes.filter (comesAbout d), Apart change.1 other.1 := by
      intro other hother
      obtain ⟨hother, hcomes⟩ := List.mem_filter.mp hother
      have hsymm : Std.Symm fun a b : List String × Json => Apart a.1 b.1 := ⟨fun _ _ => Apart.symm⟩
      exact hpairwise.forall hmem hother fun heq => hlost (heq ▸ hcomes)
    -- no change comes about at this place, and all others are apart from it
    have hapart := altered_apart (hfits change hmem).passes (fun c hc => (hfits' c hc).passes)
      hfiltered hothers
    rw [hapart.2.1]
    exact at?_eq_none_of_not_hasPlace (hpaths change hmem) hplace

/-- The document is the one that was asked for if all changes come about, and another one if a
literal or an amount is lost. -/
theorem content_altered_filter_iff (hpaths : ∀ change ∈ changes, change.1 ≠ [])
    (hsteps : ∀ change ∈ changes, ∃ step, stepOf? change = some step)
    (hpairwise : changes.Pairwise fun a b => Apart a.1 b.1)
    (hfits : ∀ change ∈ changes, Fits d change) :
    (altered d (changes.filter (comesAbout d))).content = (altered d changes).content
      ↔ ∀ change ∈ changes, comesAbout d change = true := by
  constructor
  · intro hcontent change hmem
    by_contra hlost
    have hasked := at?_altered_of_mem hpaths hsteps hpairwise hfits hmem
    have hfound := at?_altered_filter hpaths hsteps hpairwise hfits hmem
    rw [if_neg hlost] at hfound
    have hsame := congrArg (Content.at? change.1) hcontent
    rw [at?_content, at?_content, hasked, hfound, Option.map_none, eq_comm,
      Option.map_eq_none_iff] at hsame
    obtain ⟨step, hstep⟩ := hsteps change hmem
    exact asked_ne_none (Bool.or_eq_false_iff.mp (Bool.eq_false_iff.mpr hlost)).1 hstep hsame
  · intro hcome
    rw [List.filter_eq_self.mpr hcome]

/-- What a column of objects counts as. -/
def opened (held : Option Object) : Json := .obj (held.getD [])

/-- An object column comes out of an update with the changes that there is a place for, and with
those only. It comes out as it was asked for if and only if every literal and every amount had a
place. -/
theorem evaluate_dotted_iff {s : Schema} {update : Object} {all : List (String × Sql)}
    {held : Option Object} (other : Json → Float → Option Json)
    (hupdate : (Json.obj update).Canonical) (hrepresentable : (Json.obj update).Representable)
    (hall : assignments s update = .ok all) (hchanges : changesBelow column update ≠ [])
    (hheld : (opened held).Canonical)
    (hapart : (changesBelow column update).Pairwise fun a b => Apart a.1 b.1)
    (hfits : ∀ change ∈ changesBelow column update, Fits (opened held) change) :
    ∃ sql result, (column, sql) ∈ all ∧ evaluate other column (held.map .obj) sql = some result
      ∧ result = altered (opened held)
        ((changesBelow column update).filter (comesAbout (opened held)))
      ∧ (∀ change ∈ changesBelow column update, result.at? change.1
        = if comesAbout (opened held) change then asked (opened held) change else none)
      ∧ (∀ p, Passes p (opened held) → (∀ change ∈ changesBelow column update, Apart p change.1)
        → result.at? p = (opened held).at? p)
      ∧ (result.content = (altered (opened held) (changesBelow column update)).content
        ↔ ∀ change ∈ changesBelow column update, comesAbout (opened held) change = true) := by
  obtain ⟨a, hgathers, rfl⟩ := gathers_of_assignments hall
  obtain ⟨sql, hsql, hmem⟩ := hgathers.exists_folded hchanges
  have hpaths : ∀ change ∈ changesBelow column update, change.1 ≠ [] := fun change hchange =>
    (exists_of_mem_changesBelow hchange).1
  have hvalues : ∀ change ∈ changesBelow column update,
      change.2.Representable ∧ change.2.Canonical := by
    intro change hchange
    obtain ⟨-, key, hmember⟩ := exists_of_mem_changesBelow hchange
    cases hupdate with
    | obj _ hcanonical =>
      cases hrepresentable with
      | obj hinside => exact ⟨hinside _ hmember, hcanonical _ hmember⟩
  obtain ⟨steps, hsteps, hread⟩ := readDocument?_folded hvalues hsql
  have hopened : opened held = (held.map Json.obj).getD (.obj []) := by cases held <;> rfl
  have hresult : evaluate other column (held.map .obj) sql = some (altered (opened held)
      ((changesBelow column update).filter (comesAbout (opened held)))) := by
    rw [evaluate, hread, ← hopened]
    exact foldlM_on hopened hsteps hheld rfl
      (fun change hchange => ⟨hpaths change hchange, (hvalues change hchange).2⟩)
      (fun change hchange => ⟨(hfits change hchange).passes, rfl, rfl⟩) hfits hapart
  have hreadable : ∀ change ∈ changesBelow column update, ∃ step, stepOf? change = some step :=
    fun change hchange => (exists_right_of_mem hsteps hchange).imp fun _ => And.right
  refine ⟨sql, _, hmem, hresult, rfl, ?_, ?_, ?_⟩
  · intro change hchange
    exact at?_altered_filter hpaths hreadable hapart hfits hchange
  · intro p hp hothers
    have hsub :=
      List.filter_subset_self (p := comesAbout (opened held)) (changesBelow column update)
    exact (altered_apart hp (fun change hchange => (hfits change (hsub hchange)).passes)
      (hapart.sublist List.filter_sublist) fun change hchange => hothers change (hsub hchange)).2.1
  · exact content_altered_filter_iff hpaths hreadable hapart hfits

/-- A sum, a removal, and a literal inside an object that is there. -/
def dataUpdate : Object :=
  [("data.count", .obj [("__op", .str "Increment"), ("amount", .int 2)]),
    ("data.old", .obj [("__op", .str "Delete")]), ("data.owner.name", .str "x")]

/-- What stands in the column before. -/
def dataBefore : Object :=
  [("count", .int 3), ("old", .bool true), ("owner", .obj [])]

theorem changesBelow_dataUpdate : changesBelow "data" dataUpdate
    = [(["count"], .obj [("__op", .str "Increment"), ("amount", .int 2)]),
      (["old"], .obj [("__op", .str "Delete")]), (["owner", "name"], .str "x")] := rfl

theorem data_altered :
    ∃ all sql result, assignments game dataUpdate = .ok all ∧ ("data", sql) ∈ all
      ∧ evaluate (fun _ _ => none) "data" (some (.obj dataBefore)) sql = some result
      ∧ result.content = (altered (.obj dataBefore) (changesBelow "data" dataUpdate)).content
      ∧ result.at? ["owner", "name"] = some (.str "x") ∧ result.at? ["old"] = none
      ∧ result.at? ["owner", "age"] = none := by
  obtain ⟨all, hall⟩ : ∃ all, assignments game dataUpdate = .ok all := ⟨_, rfl⟩
  have hfits : ∀ change ∈ changesBelow "data" dataUpdate,
      Fits (opened (some dataBefore)) change := by
    rw [changesBelow_dataUpdate]
    simp only [List.forall_mem_cons]
    refine ⟨⟨⟨nofun, fun _ _ => trivial⟩, nofun, ?_, ?_⟩,
      ⟨⟨nofun, fun _ _ => trivial⟩, by decide, nofun, nofun⟩,
      ⟨⟨nofun, ?_⟩, nofun, nofun, nofun⟩, by simp⟩
    -- what is added to is a number, and so is the sum
    · rintro - found ⟨⟩
      exact .inr rfl
    · rintro - x ⟨⟩
      decide +kernel
    -- the owner is an object
    · rintro inner ⟨⟩
      exact ⟨nofun, fun _ _ => trivial⟩
  have hapart : (changesBelow "data" dataUpdate).Pairwise fun a b => Apart a.1 b.1 := by
    simp only [Apart]
    decide
  obtain ⟨sql, result, hmem, hresult, -, hplaces, hothers, hcontent⟩ :=
    evaluate_dotted_iff (fun _ _ => none)
      (canonical_of_isCanonical (by decide)) (representable_of_isRepresentable (by decide)) hall
      (by decide) (canonical_of_isCanonical (by decide)) hapart hfits
  rw [changesBelow_dataUpdate] at hplaces hothers
  refine ⟨all, sql, result, hall, hmem, hresult, hcontent.mpr (by decide),
    hplaces (["owner", "name"], .str "x") (by simp),
    hplaces (["old"], .obj [("__op", .str "Delete")]) (by simp), hothers ["owner", "age"] ?_ ?_⟩
  · refine ⟨nofun, ?_⟩
    rintro inner ⟨⟩
    exact ⟨nofun, fun _ _ => trivial⟩
  · simp only [Apart]
    decide

/-- The literal that is lost where the object for it is missing; the column stays empty. -/
theorem change_lost :
    ∃ sql result, assignments game [("data.a.b", .int 1)] = .ok [("data", sql)]
      ∧ evaluate (fun _ _ => none) "data" none sql = some result
      ∧ result.at? ["a", "b"] = none ∧ asked (opened none) (["a", "b"], .int 1) = some (.int 1)
      ∧ result.content
        ≠ (altered (opened none) (changesBelow "data" [("data.a.b", .int 1)])).content := by
  refine ⟨_, .obj [], rfl, rfl, rfl, rfl, ?_⟩
  intro heq
  exact absurd (congrArg (Content.at? ["a"]) heq) nofun

end ObjectStore.Update
