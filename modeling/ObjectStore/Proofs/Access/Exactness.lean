import ObjectStore.Proofs.Access.Widening

/-!
# Restrictions to groups are exact

A query that compiles, restricted to some groups, still compiles, and it selects the rows that it
selected before as far as they are open to the groups (`restrictsTo_restrict`). What the query asked
of the permission column itself, and the `$and` that it had, are asked still. Hence the order of two
restrictions does not matter to the rows.

A restriction finds its own constraint again, so done twice it leaves the query as it is after the
first time (`restrict_restrict`).
-/

namespace ObjectStore.Access

variable {s : Schema} {ignoreCase : Bool} {now : Timestamp} {query : Object} {column : String}
  {constraint : Json} {groups : List String}

/-- A query compiles, and selects the rows of another one that are open to some groups. -/
structure RestrictsTo (c : Compiler) (query restricted : Object) (column : String)
    (groups : List String) : Prop where
  compiles : c.Compiles restricted
  admits_iff : ∀ row : StoredRow, c.Admits row.truth restricted ↔
    c.Admits row.truth query ∧ row.IsOpenTo column groups

/-- Restricting a query to the groups that may read and restricting it to those that may write are
both exact. Done twice, either is as done once; done one after the other, both orders are the same
to the rows. -/
structure RestrictsExactly (c : Compiler) (query : Object) (readers writers : List String) :
    Prop where
  reads : RestrictsTo c query (restrictToReaders query readers) readColumn (publicGroup :: readers)
  writes : RestrictsTo c query (restrictToWriters query writers) writeColumn writers
  reads_twice : restrictToReaders (restrictToReaders query readers) readers
    = restrictToReaders query readers
  writes_twice : restrictToWriters (restrictToWriters query writers) writers
    = restrictToWriters query writers
  reads_first : c.Compiles (restrictToWriters (restrictToReaders query readers) writers)
  writes_first : c.Compiles (restrictToReaders (restrictToWriters query writers) readers)
  order : ∀ row : StoredRow,
    c.Admits row.truth (restrictToWriters (restrictToReaders query readers) writers)
      ↔ c.Admits row.truth (restrictToReaders (restrictToWriters query writers) readers)

theorem IsPermission.ne_and (h : IsPermission column) : column ≠ "$and" := by
  rcases h with rfl | rfl <;> decide

/-- The restriction of a query to some groups is exact. -/
theorem restrictsTo_restrict (hcolumn : IsPermission column) (hq : query.Canonical)
    (hcompiles : (Compiler.ofSchema s ignoreCase now).Compiles query) (groups : List String) :
    RestrictsTo (.ofSchema s ignoreCase now) query (restrict query column (oneOf groups)) column
      groups := by
  -- a query that compiles has a list for an `$and`, so a branch can be added to it
  have htakes : TakesBranch query :=
    takesBranch_of_entrywise (Compiler.entrywise_compiles _) hq hcompiles
  have hiff {P : Object → Prop} {PEntry : String × Json → Prop} (hP : Query.Entrywise P PEntry) :
      P (restrict query column (oneOf groups)) ↔ P query ∧ PEntry (column, oneOf groups) :=
    entrywise_restrict_iff hP hq (canonical_oneOf groups) (isExact_oneOf groups) hcolumn.ne_and
      (Or.inl htakes)
  refine ⟨(hiff (Compiler.entrywise_compiles _)).mpr ⟨hcompiles, ?_⟩, ?_⟩
  · exact ⟨_, compileEntry_oneOf_eq s ignoreCase now hcolumn groups⟩
  · intro row
    rw [hiff (Compiler.entrywise_admits _ _), admitsEntry_oneOf_iff hcolumn]

/-- A restricted query is left as it is when it is restricted in the same way again. -/
theorem restrict_restrict (hcolumn : column ≠ "$and") (hq : query.Canonical)
    (hc : constraint.Canonical) (hexact : constraint.isExact = true) :
    restrict (restrict query column constraint) column constraint
      = restrict query column constraint := by
  have hget := get?_restrict query constraint hcolumn
  have hself : (constraint == constraint) = true := Json.beq_self_of_isExact hexact
  have hsorted : Dict.Sorted (restrict query column constraint) :=
    (canonical_restrict hq hc).sorted
  rw [restrict, hget]
  simp only [hself, if_true]
  exact hsorted.insert_eq_self hget

/-- Restricting a query that compiles is exact, whatever the query asks of the permission columns
itself and whatever `$and` it has. -/
theorem restrictsExactly_of_compiles (s : Schema) (ignoreCase : Bool) (now : Timestamp)
    (query : Object) (readers writers : List String) (hq : query.Canonical)
    (hcompiles : (Compiler.ofSchema s ignoreCase now).Compiles query) :
    RestrictsExactly (.ofSchema s ignoreCase now) query readers writers := by
  have hread : IsPermission readColumn := Or.inl rfl
  have hwrite : IsPermission writeColumn := Or.inr rfl
  have htoReaders := restrictsTo_restrict hread hq hcompiles (publicGroup :: readers)
  have htoWriters := restrictsTo_restrict hwrite hq hcompiles writers
  -- each restriction leaves a query that the other one is exact on
  have hreadFirst := restrictsTo_restrict hwrite (canonical_restrict hq (canonical_oneOf _))
    htoReaders.compiles writers
  have hwriteFirst := restrictsTo_restrict hread (canonical_restrict hq (canonical_oneOf _))
    htoWriters.compiles (publicGroup :: readers)
  refine ⟨htoReaders, htoWriters, restrict_restrict hread.ne_and hq (canonical_oneOf _)
    (isExact_oneOf _), restrict_restrict hwrite.ne_and hq (canonical_oneOf _) (isExact_oneOf _),
    hreadFirst.compiles, hwriteFirst.compiles, ?_⟩
  intro row
  let c := Compiler.ofSchema s ignoreCase now
  calc c.Admits row.truth (restrictToWriters (restrictToReaders query readers) writers)
      ↔ (c.Admits row.truth query ∧ row.IsOpenTo readColumn (publicGroup :: readers))
          ∧ row.IsOpenTo writeColumn writers :=
        (hreadFirst.admits_iff row).trans (and_congr_left' (htoReaders.admits_iff row))
    _ ↔ (c.Admits row.truth query ∧ row.IsOpenTo writeColumn writers)
          ∧ row.IsOpenTo readColumn (publicGroup :: readers) := and_right_comm
    _ ↔ c.Admits row.truth (restrictToReaders (restrictToWriters query writers) readers) :=
        ((hwriteFirst.admits_iff row).trans (and_congr_left' (htoWriters.admits_iff row))).symm

/-- A query with an `$and`, which asks something of both permission columns itself. -/
def onePost : Object :=
  [("$and", .arr [.obj [("kind", .str "news")]]), (readColumn, .obj [("$ne", .str "*")]),
    (writeColumn, .null), ("objectId", .str "p")]

/-- Restricted to the rows that anyone may write, the query asks in its `$and` for what it asked of
that column itself. Restricting it is exact, also to groups that are listed twice and to none. -/
theorem onePost_restrictsExactly :
    onePost.Canonical
      ∧ (Compiler.ofSchema (Schema.ofClass "Post") false ⟨0, 0⟩).Compiles onePost
      ∧ restrictToWriters onePost []
        = [("$and", .arr [.obj [("kind", .str "news")], .obj [(writeColumn, .null)]]),
            (readColumn, .obj [("$ne", .str "*")]), (writeColumn, .obj [("$in", .arr [.null])]),
            ("objectId", .str "p")]
      ∧ RestrictsExactly (.ofSchema (Schema.ofClass "Post") false ⟨0, 0⟩) onePost
        ["u", "*", "u"] [] :=
  have hq : onePost.Canonical := Object.canonical_of_isCanonical (by decide)
  have hcompiles : (Compiler.ofSchema (Schema.ofClass "Post") false ⟨0, 0⟩).Compiles onePost :=
    ⟨_, rfl⟩
  ⟨hq, hcompiles, rfl,
    restrictsExactly_of_compiles _ false ⟨0, 0⟩ onePost ["u", "*", "u"] [] hq hcompiles⟩

end ObjectStore.Access
