import ObjectStore.Proofs.Access.Acl
import ObjectStore.Proofs.Request.Prepare

/-!
# An access control list decides access

An object is stored with the lists of groups that its `ACL` makes, and a query on behalf of a caller
is restricted to the rows whose lists name one of its groups. The two meet in the engine, which
reads the array literals of both sides: the restriction holds on the stored row exactly if the `ACL`
grants the right to one of the caller's groups. And whoever is shown the row gets the grants that
the `ACL` made, no more and no less (`StandsFor`).
-/

namespace ObjectStore.Request

open Access

variable {acl stored record : Object} {groups named readers writers : List String}
  {column right : String} {row : StoredRow}

/-- A row whose permission columns are those that an object is stored with. -/
structure HoldsColumnsOf (row : StoredRow) (stored : Object) : Prop where
  readers : row.readers = storedGroups? stored readColumn
  writers : row.writers = storedGroups? stored writeColumn

/-- What a query has for a column compiles, and holds on a row exactly if a condition is met. -/
def HoldsExactlyIf (c : Compiler) (query : Object) (column : String) (row : StoredRow)
    (condition : Prop) : Prop :=
  ∃ constraint compiled, query.get? column = some constraint
    ∧ c.compileEntry (column, constraint) = .ok compiled
    ∧ (compiled.Holds row.truth ↔ condition)

/-- The columns that an object is stored with do what an `ACL` says: whoever has a group that the
`ACL` lets read may read the row, and nobody else; likewise for writing; and a record with these
columns is shown with the true grants of the `ACL` in their place. -/
structure StandsFor (stored acl : Object) : Prop where
  reads : ∀ (row : StoredRow) (caller : Caller) groups schema ignoreCase now query,
    HoldsColumnsOf row stored → caller.groups? = some groups →
      HoldsExactlyIf (.ofSchema schema ignoreCase now) (restrictToReaders query groups) readColumn
        row (∃ group ∈ groups, grants acl group "read" = true)
  writes : ∀ (row : StoredRow) (caller : Caller) groups schema ignoreCase now query,
    HoldsColumnsOf row stored → caller.groups? = some groups →
      HoldsExactlyIf (.ofSchema schema ignoreCase now) (restrictToWriters query groups) writeColumn
        row (∃ group ∈ groups, grants acl group "write" = true)
  shown : ∀ record : Object,
    record.get? readColumn = (storedGroups? stored readColumn).map .ofStrings →
    record.get? writeColumn = (storedGroups? stored writeColumn).map .ofStrings →
      toWire record = ((record.erase readColumn).erase writeColumn).insert aclField
        (.obj (effective acl))

/-! ## Each way by itself -/

/-- The restriction of a query to some groups holds on the rows whose column names one of them. -/
theorem holdsExactlyIf_restrict (schema : Schema) (ignoreCase : Bool) (now : Timestamp)
    (query : Object) (hcolumn : IsPermission column) (hne : groups ≠ [])
    (hcell : row.cell? column = some (some named)) :
    HoldsExactlyIf (.ofSchema schema ignoreCase now) (restrict query column (oneOf groups)) column
      row (∃ group ∈ groups, group ∈ named) := by
  have hand : column ≠ "$and" := by rcases hcolumn with rfl | rfl <;> decide
  refine ⟨_, _, get?_restrict query _ hand,
    compileEntry_oneOf schema ignoreCase now hcolumn (eraseDups_ne_nil hne), ?_⟩
  have hsingle : (Compiled.ofPredicate (openTo column groups.eraseDups)).Holds row.truth
      ↔ (openTo column groups.eraseDups).truth row.truth = some true :=
    List.forall_mem_singleton
  rw [hsingle, truth_openTo hcolumn]
  simp [StoredRow.IsOpenTo, hcell]

/-- The columns of an object with an `ACL` stand for it. -/
theorem standsFor_of_grantedGroups (hs : acl.Sorted)
    (hread : storedGroups? stored readColumn = some (grantedGroups acl "read"))
    (hwrite : storedGroups? stored writeColumn = some (grantedGroups acl "write")) :
    StandsFor stored acl where
  reads row caller groups schema ignoreCase now query hrow hcaller := by
    have hcell : row.cell? readColumn = some (some (grantedGroups acl "read")) := by
      rw [← hread, ← hrow.readers]
      rfl
    have hpublic : publicGroup :: groups ≠ [] := List.cons_ne_nil _ _
    -- everyone's group is one of the caller's, so it adds none
    have hgroups : (∃ group ∈ publicGroup :: groups, group ∈ grantedGroups acl "read")
        ↔ ∃ group ∈ groups, grants acl group "read" = true := by
      have hmem := publicGroup_mem hcaller
      simp only [mem_grantedGroups hs, List.exists_mem_cons_iff, or_iff_right_iff_imp]
      exact fun h => ⟨publicGroup, hmem, h⟩
    rw [← hgroups]
    exact holdsExactlyIf_restrict schema ignoreCase now query (Or.inl rfl) hpublic hcell
  writes row caller groups schema ignoreCase now query hrow hcaller := by
    have hcell : row.cell? writeColumn = some (some (grantedGroups acl "write")) := by
      rw [← hwrite, ← hrow.writers]
      rfl
    simp only [← mem_grantedGroups hs]
    exact holdsExactlyIf_restrict schema ignoreCase now query (Or.inr rfl)
      (List.ne_nil_of_mem (publicGroup_mem hcaller)) hcell
  shown record hreaders hwriters := by
    rw [hread] at hreaders
    rw [hwrite] at hwriters
    rw [toWire_of_groups hreaders hwriters, ofGroups_grantedGroups hs]

/-- What is shown of a record with two lists of groups is stored with lists of the same groups. -/
theorem toColumns_toWire (hread : record.get? readColumn = some (.ofStrings readers))
    (hwrite : record.get? writeColumn = some (.ofStrings writers)) :
    ∃ again readers' writers', toColumns (toWire record) = .ok again
      ∧ storedGroups? again readColumn = some readers'
      ∧ storedGroups? again writeColumn = some writers'
      ∧ (∀ group, group ∈ readers' ↔ group ∈ readers)
      ∧ ∀ group, group ∈ writers' ↔ group ∈ writers := by
  have hacl : (toWire record).get? aclField = some (.obj (ofGroups readers writers)) := by
    rw [toWire_of_groups hread hwrite]
    exact Dict.get?_insert_self ..
  obtain ⟨again, hagain, hreaders, hwriters⟩ := toColumns_of_acl hacl
  exact ⟨again, _, _, hagain, storedGroups?_ofStrings hreaders, storedGroups?_ofStrings hwriters,
    fun _ => mem_grantedGroups_ofGroups.1, fun _ => mem_grantedGroups_ofGroups.2⟩

/-! ## Both ways -/

/-- Every object with an `ACL` is stored with columns that stand for the `ACL`. And a record with
two lists of groups is shown as an object that is stored with the same two sets of groups. -/
theorem acl_kept_by_columns (object acl : Object) (hs : acl.Sorted)
    (hobject : object.get? aclField = some (.obj acl)) (record : Object)
    (readers writers : List String) (hread : record.get? readColumn = some (.ofStrings readers))
    (hwrite : record.get? writeColumn = some (.ofStrings writers)) :
    (∃ stored, toColumns object = .ok stored ∧ StandsFor stored acl)
      ∧ ∃ again readers' writers', toColumns (toWire record) = .ok again
        ∧ storedGroups? again readColumn = some readers'
        ∧ storedGroups? again writeColumn = some writers'
        ∧ (∀ group, group ∈ readers' ↔ group ∈ readers)
        ∧ ∀ group, group ∈ writers' ↔ group ∈ writers := by
  obtain ⟨stored, hstored, hreaders, hwriters⟩ := toColumns_of_acl hobject
  exact ⟨⟨stored, hstored, standsFor_of_grantedGroups hs (storedGroups?_ofStrings hreaders)
    (storedGroups?_ofStrings hwriters)⟩, toColumns_toWire hread hwrite⟩

/-- An `ACL` whose groups are hard to quote, and half of whose entries only look like grants. -/
def hostileAcl : Object :=
  [("", .obj [("read", .bool true)]), ("\"\\,\x7d", .obj [("write", .bool true)]),
    ("*", .obj [("read", .str "true"), ("write", .bool false)]), ("NULL", .null)]

/-- The columns of a hostile `ACL` stand for it, of which two entries are effective; and lists of
groups that are hard to quote, or named twice, come back as the same sets. -/
theorem hostileAcl_kept_by_columns :
    effective hostileAcl = [("", .obj [("read", .bool true)]),
        ("\"\\,\x7d", .obj [("write", .bool true)])]
      ∧ (∃ stored, toColumns [(aclField, .obj hostileAcl)] = .ok stored
        ∧ StandsFor stored hostileAcl)
      ∧ ∃ again readers writers, toColumns (toWire [(readColumn, .ofStrings ["\\", "", "\\"]),
            (writeColumn, .ofStrings ["NULL"])]) = .ok again
        ∧ storedGroups? again readColumn = some readers
        ∧ storedGroups? again writeColumn = some writers
        ∧ (∀ group, group ∈ readers ↔ group ∈ ["\\", "", "\\"])
        ∧ ∀ group, group ∈ writers ↔ group ∈ ["NULL"] :=
  have hs : hostileAcl.Sorted := by
    unfold hostileAcl Dict.Sorted
    decide
  ⟨rfl, acl_kept_by_columns [(aclField, .obj hostileAcl)] hostileAcl hs rfl
    [(readColumn, .ofStrings ["\\", "", "\\"]), (writeColumn, .ofStrings ["NULL"])]
    ["\\", "", "\\"] ["NULL"] rfl rfl⟩

end ObjectStore.Request
