import ObjectStore.Query.Branches
import ObjectStore.Relation.Edges
import ObjectStore.Schema.Basic

/-!
# Resolving relations

A query may ask for the objects that an object is related to, by `$relatedTo`, and may constrain
relation fields. Both are looked up in the join tables and give way to constraints on the object id.
-/

namespace ObjectStore.ObjectIds

/-!
## Constraints on object ids

What a relation allows or excludes is a list of object ids. A query that already constrains the id
is narrowed: allowed lists are intersected, excluded lists are joined.

Two ways to intersect give the same list. Small lists are searched; for many ids it pays to count in
how many lists each one occurs.
-/

/-- The ids of the first list that occur in every list, by searching the lists. -/
def intersectBySearch : List (List String) → List String
  | [] => []
  | first :: rest => (first.filter fun id => rest.all (·.contains id)).eraseDups

/-- The count of an id, zero for one that was not counted. -/
def countOf (counts : Dict Nat) (id : String) : Nat := (counts.get? id).getD 0

/-- Counts of ids with one more of an id. -/
def countOne (counts : Dict Nat) (id : String) : Dict Nat :=
  counts.insert id (countOf counts id + 1)

/-- In how many lists each id occurs: the lists are gone through one after another, and an id counts
once for each list that holds it. -/
def tally (lists : List (List String)) : Dict Nat :=
  lists.foldl (fun counts list => list.eraseDups.foldl countOne counts) []

/-- The ids of the first list that occur in every list, by counting occurrences. -/
def intersectByCount (lists : List (List String)) : List String :=
  let counts := tally lists
  ((lists.headD []).filter fun id => counts.get? id == some lists.length).eraseDups

/-- Above this many ids in total, intersections are counted. -/
def searchLimit : Nat := 125

/-- The ids of the first list that occur in every list. -/
def intersect (lists : List (List String)) : List String :=
  if searchLimit < lists.flatten.length then intersectByCount lists
  else intersectBySearch lists

/-- The texts among the items of a list. -/
def texts? (value : Option Json) : Option (List String) :=
  (value.bind Json.arr?).map (·.filterMap Json.str?)

/-- The lists of ids that a query allows already: a bare id, one to equal, and a list. -/
def allowed (query : Object) : List (List String) :=
  let constraint := query.get? objectIdField
  let operand (key : String) : Option Json := constraint.bind (·.get? key)
  ((constraint.bind Json.str?).map fun id => [id]).toList
    ++ (((operand "$eq").bind Json.str?).map fun id => [id]).toList
    ++ (texts? (operand "$in")).toList

/-- The ids that a query excludes already. -/
def excluded (query : Object) : List String :=
  (texts? ((query.get? objectIdField).bind (·.get? "$nin"))).getD []

/-- The operators on the object id of a query; a bare id is one to equal. -/
def operators (query : Object) : Object :=
  match query.get? objectIdField with
  | some (.str id) => [("$eq", .str id)]
  | some (.obj operators) => operators
  | _ => []

/-- A query with a list of ids under one operator on the object id. -/
def withOperator (query : Object) (key : String) (ids : List String) : Object :=
  query.insert objectIdField (.obj ((operators query).insert key (.ofStrings ids)))

/-- A query narrowed to some ids. -/
def allow (ids : List String) (query : Object) : Object :=
  withOperator query "$in" (intersect (allowed query ++ [ids]))

/-- A query that excludes some more ids. -/
def exclude (ids : List String) (query : Object) : Object :=
  withOperator query "$nin" (excluded query ++ ids).eraseDups

end ObjectStore.ObjectIds

/-!
## Constraints on relations

What a query asks of a relation field: that an edge to one of some objects exists, or that none
does. A constraint that cannot be read as such is one that no edge satisfies.
-/

namespace ObjectStore

/-- That a relation leads to one of some objects, or to none of them. -/
structure RelationFilter where
  isNegated : Bool
  relatedIds : List String
  deriving Repr, DecidableEq

namespace RelationFilter

/-- The ids that a value names: one, or those of a list. -/
def ids : Json → List String
  | .arr items => items.filterMap relatedId?
  | value => (relatedId? value).toList

/-- The filter that one member of a constraint asks for. -/
def ofMember? : String × Json → Option RelationFilter
  | ("objectId", value) | ("$in", value) => some ⟨false, ids value⟩
  | ("$nin", value) | ("$ne", value) => some ⟨true, ids value⟩
  | _ => none

/-- Whether a constraint is a pointer or has an operator that relations know. -/
def isReadable (constraint : Object) : Bool :=
  (constraint.get? typeKey).bind Json.str? == some "Pointer"
    || ["$in", "$nin", "$ne"].any constraint.contains

/-- The filters that a constraint on a relation field asks for. -/
def ofConstraint : Json → List RelationFilter
  | .obj constraint =>
    if isReadable constraint then constraint.filterMap ofMember? else [⟨false, []⟩]
  | _ => [⟨false, []⟩]

end RelationFilter

end ObjectStore

/-! ## Lookups -/

namespace ObjectStore.JoinTables

/-- A query narrowed by one filter on a relation field. -/
def applyFilter (tables : JoinTables) (className field : String) (query : Object)
    (filter : RelationFilter) : Work Object := do
  let owners ← tables.owningIds className field filter.relatedIds
  pure (if filter.isNegated then ObjectIds.exclude owners query
    else ObjectIds.allow owners query)

/-- A query with the constraint on one relation field resolved. -/
def resolveField (tables : JoinTables) (className : String) (query : Object) (field : String) :
    Work Object :=
  match query.get? field with
  | none => pure query
  | some constraint =>
    (RelationFilter.ofConstraint constraint).foldlM (tables.applyFilter className field)
      (query.erase field)

/-- Whether a class has a relation under a name. -/
def isRelationField (schema : Schema) (name : String) : Bool :=
  (schema.field? name).any FieldType.isRelation

/-- A query with the constraints on relation fields that stand in it resolved. -/
def resolveOwnFields (tables : JoinTables) (className : String) (schema : Schema)
    (query : Object) : Work Object :=
  (query.keys.filter (isRelationField schema)).foldlM (tables.resolveField className) query

/-- A query with all constraints on relation fields resolved. -/
def resolveFields (tables : JoinTables) (className : String) (schema : Schema) (query : Object) :
    Work Object :=
  Query.descend (tables.resolveOwnFields className schema) query

/-- The object and the field that `$relatedTo` names. -/
def relatedTo (value : Json) : Result (Pointer × String) :=
  match (value.get? "object").bind Pointer.ofJson?, (value.get? "key").bind Json.str? with
  | none, _ => .error (.invalidJson .relatedToObject)
  | some _, none => .error (.invalidJson .relatedToKey)
  | some owner, some key => .ok (owner, key)

/-- A query with the `$relatedTo` that stands in it resolved. -/
def resolveOwnRelatedTo (tables : JoinTables) (query : Object) : Work Object :=
  match query.get? "$relatedTo" with
  | none => pure query
  | some value => do
    let (owner, key) ← Work.ofResult (relatedTo value)
    let ids ← tables.relatedIds owner.className key owner.objectId
    pure (ObjectIds.allow ids (query.erase "$relatedTo"))

/-- A query with every `$relatedTo` resolved. -/
def resolveRelatedTo (tables : JoinTables) (query : Object) : Work Object :=
  Query.descend tables.resolveOwnRelatedTo query

end ObjectStore.JoinTables
