import ObjectStore.Schema.Document

/-!
# Schemas

Every class has an identifier and two timestamps. On every row the storage layer keeps two more
columns, the groups that may read and the groups that may write; clients see them as one `ACL`.
-/

namespace ObjectStore

/-- The identifier of an object. -/
def objectIdField : String := "objectId"

/-- When an object was created. -/
def createdAtField : String := "createdAt"

/-- When an object was last changed. -/
def updatedAtField : String := "updatedAt"

/-- The column of the groups that may read a row. -/
def readColumn : String := "_rperm"

/-- The column of the groups that may write a row. -/
def writeColumn : String := "_wperm"

/-- What clients see in place of the two permission columns. -/
def aclField : String := "ACL"

namespace Schema

/-- The schema of a class with the fields that every class has. -/
def ofClass (className : String) : Schema :=
  { className
    fields := Dict.ofList
      [(objectIdField, .string), (createdAtField, .date), (updatedAtField, .date)] }

/-- The type of a field. -/
def field? (s : Schema) (name : String) : Option FieldType := s.fields.get? name

/-- Whether a class has a field. -/
def hasField (s : Schema) (name : String) : Bool := s.fields.contains name

/-- The schema with one more field. -/
def withField (s : Schema) (name : String) (type : FieldType) : Schema :=
  { s with fields := s.fields.insert name type }

/-- The names of the relation fields. -/
def relationFields (s : Schema) : List String :=
  (s.fields.filter fun field => field.2.isRelation).map Prod.fst

/-- The schema with the permission columns in place of the `ACL`. -/
def forStorage (s : Schema) : Schema :=
  let groups : FieldType := .arrayOf .string
  let fields := s.fields.erase aclField
  { s with fields := (fields.insert readColumn groups).insert writeColumn groups }

/-- The schema as clients see it: without the permission columns, and open if nothing is said. -/
def forClient (s : Schema) : Schema :=
  { s with
    fields := (s.fields.erase readColumn).erase writeColumn
    permissions := some (s.permissions.getD .everyone) }

end Schema

end ObjectStore
