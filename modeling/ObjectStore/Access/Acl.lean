import ObjectStore.Error.Basic
import ObjectStore.Json.Basic
import ObjectStore.Schema.Basic

/-!
# Access control lists

A row keeps two lists of groups, those that may read it and those that may write it; a row without
lists is open to all. Clients see both lists as one `ACL`, a map from groups to what they may do. A
query on behalf of some groups is restricted to the rows whose lists name one of them.
-/

namespace ObjectStore.Access

/-- A constraint that holds where a list of groups is absent or names one of some groups. -/
def oneOf (groups : List String) : Json :=
  .ofEntries [("$in", .arr (.null :: groups.eraseDups.map .str))]

/-- A query with one more branch that must hold. -/
def addBranch (query : Object) (branch : Object) : Object :=
  let branches := ((query.get? "$and").bind Json.arr?).getD []
  query.insert "$and" (.arr (branches ++ [.obj branch]))

/-- A query with a constraint on a permission column; what it asked of the column before still has
to hold. -/
def restrict (query : Object) (column : String) (constraint : Json) : Object :=
  let restricted := query.insert column constraint
  match query.get? column with
  | some previous =>
    if previous == constraint then restricted else addBranch restricted [(column, previous)]
  | none => restricted

/-- A query restricted to the rows that some groups may read. -/
def restrictToReaders (query : Object) (groups : List String) : Object :=
  restrict query readColumn (oneOf (publicGroup :: groups))

/-- A query restricted to the rows that some groups may write. -/
def restrictToWriters (query : Object) (groups : List String) : Object :=
  restrict query writeColumn (oneOf groups)

/-! ## The wire form -/

/-- The groups that an `ACL` grants a right to. -/
def grantees (acl : Object) (right : String) : List Json :=
  (acl.filter fun (_, grant) => (grant.get? right).bind Json.bool? == some true).map
    fun (group, _) => .str group

/-- An object with the two permission columns in place of its `ACL`. -/
def toColumns (object : Object) : Result Object :=
  match object.get? aclField with
  | none => .ok object
  | some (.obj acl) =>
    .ok (((object.erase aclField).insert readColumn (.arr (grantees acl "read"))).insert
      writeColumn (.arr (grantees acl "write")))
  | some _ => .error (.invalidJson .aclNotObject)

/-- An object with a value for a key that it lacks. -/
def withDefault (object : Object) (key : String) (value : Json) : Object :=
  if object.contains key then object else object.insert key value

/-- An object that is open to all as far as it does not say otherwise. -/
def withOpenColumns (object : Object) : Object :=
  [readColumn, writeColumn].foldl
    (fun object column => withDefault object column (.ofStrings [publicGroup])) object

/-- An `ACL` that grants a right to one more group. -/
def grant (acl : Object) (right group : String) : Object :=
  let rights := ((acl.get? group).bind Json.obj?).getD []
  acl.insert group (.obj (rights.insert right (.bool true)))

/-- An `ACL` that grants a right to the groups of a permission column. -/
def grantColumn (acl : Object) (right : String) (column : Option Json) : Object :=
  ((column.bind Json.arr?).getD []).filterMap Json.str? |>.foldl (grant · right ·) acl

/-- An object with its `ACL` in place of the two permission columns. -/
def toWire (object : Object) : Object :=
  let read := object.get? readColumn
  let write := object.get? writeColumn
  if read.isNone && write.isNone then object
  else
    ((object.erase readColumn).erase writeColumn).insert aclField
      (.obj (grantColumn (grantColumn [] "read" read) "write" write))

end ObjectStore.Access
