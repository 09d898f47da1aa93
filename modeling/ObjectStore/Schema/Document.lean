import ObjectStore.Schema.FieldType
import ObjectStore.Schema.Permission

/-!
# Schema documents

The schema of a class as the metadata table records it. Parts that are empty or absent are left out
of a document; a part that is there must have its type, and unknown parts are ignored.

A record may also be written as the list of its parts in their order of declaration, of which the
last ones may be left out.
-/

namespace ObjectStore

/-- The schema of a class. -/
structure Schema where
  className : String
  fields : Dict FieldType := []
  permissions : Option Permissions := none
  indexes : Dict (Dict Json) := []

namespace Document

/-- The parts of a record by name. -/
def parts? (names : List String) : Json → Option Object
  | .obj fields => some fields
  | .arr items =>
    if items.length ≤ names.length then some (Dict.ofList (names.zip items)) else none
  | _ => none

/-- A part that may be left out, with what it then is. -/
def part? {α : Type} (fields : Object) (key : String) (missing : α) (read : Json → Option α) :
    Option α :=
  match Dict.get? fields key with
  | none => some missing
  | some value => read value

/-- A part that may be left out or be null. -/
def optional? {α : Type} (fields : Object) (key : String) (read : Json → Option α) :
    Option (Option α) :=
  match Dict.get? fields key with
  | none | some .null => some none
  | some value => (read value).map some

/-- Reads a list of strings. -/
def strings? (value : Json) : Option (List String) := value.arr?.bind (·.mapM Json.str?)

/-- Reads a dictionary with values of one type. -/
def dict? {α : Type} (read : Json → Option α) (value : Json) : Option (Dict α) :=
  value.obj?.bind (·.mapM fun entry => (read entry.2).map fun v => (entry.1, v))

/-- A part that is left out of the document if a test says so. -/
def omitIf (omitted : Bool) (key : String) (value : Json) : List (String × Json) :=
  if omitted then [] else [(key, value)]

/-- A part that is left out of the document if it is absent. -/
def present {α : Type} (key : String) (write : α → Json) : Option α → List (String × Json)
  | none => []
  | some value => [(key, write value)]

/-- Writes a dictionary. -/
def ofDict {α : Type} (write : α → Json) (d : Dict α) : Json := .obj (d.mapValues write)

end Document

open Document

namespace Grants

/-- Reads the entry of an operation: besides its two named parts every member is a group. -/
def ofJson? (value : Json) : Option Grants := do
  let fields ← value.obj?
  let requires ← part? fields "requiresAuthentication" false Json.bool?
  let pointers ← part? fields "pointerFields" [] strings?
  let others := Dict.erase (Dict.erase fields "requiresAuthentication") "pointerFields"
  let groups ← dict? Json.bool? (.obj others)
  pure ⟨requires, pointers, groups⟩

/-- Writes the entry of an operation. -/
def toJson (g : Grants) : Json :=
  .ofEntries (omitIf (!g.requiresAuthentication) "requiresAuthentication" (.bool true)
    ++ omitIf g.pointerFields.isEmpty "pointerFields" (.ofStrings g.pointerFields)
    ++ g.groups.mapValues .bool)

end Grants

namespace Permissions

/-- The parts of a permission table in their order of declaration. -/
def partNames : List String :=
  ["find", "get", "count", "create", "update", "delete", "addField", "protectedFields",
    "readUserFields", "writeUserFields"]

/-- Reads a permission table. -/
def ofJson? (value : Json) : Option Permissions := do
  let fields ← parts? partNames value
  let find ← optional? fields "find" Grants.ofJson?
  let get ← optional? fields "get" Grants.ofJson?
  let count ← optional? fields "count" Grants.ofJson?
  let create ← optional? fields "create" Grants.ofJson?
  let update ← optional? fields "update" Grants.ofJson?
  let delete ← optional? fields "delete" Grants.ofJson?
  let addField ← optional? fields "addField" Grants.ofJson?
  let protectedFields ← part? fields "protectedFields" [] (dict? strings?)
  let readUserFields ← part? fields "readUserFields" [] strings?
  let writeUserFields ← part? fields "writeUserFields" [] strings?
  pure { find, get, count, create, update, delete, addField, protectedFields, readUserFields
         writeUserFields }

/-- Writes a permission table. -/
def toJson (p : Permissions) : Json :=
  .ofEntries (Operation.all.flatMap (fun op => present op.name Grants.toJson (p.grants? op))
    ++ omitIf p.protectedFields.isEmpty "protectedFields" (ofDict .ofStrings p.protectedFields)
    ++ omitIf p.readUserFields.isEmpty "readUserFields" (.ofStrings p.readUserFields)
    ++ omitIf p.writeUserFields.isEmpty "writeUserFields" (.ofStrings p.writeUserFields))

end Permissions

namespace Schema

/-- The parts of a schema document in their order of declaration. -/
def partNames : List String := ["className", "fields", "classLevelPermissions", "indexes"]

/-- Reads a map of indexes: the fields of each with their directions. -/
def indexes? (value : Json) : Option (Dict (Dict Json)) := dict? Json.obj? value

/-- Reads a schema document. -/
def ofJson? (value : Json) : Option Schema := do
  let parts ← parts? partNames value
  let className ← (Dict.get? parts "className").bind Json.str?
  let fields ← part? parts "fields" [] (dict? (FieldType.ofJson? false))
  let permissions ← optional? parts "classLevelPermissions" Permissions.ofJson?
  let indexes ← part? parts "indexes" [] indexes?
  pure { className, fields, permissions, indexes }

/-- Writes a map of indexes. -/
def indexesToJson (indexes : Dict (Dict Json)) : Json := ofDict .obj indexes

/-- Writes a schema document. -/
def toJson (s : Schema) : Json :=
  .ofEntries ([("className", .str s.className), ("fields", ofDict FieldType.toJson s.fields)]
    ++ present "classLevelPermissions" Permissions.toJson s.permissions
    ++ omitIf s.indexes.isEmpty "indexes" (indexesToJson s.indexes))

end Schema

end ObjectStore
