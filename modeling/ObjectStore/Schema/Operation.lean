/-!
# Operations

The operations that a permission table grants or refuses.
-/

namespace ObjectStore

/-- What a caller may ask to do with a class. -/
inductive Operation where
  | get
  | find
  | count
  | create
  | update
  | delete
  | addField
  deriving Repr, DecidableEq

namespace Operation

/-- The key of the operation in a permission table. -/
def name : Operation → String
  | .get => "get"
  | .find => "find"
  | .count => "count"
  | .create => "create"
  | .update => "update"
  | .delete => "delete"
  | .addField => "addField"

/-- All operations. -/
def all : List Operation := [.get, .find, .count, .create, .update, .delete, .addField]

/-- The operation of a name. -/
def ofName? (name : String) : Option Operation := all.find? fun op => op.name == name

/-- Whether the operation only reads. -/
def isRead : Operation → Bool
  | .get | .find | .count => true
  | _ => false

end Operation

end ObjectStore
