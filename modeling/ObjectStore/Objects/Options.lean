import ObjectStore.Schema.Operation
import ObjectStore.Sql.Basic

/-!
# Options

What a caller may ask for besides a query, and the switches of a store.
-/

namespace ObjectStore

/-- The switches of a store. -/
structure Settings where
  movesOrConstraints : Bool := false
  estimatesCounts : Bool := true
  ignoresCase : Bool := false
  deriving Repr, DecidableEq

/-- A field to sort by. -/
structure SortKey where
  field : String
  descending : Bool
  deriving Repr, DecidableEq

/-- How to search. -/
structure FindOptions where
  skip : Option UInt64 := none
  limit : Option UInt64 := none
  sort : List SortKey := []
  keys : Option (List String) := none
  ignoreCase : Bool := false
  operation : Option Operation := none
  deriving Repr, DecidableEq

/-- How to update: every match instead of one, and whether to create what nothing matches. -/
structure UpdateOptions where
  many : Bool := false
  upsert : Bool := false
  deriving Repr, DecidableEq

namespace SortKey

/-- The expression that a key sorts by. -/
def expression (field : String) : Sql :=
  match field with
  | "_created_at" => Sql.name "createdAt"
  | "_updated_at" => Sql.name "updatedAt"
  | "$score" => Sql.name "score"
  | field => if Text.contains field "." then Sql.path field false else Sql.name field

/-- The sort clause of a key. -/
def sql (key : SortKey) : Sql :=
  expression key.field ++ Sql.text (if key.descending then " DESC" else " ASC")

end SortKey

end ObjectStore
