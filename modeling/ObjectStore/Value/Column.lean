import ObjectStore.Schema.FieldType

/-!
# Columns

The column types that fields are stored in. Relations have no column: they live in join tables.
-/

namespace ObjectStore

/-- The type of a column. -/
inductive ColumnType where
  | text
  | double
  | boolean
  | timestamp
  | json
  | textArray
  | point
  | polygon
  deriving Repr, DecidableEq

namespace ColumnType

/-- The engine's name of a column type. -/
def name : ColumnType → String
  | .text => "text"
  | .double => "double precision"
  | .boolean => "boolean"
  | .timestamp => "timestamp with time zone"
  | .json => "jsonb"
  | .textArray => "text[]"
  | .point => "point"
  | .polygon => "polygon"

end ColumnType

/-- The type of the column of a field. -/
def FieldType.column? : FieldType → Option ColumnType
  | .string | .file | .pointer _ => some .text
  | .number => some .double
  | .boolean => some .boolean
  | .date => some .timestamp
  | .object | .bytes => some .json
  | .geoPoint => some .point
  | .polygon => some .polygon
  | .arrayOf .string => some .textArray
  | .array | .arrayOf _ => some .json
  | .relation _ => none

end ObjectStore
