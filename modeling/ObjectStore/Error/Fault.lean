import ObjectStore.Json.Text
import ObjectStore.Schema.Operation

/-!
# Why a request is refused

One type of causes for each kind of error, and the wording of each cause in one place. A cause
carries what its message names and nothing else.
-/

namespace ObjectStore

/-- Why a query, an aggregation pipeline or an index change is malformed. -/
inductive QueryFault where
  | aclQueried
  | combinatorNotArray (combinator : String)
  | emptyNor
  | branchNotObject
  | regexOptions (options : String)
  | clauseNotArray (combinator : String)
  | clauseBranchNotObject (combinator : String)
  | notFieldReference (value : Json)
  | stageShape
  | stageNotObject (stage : String)
  | unknownStage (stage : String)
  | stageCount (stage : String)
  | sortDirection (field : String)
  | groupWithoutId
  | groupId (value : Json)
  | groupKey (label : String) (value : Json)
  | emptyGroupKey (label : String)
  | groupOperator (operator : String)
  | notAccumulator (field : String)
  | accumulator (operator : String)
  | nothingToStore
  | indexExists (name : String)
  | indexMissing (name : String)
  | idIndexKept
  | indexNotMap (name : String)
  | indexField (field : String)
  | unknownClass (className : String)

/-- The wording of a malformed query. -/
def QueryFault.message : QueryFault → String
  | .aclQueried => "Cannot query on ACL."
  | .combinatorNotArray combinator => s!"Bad {combinator} format - use an array value."
  | .emptyNor => "Bad $nor format - use an array of at least 1 value."
  | .branchNotObject => "query branches must be objects"
  | .regexOptions options => s!"Bad $options value for query: {options}"
  | .clauseNotArray combinator => s!"bad {combinator} format - use an array value"
  | .clauseBranchNotObject combinator => s!"bad {combinator} branch - use an object"
  | .notFieldReference value => s!"expected a field reference, got {value.compact}"
  | .stageShape => "each pipeline stage must have one operator"
  | .stageNotObject stage => s!"{stage} must be an object"
  | .unknownStage stage => s!"Invalid aggregate stage {stage}."
  | .stageCount stage => s!"{stage} must be a non-negative integer"
  | .sortDirection field => s!"bad sort direction for {field}"
  | .groupWithoutId => "$group requires an _id"
  | .groupId value => s!"bad group _id {value.compact}"
  | .groupKey label value => s!"bad group key {label}: {value.compact}"
  | .emptyGroupKey label => s!"empty group key {label}"
  | .groupOperator operator => s!"unsupported group operator {operator}"
  | .notAccumulator field => s!"group field {field} must be an accumulator"
  | .accumulator operator => s!"unsupported accumulator {operator}"
  | .nothingToStore => "update has no storable fields"
  | .indexExists name => s!"Index {name} exists, cannot update."
  | .indexMissing name => s!"Index {name} does not exist, cannot delete."
  | .idIndexKept => "Cannot delete the _id_ index."
  | .indexNotMap name => s!"Index {name} must map fields to a direction"
  | .indexField field => s!"Field {field} does not exist, cannot add index."
  | .unknownClass className => s!"Class {className} does not exist."

/-- Why a name is not one that may stand where it does. -/
inductive KeyFault where
  | queryKey (key : String)
  | updateField (key : String)
  | undefinedField (key className : String)
  | notRelation (field className : String)
  | sortField (field : String)

/-- The wording of a refused name. -/
def KeyFault.message : KeyFault → String
  | .queryKey key => s!"Invalid key name: {key}"
  | .updateField key => s!"Invalid field name for update: {key}"
  | .undefinedField key className => s!"field {key} is not defined on {className}"
  | .notRelation field className => s!"{field} is not a relation field of {className}"
  | .sortField field => s!"Invalid field name: {field}."

/-- Why the payload of a query operator has the wrong shape. -/
inductive OperandFault where
  | notList (operator : String)
  | containedBy
  | exists
  | relativeTimeOperator
  | relativeTimeField
  | relativeTimeText
  | textSearch
  | textTerm
  | textLanguage
  | textCaseUnsupported
  | textCaseType
  | textDiacriticUnsupported
  | textDiacriticType
  | nearSphere
  | maxDistance
  | box
  | sphereShape
  | spherePoint
  | sphereDistance
  | polygonCoordinates
  | polygonPoints
  | polygonPoint
  | polygonShape
  | intersectsPoint
  | regexPattern
  | regexOptions
  | tagged (tag : String) (value : Json)
  | quotedMember
  | mixedPatterns (values : List Json)

/-- The wording of a refused operand. -/
def OperandFault.message : OperandFault → String
  | .notList operator => s!"bad {operator} value"
  | .containedBy => "bad $containedBy: should be an array"
  | .exists => "bad $exists value; should be boolean"
  | .relativeTimeOperator =>
    "$relativeTime can only be used with the $lt, $lte, $gt, and $gte operators"
  | .relativeTimeField => "$relativeTime can only be used with Date field"
  | .relativeTimeText => "$relativeTime should be a string"
  | .textSearch => "bad $text: $search, should be object"
  | .textTerm => "bad $text: $term, should be string"
  | .textLanguage => "bad $text: $language, should be string"
  | .textCaseUnsupported =>
    "bad $text: $caseSensitive not supported, please use $regex or "
      ++ "create a separate lower case column."
  | .textCaseType => "bad $text: $caseSensitive, should be boolean"
  | .textDiacriticUnsupported =>
    "bad $text: $diacriticSensitive - false not supported, install Postgres Unaccent Extension"
  | .textDiacriticType => "bad $text: $diacriticSensitive, should be boolean"
  | .nearSphere => "bad $nearSphere value; should be GeoPoint"
  | .maxDistance => "bad $maxDistance value; should be a number"
  | .box => "bad $within.$box value; should be two GeoPoints"
  | .sphereShape =>
    "bad $geoWithin value; $centerSphere should be an array of Parse.GeoPoint and distance"
  | .spherePoint => "bad $geoWithin value; $centerSphere geo point invalid"
  | .sphereDistance => "bad $geoWithin value; $centerSphere distance invalid"
  | .polygonCoordinates =>
    "bad $geoWithin value; Polygon.coordinates should contain at least 3 lon/lat pairs"
  | .polygonPoints => "bad $geoWithin value; $polygon should contain at least 3 GeoPoints"
  | .polygonPoint => "bad $geoWithin value"
  | .polygonShape =>
    "bad $geoWithin value; $polygon should be Polygon object or Array of Parse.GeoPoint's"
  | .intersectsPoint => "bad $geoIntersect value; $point should be GeoPoint"
  | .regexPattern => "bad $regex value; should be a string"
  | .regexOptions => "bad $options value; should be a string"
  | .tagged tag value => s!"invalid {tag} value {value.compact}"
  | .quotedMember => "bad $in value; Strings with quotes cannot yet be safely escaped"
  | .mixedPatterns values =>
    "All $all values must be of regex type or none: " ++ (Json.arr values).compact

/-- Why a JSON value cannot be read as what it should be. -/
inductive ValueFault where
  | date (text : String)
  | relativeForm
  | relativeBoth
  | relativeDangling
  | relativeNumber (text : String)
  | relativeUnit (text : String)
  | notCoordinates
  | latitude (x : Float)
  | longitude (x : Float)
  | bytesMissing
  | bytesEncoding
  | dateValue (value : Json)
  | notArray (value : Json)
  | geoPoint (value : Json)
  | polygon (value : Json)
  | polygonLength
  | polygonVertices
  | aclNotObject
  | incrementAmount
  | operatorObjects
  | relatedToObject
  | relatedToKey
  | operand (fault : OperandFault)
  | document
  | configuration

/-- The wording of an unreadable value. -/
def ValueFault.message : ValueFault → String
  | .date text => s!"invalid date '{text}'"
  | .relativeForm => "Time should either start with 'in' or end with 'ago'"
  | .relativeBoth => "Time cannot have both 'in' and 'ago'"
  | .relativeDangling => "Invalid time string. Dangling unit or number."
  | .relativeNumber text => s!"'{text}' is not an integer."
  | .relativeUnit text => s!"Invalid interval: '{text}'"
  | .notCoordinates => "GeoPoint coordinates must be numbers"
  | .latitude x =>
    "GeoPoint latitude out of bounds: " ++ Decimal.Layout.plain.write x ++ " < -90.0 or > 90.0"
  | .longitude x =>
    "GeoPoint longitude out of bounds: " ++ Decimal.Layout.plain.write x ++ " < -180.0 or > 180.0"
  | .bytesMissing => "Bytes value requires a base64 string"
  | .bytesEncoding => "invalid base64 bytes"
  | .dateValue value => s!"invalid date value {value.compact}"
  | .notArray value => s!"expected an array, got {value.compact}"
  | .geoPoint value => s!"invalid GeoPoint {value.compact}"
  | .polygon value => s!"invalid Polygon {value.compact}"
  | .polygonLength => "Polygon must have at least 3 values"
  | .polygonVertices => "GeoJSON: Loop must have at least 3 different vertices"
  | .aclNotObject => "ACL must be an object"
  | .incrementAmount => "amount to increment must be a number"
  | .operatorObjects => "objects to add must be an array"
  | .relatedToObject => "$relatedTo needs an object pointer"
  | .relatedToKey => "$relatedTo needs a key"
  | .operand fault => fault.message
  | .document => "the schema document is malformed"
  | .configuration => "config"

/-- Why an operation is not allowed. -/
inductive ForbiddenFault where
  | denied (op : Operation) (className : String)
  | queryShape (field : String) (value : Json)
  | updateOperator (value : Json)
  | createOperator (operator : String)
  | masterRequired
  | classNotEmpty (className : String) (count : Nat)

/-- The wording of a refusal. -/
def ForbiddenFault.message : ForbiddenFault → String
  | .denied op className => s!"Permission denied for action {op.name} on class {className}."
  | .queryShape field value => s!"unsupported query shape for field {field}: {value.compact}"
  | .updateOperator value => s!"Postgres doesn't support update {value.compact} yet"
  | .createOperator operator => s!"The {operator} operator is not supported yet."
  | .masterRequired => "Aggregation requires the master key."
  | .classNotEmpty className count =>
    s!"Class {className} is not empty, contains {count} objects, cannot drop schema."

/-- Why an object is not to be seen. -/
inductive AbsenceFault where
  | noObject
  | authenticationRequired
  deriving DecidableEq

/-- The wording of an absence. -/
def AbsenceFault.message : AbsenceFault → String
  | .noObject => "Object not found."
  | .authenticationRequired => "Permission denied, user needs to be authenticated."

/-- Failures that no request can cause by itself. -/
inductive InternalFault where
  | engine (text : String)
  | pointerPermission (className field : String)
  | fieldRecorded (className field : String)
  | notRecord (value : Json)

/-- The wording of an internal failure. -/
def InternalFault.message : InternalFault → String
  | .engine text => text
  | .pointerPermission className field =>
    s!"An unexpected condition occurred when resolving pointer permissions: {className} {field}"
  | .fieldRecorded className field =>
    s!"Attempted to add a field that already exists: {className}.{field}"
  | .notRecord value => s!"expected a record object, got {value.compact}"

end ObjectStore
