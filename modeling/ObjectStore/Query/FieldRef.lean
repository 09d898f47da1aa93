import ObjectStore.Query.Constraint
import ObjectStore.Schema.Basic
import ObjectStore.Sql.Basic
import ObjectStore.Text.Pattern
import ObjectStore.Time.Relative
import ObjectStore.Value.Encode

/-!
# What operators ask of a field

Each operator on a field becomes a predicate on the field's column, or on the text at the end of a
path into it. Looking near to a place also asks for an order of the rows, so what is asked is a list
of predicates and a list of sort clauses.
-/

namespace ObjectStore

/-- The predicates that a part of a query asks for, all of which must hold, and the sort clauses
that it asks for. -/
structure Compiled where
  predicates : List Predicate := []
  sorts : List Sql := []

namespace Compiled

/-- A part of a query that asks for one predicate. -/
def ofPredicate (p : Predicate) : Compiled := { predicates := [p] }

/-- A part of a query that asks for a clause. -/
def ofClause (sql : Sql) : Compiled := ofPredicate (.clause sql)

/-- Two parts of a query together. -/
def append (a b : Compiled) : Compiled := ⟨a.predicates ++ b.predicates, a.sorts ++ b.sorts⟩

instance : Append Compiled := ⟨append⟩

/-- Parts of a query together. -/
def concat (parts : List Compiled) : Compiled :=
  ⟨parts.flatMap predicates, parts.flatMap sorts⟩

end Compiled

/-- A field as a query names it: the type is known for whole fields, not for paths into one. -/
structure FieldRef where
  name : String
  type : Option FieldType
  isPath : Bool

namespace FieldRef

/-- The column of a field, or the text at the end of a path. -/
def column (f : FieldRef) : Sql := if f.isPath then Sql.path f.name true else Sql.name f.name

/-- Whether the field holds arrays. -/
def isArray (f : FieldRef) : Bool := f.type.any FieldType.isArray

/-- Whether the field holds arrays of texts. -/
def isStringArray (f : FieldRef) : Bool := f.type.any FieldType.isStringArray

/-- The field holds nothing. -/
def isNull (f : FieldRef) : Predicate := .clause (f.column ++ Sql.text " IS NULL")

/-- The field holds something. -/
def isNotNull (f : FieldRef) : Predicate := .clause (f.column ++ Sql.text " IS NOT NULL")

/-- The field compared with an expression. -/
def compareWith (f : FieldRef) (sign : String) (operand : Sql) : Predicate :=
  .clause (f.column ++ Sql.text (" " ++ sign ++ " ") ++ operand)

/-- The type that the text at the end of a path is cast to, to compare it with a value. -/
def castFor : Json → Option String
  | .int _ | .double _ => some "double precision"
  | .bool _ => some "boolean"
  | _ => none

/-- The field compared with a value. Texts at the end of a path are cast to the value's type. -/
def compareValue (f : FieldRef) (sign : String) (value : Json) : Predicate :=
  if f.isPath then
    match castFor value with
    | some type =>
      .clause (Sql.text "CAST((" ++ f.column ++ Sql.text (") AS " ++ type ++ ") " ++ sign ++ " ")
        ++ Sql.bind value.param)
    | none => f.compareWith sign (Sql.bindText value.textForm)
  else f.compareWith sign (FieldType.comparand f.type value)

/-- Relative times are bounds only. -/
def refuseRelativeTime (value : Json) : Result Unit :=
  if (value.get? "$relativeTime").isSome then .error OperandFault.relativeTimeOperator.error
  else .ok ()

/-- The array of the field holds one of some values. -/
def containsAny (f : FieldRef) (values : List Json) : Predicate :=
  if f.isStringArray then f.compareWith "&&" (FieldType.textArray values)
  else
    .clause (Sql.text "array_contains(" ++ f.column ++ Sql.text ", "
      ++ Sql.bindJson (Json.arr values).compact ++ Sql.text ")")

/-- The field differs from a value, which a field that holds nothing does. -/
def differs (f : FieldRef) (value : Json) : Result Predicate :=
  if value.isNull then .ok f.isNotNull
  else if f.isArray then .ok (.any [f.isNull, .not (f.containsAny [value])])
  else match GeoPoint.ofJson? value with
    | some point => .ok (.any [f.isNull, .not (f.compareWith "~=" point.sql)])
    | none => do
      refuseRelativeTime value
      pure (.any [f.compareValue "<>" value, f.isNull])

/-- The field equals a value; equal to null is what a field that holds nothing is. -/
def equals (f : FieldRef) (value : Json) : Result Predicate :=
  if value.isNull then .ok f.isNull
  else do
    refuseRelativeTime value
    pure (f.compareValue "=" value)

/-! ## Lists of values -/

/-- The members of a list, with the members of inner lists in their place. -/
def flatten (values : List Json) : List Json :=
  values.flatMap fun
    | .arr items => items
    | value => [value]

/-- Whether a value is a text with a quote in it. -/
def holdsQuote : Json → Bool
  | .str s => Text.contains s "\"" || Text.contains s "'"
  | _ => false

/-- The JSON at the end of a path is one of some values. -/
def pathIsIn (f : FieldRef) (values : List Json) : Result Compiled :=
  if values.any holdsQuote then .error OperandFault.quotedMember.error
  else .ok (.ofClause ((Sql.path f.name false).parens ++ Sql.text "::jsonb <@ "
    ++ Sql.bindJson (Json.arr values).compact))

/-- The array of the field holds one of some values; nothing matches an empty field only if null is
among them. -/
def arrayIsIn (f : FieldRef) (values : List Json) : Predicate :=
  let hasNull := values.any Json.isNull
  let members := if f.isStringArray then values.filter fun v => !v.isNull else values
  if members.isEmpty then f.isNull
  else if hasNull && f.isStringArray then .any [f.isNull, f.containsAny members]
  else f.containsAny members

/-- The array of the field holds none of some values. -/
def arrayNotIn (f : FieldRef) (values : List Json) : Predicate :=
  let hasNull := values.any Json.isNull
  let members := if f.isStringArray then values.filter fun v => !v.isNull else values
  if members.isEmpty then if hasNull then f.isNotNull else .clause (Sql.text "1 = 1")
  else if hasNull then .all [f.isNotNull, .not (f.containsAny members)]
  else .any [f.isNull, .not (f.containsAny members)]

/-- The field compared with a list of values. -/
def listClause (f : FieldRef) (word : String) (values : List Json) : Predicate :=
  f.compareWith word (Sql.join ", " (values.map (FieldType.comparand f.type))).parens

/-- The field is one of some values; null among them stands for a field that holds nothing. -/
def scalarIsIn (f : FieldRef) (values : List Json) : Predicate :=
  let hasNull := values.any Json.isNull
  let members := values.filter fun v => !v.isNull
  if members.isEmpty then if hasNull then f.isNull else .clause (Sql.text "1 = 2")
  else if hasNull then .any [f.isNull, f.listClause "IN" members]
  else f.listClause "IN" members

/-- The field is none of some values. -/
def scalarNotIn (f : FieldRef) (values : List Json) : Predicate :=
  let hasNull := values.any Json.isNull
  let members := values.filter fun v => !v.isNull
  if members.isEmpty then if hasNull then f.isNotNull else .clause (Sql.text "1 = 1")
  else f.listClause "NOT IN" members

/-- The field is one of some values. -/
def isIn (f : FieldRef) (values : List Json) : Result Compiled :=
  let values := flatten values
  if f.isPath then f.pathIsIn values
  else .ok (.ofPredicate (if f.isArray then f.arrayIsIn values else f.scalarIsIn values))

/-- The field is none of some values; of a path this asks nothing. -/
def notIn (f : FieldRef) (values : List Json) : Compiled :=
  let values := flatten values
  if f.isPath then {}
  else .ofPredicate (if f.isArray then f.arrayNotIn values else f.scalarNotIn values)

/-- The pattern of a value that asks for texts with a given start. -/
def anchored? (value : Json) : Option String :=
  ((value.get? "$regex").bind Json.str?).filter Text.Pattern.isAnchoredRegion

/-- The pattern of the engine that matches what an anchored pattern does, as a like-pattern. -/
def likePattern (pattern : String) : Json :=
  let form := Text.double '\'' (Text.Pattern.engineForm pattern)
  .str ((Text.dropStart? form "^").getD form ++ "%")

/-- The array of the field holds a match of every pattern. -/
def containsAllMatches (f : FieldRef) (patterns : List String) : Predicate :=
  let target :=
    if f.isStringArray then Sql.text "to_jsonb(" ++ f.column ++ Sql.text ")" else f.column
  .clause (Sql.text "array_contains_all_regex(" ++ target ++ Sql.text ", "
    ++ Sql.bindJson (Json.arr (patterns.map likePattern)).compact ++ Sql.text ")")

/-- The array of the field holds every value of a list. -/
def containsAll (f : FieldRef) (values : List Json) : Predicate :=
  if f.isStringArray then f.compareWith "@>" (FieldType.textArray values)
  else
    .clause (Sql.text "array_contains_all(" ++ f.column ++ Sql.text ", "
      ++ Sql.bindJson (Json.arr values).compact ++ Sql.text ")")

/-- The field holds all values of a list. A field that is no array can only hold one. -/
def holdsAll (f : FieldRef) (values : List Json) : Result Compiled :=
  if !f.isArray then
    match values with
    | [only] => .ok (.ofPredicate (f.compareValue "=" only))
    | _ => .ok {}
  else
    let patterns := values.filterMap anchored?
    if patterns.isEmpty then .ok (.ofPredicate (f.containsAll values))
    else if patterns.length < values.length then
      .error (OperandFault.mixedPatterns values).error
    else .ok (.ofPredicate (f.containsAllMatches patterns))

/-! ## Texts and places -/

/-- The document of a full-text search and the search itself, in a language. -/
def searchMatch (f : FieldRef) (search : TextSearch) : Predicate :=
  .clause (Sql.text "to_tsvector(" ++ Sql.bindText search.language ++ Sql.text "::regconfig, "
    ++ f.column ++ Sql.text ") @@ to_tsquery(" ++ Sql.bindText search.language
    ++ Sql.text "::regconfig, " ++ Sql.bindText search.term ++ Sql.text ")")

/-- The length of a radian on the globe, in metres. -/
def metresPerRadian : Float := 6371000.0

/-- The distance between the field and a point, in metres. -/
def distanceTo (f : FieldRef) (point : GeoPoint) : Sql :=
  Sql.text "ST_DistanceSphere(" ++ f.column ++ Sql.text "::geometry, " ++ point.sql
    ++ Sql.text "::geometry)"

/-- The field lies within a distance of a point. -/
def withinDistance (f : FieldRef) (point : GeoPoint) (radians : Float) : Predicate :=
  .clause (f.distanceTo point ++ Sql.text " <= " ++ Sql.bind (.double (radians * metresPerRadian)))

/-- The field lies near to a point; the nearest rows come first. -/
def near (f : FieldRef) (point : GeoPoint) (maxDistance : Option Float) : Compiled :=
  let bound := match maxDistance with
    | some radians => f.withinDistance point radians
    | none => f.isNotNull
  ⟨[bound], [f.distanceTo point ++ Sql.text " ASC"]⟩

/-- The field, cast to a shape, stands in a relation to the literal of another shape. -/
def shapeClause (f : FieldRef) (cast sign literal shape : String) : Predicate :=
  .clause (f.column ++ Sql.text ("::" ++ cast ++ " " ++ sign ++ " ") ++ Sql.bindText literal
    ++ Sql.text ("::" ++ shape))

/-- The literal of a box. -/
def boxLiteral (bottomLeft topRight : GeoPoint) : String :=
  Polygon.ringLiteral [bottomLeft, topRight]

/-- The field matches a pattern: option `i` ignores case, and option `x` allows blanks and comments
in the pattern. -/
def matchesPattern (f : FieldRef) (pattern options : String) : Predicate :=
  let sign := if Text.contains options "i" then "~*" else "~"
  let pattern := if Text.contains options "x" then Text.Pattern.condense pattern else pattern
  f.compareWith sign (Sql.literal (Text.Pattern.engineForm pattern))

/-! ## Operators -/

/-- The field equals a tagged value. -/
def equalsTagged (f : FieldRef) : TaggedValue → Result Predicate
  | .pointer target written =>
    .ok (if f.isArray then f.containsAny [written]
      else f.compareWith "=" (Sql.bindText target.objectId))
  | .date iso => .ok (f.compareWith "=" (Sql.bindText iso ++ Sql.text "::timestamptz"))
  | .geoPoint point => .ok (f.compareWith "~=" point.sql)
  | .polygon ring => do
    pure (f.compareWith "~=" (Sql.bindText (← ring.literal) ++ Sql.text "::polygon"))
  | .file name => .ok (f.compareWith "=" (Sql.bindText name))

/-- The moment that a relative time names, as a tagged date. -/
def relativeDate (f : FieldRef) (now : Timestamp) (relative : Json) : Result Json := do
  if f.type ≠ some .date then throw OperandFault.relativeTimeField.error
  let text ← OperandFault.relativeTimeText.demand relative.str?
  pure (.ofDate (← (← RelativeTime.resolve text now).toIso))

/-- The field compared with a bound, which may be a relative time. -/
def compareBound (f : FieldRef) (now : Timestamp) (comparator : Comparator) (bound : Json) :
    Result Predicate :=
  match bound.get? "$relativeTime" with
  | some relative => do pure (f.compareValue comparator.sign (← f.relativeDate now relative))
  | none => .ok (f.compareValue comparator.sign bound)

/-- What an operator asks of the field. -/
def compileOperator (f : FieldRef) (now : Timestamp) : Operator → Result Compiled
  | .notEqual value => (f.differs value).map .ofPredicate
  | .equal value => (f.equals value).map .ofPredicate
  | .isIn values => f.isIn values
  | .notIn values => .ok (f.notIn values)
  | .containsAll values => f.holdsAll values
  | .isPresent expected => .ok (.ofPredicate (if expected then f.isNotNull else f.isNull))
  | .containedBy values => .ok (.ofPredicate (f.compareWith "<@" (Sql.bindJson values.compact)))
  | .matchesText search => .ok (.ofPredicate (f.searchMatch search))
  | .near point maxDistance => .ok (f.near point maxDistance)
  | .inBox bottomLeft topRight =>
    .ok (.ofPredicate (f.shapeClause "point" "<@" (boxLiteral bottomLeft topRight) "box"))
  | .inSphere point distance => .ok (.ofPredicate (f.withinDistance point distance))
  | .inPolygon points =>
    .ok (.ofPredicate (f.shapeClause "point" "<@" points.ringLiteral "polygon"))
  | .intersects point => .ok (.ofPredicate (f.shapeClause "polygon" "@>" point.literal "point"))
  | .matchesPattern pattern options => .ok (.ofPredicate (f.matchesPattern pattern options))
  | .tagged value => (f.equalsTagged value).map .ofPredicate
  | .compare comparator bound => (f.compareBound now comparator bound).map .ofPredicate

end FieldRef

end ObjectStore
