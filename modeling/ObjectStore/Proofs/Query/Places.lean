import ObjectStore.Proofs.Query.Mention
import ObjectStore.Proofs.Query.Readers
import ObjectStore.Proofs.Value.Coordinates

/-!
# Places

Seven operators of queries take points, each with a reader and a condition of its own. `Gives`
relates the points of a constraint, in their written forms, to the operator that they are read as
and to the numbers that the engine should get for it, longitudes first. `Gives.exists_findsOnly`
goes through the operators one by one, and `places_longitudeFirst` says that the engine gets these
numbers with every query that compiles.

A polygon under `$ne` is no such operator: it is handed over as it is written, latitudes first
(`area_differs_latitudeFirst`).
-/

namespace ObjectStore

open Result

/-! ## Numbers of a query -/

/-- A column hands over no numbers. -/
@[simp] theorem Sql.numbers_column (f : FieldRef) : numbers f.column = [] := by
  rw [numbers, FieldRef.params_column]
  rfl

namespace Compiled

/-- The numbers that a part of a query hands to the engine: those of its clauses, and then those of
its sort clauses. -/
def numbers (c : Compiled) : List Float := (c.clauses ++ c.sorts).flatMap Sql.numbers

/-- The numbers of a condition are those of its clauses. -/
theorem numbers_ofPredicate (p : Predicate) :
    (ofPredicate p).numbers = p.clauses.flatMap Sql.numbers := by
  simp [numbers, ofPredicate, clauses]

end Compiled

variable {f : FieldRef} {fields : Object} {value : Json} {p : GeoPoint} {ring : Polygon}
  {op : Operator} {numbers : List Float} {now : Timestamp}

/-! ## Readers of points -/

namespace Operator

variable {found : List Operator} {payload : Json} {q : GeoPoint} {points : Polygon}
  {fault : OperandFault} {key : String} {read : Json → Result Operator}

/-- A tagged point is taken as itself if it lies on the globe, and not otherwise. -/
theorem pointOnGlobe_eq_ok_iff (h : IsTagged value p) :
    pointOnGlobe fault value = .ok q ↔ q = p ∧ p.OnGlobe := by
  simp only [pointOnGlobe, ofJson?_of_isTagged h, bind_eq_ok, OperandFault.demand_eq_ok,
    Option.some.injEq, pure_eq_ok]
  constructor
  · rintro ⟨_, rfl, _, hvalid, rfl⟩
    exact ⟨rfl, GeoPoint.validate_eq_ok_iff.mp hvalid⟩
  · rintro ⟨rfl, hvalid⟩
    exact ⟨q, rfl, ⟨⟩, GeoPoint.validate_eq_ok_iff.mpr hvalid, rfl⟩

/-- A ring in any of its forms is read as its points if there are three, and not otherwise. -/
theorem polygonPoints_eq_ok_iff (h : GivesRing value ring) :
    polygonPoints value = .ok points ↔ points = ring ∧ 3 ≤ ring.length := by
  cases h with
  | tagged h =>
    rw [polygonPoints, if_pos (by simp [h.tag]), OperandFault.demand_eq_ok,
      ofJson?_of_isTaggedRing h, Option.filter_eq_some_iff]
    simp only [Option.some.injEq, decide_eq_true_eq]
    constructor
    · rintro ⟨rfl, hlength⟩
      exact ⟨rfl, hlength⟩
    · rintro ⟨rfl, hlength⟩
      exact ⟨rfl, hlength⟩
  | @listed items _ h =>
    have hread : items.mapM GeoPoint.ofJsonOrPair? = some ring :=
      mapM_eq_some (h.imp fun _ _ hitem =>
        hitem.elim ofJsonOrPair?_of_isTagged ofJsonOrPair?_of_isPair)
    have htag : Json.typeTag? (.arr items) = none := rfl
    simp only [polygonPoints, htag, Json.arr?, hread, h.length_eq]
    by_cases hlength : ring.length < 3
    · simp [hlength]
    · simp [hlength, OperandFault.demand, eq_comm, Nat.le_of_not_lt hlength]

/-- The vertices of a polygon to lie in are read alike in all their forms. -/
theorem polygon_eq_ok_iff (h : GivesRing value ring) :
    polygon value = .ok op
      ↔ op = .inPolygon ring ∧ 3 ≤ ring.length ∧ ∀ p ∈ ring, p.OnGlobe := by
  simp only [polygon, bind_eq_ok, polygonPoints_eq_ok_iff h, pure_eq_ok]
  constructor
  · rintro ⟨_, ⟨rfl, hlength⟩, _, hvalid, rfl⟩
    exact ⟨rfl, hlength, fun p hp => GeoPoint.validate_eq_ok_iff.mp (eq_ok_of_forM hvalid hp)⟩
  · rintro ⟨rfl, hlength, hvalid⟩
    exact ⟨ring, ⟨rfl, hlength⟩, ⟨⟩,
      forM_eq_ok fun p hp => GeoPoint.validate_eq_ok_iff.mpr (hvalid p hp), rfl⟩

/-- A place to be near to is read with the bound of the distance to it. -/
theorem readNear_eq_ok (hvalue : fields.get? "$nearSphere" = some value) (hp : IsTagged value p)
    (h : readNear fields = .ok found) :
    ∃ bound, maxDistance fields = .ok bound ∧ found = [.near p bound] := by
  rw [readNear, hvalue] at h
  obtain ⟨q, hq, h⟩ := bind_eq_ok.mp h
  obtain ⟨bound, hbound, h⟩ := bind_eq_ok.mp h
  obtain ⟨rfl, -⟩ := (pointOnGlobe_eq_ok_iff hp).mp hq
  exact ⟨bound, hbound, (pure_eq_ok.mp h).symm⟩

/-- A box is read as its two corners. -/
theorem readBox_eq_ok {first second : Json}
    (hvalue : (fields.get? "$within").bind (·.get? "$box") = some (.arr [first, second]))
    (hp : IsTagged first p) (hq : IsTagged second q) (h : readBox fields = .ok found) :
    found = [.inBox p q] := by
  rw [readBox, hvalue] at h
  obtain ⟨op, hop, h⟩ := bind_eq_ok.mp h
  simp only [corners, ofJson?_of_isTagged hp, ofJson?_of_isTagged hq, OperandFault.demand] at hop
  obtain rfl := Except.ok.inj hop
  exact (pure_eq_ok.mp h).symm

/-- An area under a key is read by the reader of that key. -/
theorem readArea_eq_ok (hvalue : (fields.get? "$geoWithin").bind (·.get? key) = some payload)
    (h : readArea key read fields = .ok found) : ∃ op, read payload = .ok op ∧ found = [op] := by
  rw [readArea, hvalue] at h
  obtain ⟨op, hop, h⟩ := bind_eq_ok.mp h
  exact ⟨op, hop, (pure_eq_ok.mp h).symm⟩

/-- A circle is read as its centre, in either form, and its radius. -/
theorem sphere_eq_ok {centre radius : Json} {rest : List Json} {radians : Float}
    (hp : IsTagged centre p ∨ IsPair centre p) (hradius : radius.toFloat? = some radians)
    (h : sphere (.arr (centre :: radius :: rest)) = .ok op) : op = .inSphere p radians := by
  obtain ⟨q, hq, h⟩ := bind_eq_ok.mp h
  obtain ⟨_, _, h⟩ := bind_eq_ok.mp h
  obtain ⟨distance, hdistance, h⟩ := bind_eq_ok.mp h
  rw [hp.elim ofJsonOrPair?_of_isTagged ofJsonOrPair?_of_isPair] at hq
  rw [hradius, OperandFault.demand_eq_ok, Option.filter_eq_some_iff] at hdistance
  obtain rfl := Except.ok.inj hq
  obtain rfl := Option.some.inj hdistance.1
  exact (pure_eq_ok.mp h).symm

/-- A point to be contained is read as itself, and lies on the globe. -/
theorem readIntersects_eq_ok
    (hvalue : (fields.get? "$geoIntersects").bind (·.get? "$point") = some value)
    (hp : IsTagged value p) (h : readIntersects fields = .ok found) :
    found = [.intersects p] ∧ p.OnGlobe := by
  rw [readIntersects, hvalue] at h
  obtain ⟨q, hq, h⟩ := bind_eq_ok.mp h
  obtain ⟨rfl, hglobe⟩ := (pointOnGlobe_eq_ok_iff hp).mp hq
  exact ⟨(pure_eq_ok.mp h).symm, hglobe⟩

/-- A tagged point as a constraint is a point to be equal to. -/
theorem readTagged_point (hp : IsTagged (.obj fields) p) (h : readTagged fields = .ok found) :
    found = [.tagged (.geoPoint p)] := by
  rw [readTagged, hp.tag] at h
  obtain ⟨_, hread, h⟩ := bind_eq_ok.mp h
  obtain ⟨q, hq, hread⟩ := bind_eq_ok.mp hread
  obtain ⟨rfl, -⟩ := (pointOnGlobe_eq_ok_iff hp).mp hq
  obtain rfl := pure_eq_ok.mp hread
  exact (pure_eq_ok.mp h).symm

/-- A tagged polygon as a constraint is a polygon to be equal to. -/
theorem readTagged_ring (hring : IsTaggedRing (.obj fields) ring)
    (h : readTagged fields = .ok found) : found = [.tagged (.polygon ring)] := by
  rw [readTagged, hring.tag] at h
  obtain ⟨_, hread, h⟩ := bind_eq_ok.mp h
  obtain ⟨q, hq, hread⟩ := bind_eq_ok.mp hread
  rw [ofJson?_of_isTaggedRing hring] at hq
  obtain rfl := Except.ok.inj hq
  obtain rfl := pure_eq_ok.mp hread
  exact (pure_eq_ok.mp h).symm

end Operator

/-! ## Conditions with points -/

namespace FieldRef

variable {f : FieldRef} {part : Compiled}

/-- A comparison hands over the numbers of its operand. -/
theorem numbers_compareWith (f : FieldRef) (sign : String) (operand : Sql) :
    (Compiled.ofPredicate (f.compareWith sign operand)).numbers = operand.numbers := by
  simp [Compiled.numbers_ofPredicate, compareWith]

/-- A distance hands over the point that it is measured from. -/
@[simp] theorem numbers_distanceTo (f : FieldRef) (p : GeoPoint) :
    (f.distanceTo p).numbers = p.axes := by
  simp [distanceTo]

/-- A bounded distance hands over the point and then the bound, in metres. -/
theorem numbers_withinDistance (f : FieldRef) (p : GeoPoint) (radians : Float) :
    (Compiled.ofPredicate (f.withinDistance p radians)).numbers
      = p.axes ++ [radians * metresPerRadian] := by
  simp [Compiled.numbers_ofPredicate, withinDistance, Param.numbers]

/-- A condition on a shape hands over the numbers in its literal. -/
theorem numbers_shapeClause (f : FieldRef) (cast sign literal shape : String) :
    (Compiled.ofPredicate (f.shapeClause cast sign literal shape)).numbers
      = Text.numbers literal.toList := by
  simp [Compiled.numbers_ofPredicate, shapeClause]

/-- Nearness without a bound hands the point over once, to sort by. -/
theorem numbers_near (f : FieldRef) (p : GeoPoint) : (f.near p none).numbers = p.axes := by
  simp [near, Compiled.numbers, Compiled.clauses, isNotNull]

/-- Nearness with a bound hands the point over twice: in the condition, with the bound, and to sort
by. -/
theorem numbers_near_within (f : FieldRef) (p : GeoPoint) (radians : Float) :
    (f.near p (some radians)).numbers = p.axes ++ [radians * metresPerRadian] ++ p.axes := by
  simp [near, Compiled.numbers, Compiled.clauses, withinDistance, Param.numbers]

/-- A point to differ from is compared as a point, not as a document. -/
theorem differs_point (hfield : f.isArray = false) (hp : IsTagged value p) :
    f.differs value = .ok (.any [f.isNull, .not (f.compareWith "~=" p.sql)]) := by
  simp [differs, isNull_of_typeTag? hp.tag, hfield, ofJson?_of_isTagged hp]

/-- A polygon to be equal to hands over its closed ring. -/
theorem numbers_equals_ring (h : f.compileOperator now (.tagged (.polygon ring)) = .ok part) :
    part.numbers = ring.close.flatMap GeoPoint.axes := by
  obtain ⟨_, hcondition, rfl⟩ := map_eq_ok.mp h
  obtain ⟨text, htext, hcondition⟩ := bind_eq_ok.mp hcondition
  obtain rfl := pure_eq_ok.mp hcondition
  rw [numbers_compareWith, Sql.numbers_append, Sql.numbers_bindText, Sql.numbers_text,
    List.append_nil, Polygon.numbers_literal htext]

end FieldRef

/-! ## Constraints with points -/

/-- Points that a constraint gives to one of its operators, and the numbers that the engine should
get for the operator: the coordinates of the points, longitudes first, and bounds of distances. -/
inductive Gives (f : FieldRef) (fields : Object) : Operator → List Float → Prop
  | differs {value : Json} {p : GeoPoint} (hvalue : fields.get? "$ne" = some value)
      (hp : IsTagged value p) (hfield : f.isArray = false) :
      Gives f fields (.notEqual value) p.axes
  | near {value : Json} {p : GeoPoint} (hvalue : fields.get? "$nearSphere" = some value)
      (hp : IsTagged value p)
      (hbound : fields.get? "$maxDistance" = none ∨ fields.get? "$maxDistance" = some .null) :
      Gives f fields (.near p none) p.axes
  | nearWithin {value bound : Json} {p : GeoPoint} {radians : Float}
      (hvalue : fields.get? "$nearSphere" = some value) (hp : IsTagged value p)
      (hbound : fields.get? "$maxDistance" = some bound)
      (hradians : bound.toFloat? = some radians) :
      Gives f fields (.near p (some radians))
        (p.axes ++ [radians * FieldRef.metresPerRadian] ++ p.axes)
  | box {first second : Json} {p q : GeoPoint}
      (hvalue : (fields.get? "$within").bind (·.get? "$box") = some (.arr [first, second]))
      (hp : IsTagged first p) (hq : IsTagged second q) (hfinite : p.IsFinite ∧ q.IsFinite) :
      Gives f fields (.inBox p q) (p.axes ++ q.axes)
  | sphere {centre radius : Json} {rest : List Json} {p : GeoPoint} {radians : Float}
      (hvalue : (fields.get? "$geoWithin").bind (·.get? "$centerSphere")
        = some (.arr (centre :: radius :: rest)))
      (hp : IsTagged centre p ∨ IsPair centre p) (hradius : radius.toFloat? = some radians) :
      Gives f fields (.inSphere p radians) (p.axes ++ [radians * FieldRef.metresPerRadian])
  | polygon {value : Json} {ring : Polygon}
      (hvalue : (fields.get? "$geoWithin").bind (·.get? "$polygon") = some value)
      (hring : GivesRing value ring) :
      Gives f fields (.inPolygon ring) (ring.flatMap GeoPoint.axes)
  | intersects {value : Json} {p : GeoPoint}
      (hvalue : (fields.get? "$geoIntersects").bind (·.get? "$point") = some value)
      (hp : IsTagged value p) : Gives f fields (.intersects p) p.axes
  | point {p : GeoPoint} (hp : IsTagged (.obj fields) p) :
      Gives f fields (.tagged (.geoPoint p)) p.axes
  | ring {ring : Polygon} (hring : IsTaggedRing (.obj fields) ring) :
      Gives f fields (.tagged (.polygon ring)) (ring.close.flatMap GeoPoint.axes)

/-- What a reader finds, if it finds the constraint well-formed, is one operator, and what this asks
of the field has some numbers. -/
def FindsOnly (f : FieldRef) (fields : Object) (read : Compiler.Reader) (op : Operator)
    (numbers : List Float) : Prop :=
  ∀ found, read fields = .ok found → found = [op] ∧
    ∀ now part, f.compileOperator now op = .ok part → part.numbers = numbers

/-- The reader of nearness finds the point with its bound, and what this asks has the numbers of
both. -/
theorem findsOnly_near (hvalue : fields.get? "$nearSphere" = some value) (hp : IsTagged value p)
    {bound : Option Float} (hbound : Operator.maxDistance fields = .ok bound)
    (hnumbers : (f.near p bound).numbers = numbers) :
    FindsOnly f fields Operator.readNear (.near p bound) numbers := by
  intro found h
  obtain ⟨_, hread, rfl⟩ := Operator.readNear_eq_ok hvalue hp h
  obtain rfl := Except.ok.inj (hbound.symm.trans hread)
  refine ⟨rfl, ?_⟩
  intro _ _ hpart
  obtain rfl := Except.ok.inj hpart
  exact hnumbers

/-- For each way to give points there is a reader that finds just that operator. -/
theorem Gives.exists_findsOnly (h : Gives f fields op numbers) :
    ∃ read ∈ Operator.readers, FindsOnly f fields read op numbers := by
  cases h with
  | differs hvalue hp hfield =>
    refine ⟨Operator.readAny "$ne" .notEqual, by simp [Operator.readers], ?_⟩
    intro found h
    rw [Operator.readAny, hvalue] at h
    obtain rfl := Except.ok.inj h
    refine ⟨rfl, ?_⟩
    intro _ _ hpart
    rw [FieldRef.compileOperator, FieldRef.differs_point hfield hp] at hpart
    obtain rfl := Except.ok.inj hpart
    simp [Compiled.numbers_ofPredicate, FieldRef.isNull, FieldRef.compareWith]
  | near hvalue hp hbound =>
    -- `$maxDistance` is read with the place that it bounds
    refine ⟨Operator.readNear, by simp [Operator.readers],
      findsOnly_near hvalue hp ?_ (FieldRef.numbers_near _ _)⟩
    rcases hbound with hbound | hbound <;> simp [Operator.maxDistance, hbound]
  | @nearWithin _ bound _ radians hvalue hp hbound hradians =>
    refine ⟨Operator.readNear, by simp [Operator.readers],
      findsOnly_near hvalue hp ?_ (FieldRef.numbers_near_within _ _ _)⟩
    cases bound with
    | null => cases hradians
    | _ => simp [Operator.maxDistance, hbound, hradians, OperandFault.demand]
  | @box _ _ p q hvalue hp hq hfinite =>
    refine ⟨Operator.readBox, by simp [Operator.readers], ?_⟩
    intro found h
    refine ⟨Operator.readBox_eq_ok hvalue hp hq h, ?_⟩
    intro _ _ hpart
    obtain rfl := Except.ok.inj hpart
    have hring : ∀ corner ∈ [p, q], corner.IsFinite := by simpa using hfinite
    rw [FieldRef.numbers_shapeClause, FieldRef.boxLiteral, Polygon.numbers_ringLiteral hring]
    rfl
  | sphere hvalue hp hradius =>
    refine ⟨Operator.readArea "$centerSphere" Operator.sphere, by simp [Operator.readers], ?_⟩
    intro found h
    obtain ⟨_, hop, rfl⟩ := Operator.readArea_eq_ok hvalue h
    obtain rfl := Operator.sphere_eq_ok hp hradius hop
    refine ⟨rfl, ?_⟩
    intro _ _ hpart
    obtain rfl := Except.ok.inj hpart
    exact FieldRef.numbers_withinDistance _ _ _
  | polygon hvalue hring =>
    refine ⟨Operator.readArea "$polygon" Operator.polygon, by simp [Operator.readers], ?_⟩
    intro found h
    obtain ⟨_, hop, rfl⟩ := Operator.readArea_eq_ok hvalue h
    obtain ⟨rfl, -, hglobe⟩ := (Operator.polygon_eq_ok_iff hring).mp hop
    refine ⟨rfl, ?_⟩
    intro _ _ hpart
    obtain rfl := Except.ok.inj hpart
    exact (FieldRef.numbers_shapeClause f _ _ _ _).trans
      (Polygon.numbers_ringLiteral fun p hp => (hglobe p hp).isFinite)
  | intersects hvalue hp =>
    refine ⟨Operator.readIntersects, by simp [Operator.readers], ?_⟩
    intro found h
    obtain ⟨rfl, hglobe⟩ := Operator.readIntersects_eq_ok hvalue hp h
    refine ⟨rfl, ?_⟩
    intro _ _ hpart
    obtain rfl := Except.ok.inj hpart
    rw [FieldRef.numbers_shapeClause, GeoPoint.numbers_literal hglobe.isFinite]
  | point hp =>
    refine ⟨Operator.readTagged, by simp [Operator.readers], ?_⟩
    intro found h
    refine ⟨Operator.readTagged_point hp h, ?_⟩
    intro _ _ hpart
    obtain rfl := Except.ok.inj hpart
    rw [FieldRef.numbers_compareWith, Sql.numbers_point]
  | ring hring =>
    refine ⟨Operator.readTagged, by simp [Operator.readers], ?_⟩
    intro found h
    refine ⟨Operator.readTagged_ring hring h, ?_⟩
    intro _ _ hpart
    exact FieldRef.numbers_equals_ring hpart

/-! ## Queries with points -/

namespace Compiled

variable {part whole other : Compiled} {parts : List Compiled}

/-- All that a part of a query asks for, the query asks for. -/
def PartOf (part whole : Compiled) : Prop :=
  part.clauses ⊆ whole.clauses ∧ part.sorts ⊆ whole.sorts

/-- A part of a part is a part. -/
theorem PartOf.trans (h : part.PartOf whole) (hwhole : whole.PartOf other) :
    part.PartOf other := by
  constructor
  · exact List.Subset.trans h.1 hwhole.1
  · exact List.Subset.trans h.2 hwhole.2

/-- What is gathered has each of its parts. -/
theorem Gathers.partOf (h : whole.Gathers parts) (hpart : part ∈ parts) : part.PartOf whole := by
  rw [PartOf, h.1, h.2]
  constructor
  · intro clause hclause
    exact List.mem_flatMap.mpr ⟨part, hpart, hclause⟩
  · intro sort hsort
    exact List.mem_flatMap.mpr ⟨part, hpart, hsort⟩

end Compiled

namespace Compiler

variable {c : Compiler} {query : Object} {out : Compiled} {name : String} {read : Reader}

/-- What a leaf asks for with an operator is part of what the query asks for. -/
theorem exists_partOf (h : c.compileEntries query = .ok out)
    (hleaf : (name, .obj fields) ∈ leaves query)
    (hasks : c.asksNothing name (.obj fields) = false) (hread : read ∈ Operator.readers) :
    ∃ found, read fields = .ok found ∧ ∀ op ∈ found, ∃ part,
      (c.fieldRef name).compileOperator c.now op = .ok part ∧ part.PartOf out := by
  -- from the query to the leaf, from the leaf to the reader, from the reader to the operator
  obtain ⟨leafParts, hleafParts, hout⟩ := compileEntries_leaves h
  obtain ⟨leaf, hmem, hleaf⟩ := exists_right_of_mem hleafParts hleaf
  obtain ⟨-, answers, hanswers, rfl⟩ := (compileField_object_eq_ok hasks).mp hleaf
  obtain ⟨answer, hanswer, hasked⟩ := exists_right_of_mem (mapM_eq_ok.mp hanswers) hread
  obtain ⟨found, parts, hfound, hparts, rfl⟩ := asked_eq_ok.mp hasked
  refine ⟨found, hfound, ?_⟩
  intro op hop
  obtain ⟨part, hpart, hcompile⟩ := exists_right_of_mem (mapM_eq_ok.mp hparts) hop
  refine ⟨part, hcompile, ?_⟩
  have hreader := (Compiled.gathers_concat parts).partOf hpart
  have hleaf := (Compiled.gathers_concat answers).partOf hanswer
  exact hreader.trans (hleaf.trans (hout.partOf hmem))

end Compiler

/-- The engine gets all points with the longitude first, in whichever form they are written. The
numbers that a query hands over for a leaf with points are these, with the bounds of distances; the
numbers of a point or a polygon to store are these too. The vertices of a polygon to lie in are read
alike in all its forms. -/
theorem places_longitudeFirst (c : Compiler) (query : Object) (out : Compiled)
    (h : c.compileEntries query = .ok out) :
    (∀ name fields op numbers, (name, .obj fields) ∈ Compiler.leaves query →
      c.asksNothing name (.obj fields) = false → Gives (c.fieldRef name) fields op numbers →
      ∃ part, (c.fieldRef name).compileOperator c.now op = .ok part ∧ part.numbers = numbers
        ∧ part.PartOf out)
    ∧ (∀ value p sql, IsTagged value p → FieldType.encode .geoPoint value = .ok (some sql) →
      sql.numbers = p.axes)
    ∧ (∀ value ring sql, IsTaggedRing value ring →
      FieldType.encode .polygon value = .ok (some sql) →
      sql.numbers = ring.close.flatMap GeoPoint.axes)
    ∧ ∀ value value' ring op, GivesRing value ring → GivesRing value' ring →
      (Operator.polygon value = .ok op ↔ Operator.polygon value' = .ok op) := by
  refine ⟨?_, ?_, ?_, ?_⟩
  · intro name fields op numbers hleaf hasks hgives
    obtain ⟨read, hread, hfinds⟩ := hgives.exists_findsOnly
    obtain ⟨found, hfound, hparts⟩ := Compiler.exists_partOf h hleaf hasks hread
    -- the reader has found this operator alone, so its part is the one in question
    obtain ⟨rfl, hnumbers⟩ := hfinds found hfound
    obtain ⟨part, hcompile, hpart⟩ := hparts op (List.mem_singleton.mpr rfl)
    exact ⟨part, hcompile, hnumbers c.now part hcompile, hpart⟩
  · intro value p sql hp hsql
    exact FieldType.numbers_encode_point hp hsql
  · intro value ring sql hring hsql
    exact FieldType.numbers_encode_ring hring hsql
  · intro value value' ring op hring hring'
    rw [Operator.polygon_eq_ok_iff hring, Operator.polygon_eq_ok_iff hring']

/-- Parks, with the place of a gate and the area. -/
def parks : Compiler :=
  .ofSchema (((Schema.ofClass "Park").withField "gate" .geoPoint).withField "area" .polygon) false
    ⟨0, 0⟩

/-- A gate that is near to a place. -/
def nearby : Object :=
  [("$maxDistance", .int 1), ("$nearSphere", .obj
    [("__type", .str "GeoPoint"), ("latitude", .int 10), ("longitude", .int 20)])]

/-- The place is handed over twice: the gates are close to it, and they come in the order of their
distances. -/
theorem nearby_longitudeFirst :
    ∃ out, parks.compileEntries [("gate", .obj nearby)] = .ok out ∧
      ∃ part, (parks.fieldRef "gate").compileOperator parks.now (.near ⟨10, 20⟩ (some 1)) = .ok part
        ∧ part.numbers = [20, 10, 1 * FieldRef.metresPerRadian, 20, 10] ∧ part.PartOf out := by
  have hok : (parks.compileEntries [("gate", .obj nearby)]).isOk = true := by decide +kernel
  cases hout : parks.compileEntries [("gate", .obj nearby)] with
  | error e => rw [hout] at hok; exact nomatch hok
  | ok out =>
    refine ⟨out, rfl, (places_longitudeFirst parks _ out hout).1 "gate" nearby _ _ ?_ (by decide)
      (.nearWithin rfl ⟨rfl, ?_, ?_⟩ rfl ?_)⟩
    · simp [Compiler.leaves, show Combinator.ofKey? "gate" = none from rfl]
    all_goals decide +kernel

/-- The vertices of a polygon, latitudes first. -/
def corners : List Json :=
  [.arr [.int 1, .int 2], .arr [.int 3, .int 4], .arr [.int 5, .int 6]]

/-- An area that differs from a polygon is compared with the polygon as it is written, latitudes
first. -/
theorem area_differs_latitudeFirst :
    IsTaggedRing (.tagged "Polygon" [("coordinates", .arr corners)]) [⟨1, 2⟩, ⟨3, 4⟩, ⟨5, 6⟩]
    ∧ ∃ out, parks.compileEntries
        [("area", .obj [("$ne", .tagged "Polygon" [("coordinates", .arr corners)])])] = .ok out
      ∧ out.numbers = [1, 2, 3, 4, 5, 6] := by
  refine ⟨⟨rfl, corners, rfl, .cons (.mk ?_ ?_) (.cons (.mk ?_ ?_) (.cons (.mk ?_ ?_) .nil))⟩,
    _, rfl, ?_⟩
  all_goals decide +kernel

end ObjectStore
