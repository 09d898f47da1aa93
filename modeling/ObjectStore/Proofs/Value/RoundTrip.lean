import ObjectStore.Proofs.Access.Redaction
import ObjectStore.Proofs.Engine.Column
import ObjectStore.Proofs.Value.Wire

/-!
# Values survive being stored

A wire value is sent to its column as an expression, the engine stores what the expression stands
for, and a row shows it again in a form of the engine's own. `RoundTrips` says that nothing is lost
on the way: the value can be stored, and whatever may be shown of the column is read as a value that
says the same. It is proved type by type, from what the column of the type does and from what the
reader of the type makes of that, and put together in `roundTrips_of_isWire`.

A row is read cell by cell (`decodeRow_eq_ok`): absent cells leave nothing, and relations, which
have no column, get their stubs.
-/

namespace ObjectStore

namespace FieldType

open Decimal Engine

variable {type : FieldType} {v cell : Json} {column : ColumnType} {sql : Sql}

/-- The form in which a value is read back: the two timestamps of an object are bare texts. -/
def readForm (name : String) (type : FieldType) (v : Json) : Json :=
  if type = .date && isTimestampField name then (v.date?.map .str).getD v else v

/-- A value can be stored in the column of its type, and it is read back from whatever the engine
shows of the column. -/
def RoundTrips (type : FieldType) (v : Json) : Prop :=
  ∃ column sql, type.column? = some column ∧ type.encode v = .ok (some sql)
    ∧ (∃ cell, Holds column sql cell)
    ∧ ∀ name cell, Holds column sql cell →
      ∃ w, type.decode name cell = .ok (some w) ∧ w.content = (type.readForm name v).content

/-- Only dates are read back in another form. -/
theorem readForm_of_ne (name : String) (h : type ≠ .date) : type.readForm name v = v := by
  rw [readForm, decide_eq_false h, Bool.false_and, if_neg Bool.false_ne_true]

/-- What is stored, and what is read back of it. -/
theorem RoundTrips.of_column (hnull : v.isNull = false) (hcolumn : type.column? = some column)
    (hencode : type.encodeColumn v column = .ok sql) (hcell : ∃ cell, Holds column sql cell)
    (hdecode : ∀ name cell, Holds column sql cell →
      ∃ w, type.decode name cell = .ok (some w) ∧ w.content = (type.readForm name v).content) :
    type.RoundTrips v := by
  refine ⟨column, sql, hcolumn, ?_, hcell, hdecode⟩
  rw [encode, hnull, hcolumn, if_neg Bool.false_ne_true]
  dsimp only
  rw [hencode]
  rfl

/-- A type whose texts stand for themselves passes on what its column holds. -/
theorem decode_eq_self (name : String) (htext : ∀ text, type.decodeText name text = .ok (.str text))
    (hrelation : type.isRelation = false) (hne : cell ≠ .null) :
    type.decode name cell = .ok (some cell) := by
  cases cell with
  | null => exact absurd rfl hne
  | str text => rw [decode, hrelation, if_neg Bool.false_ne_true, htext]; rfl
  | bool | int | double | arr | obj => simp [decode, hrelation]

/-! ## Type by type -/

/-- A value that is stored as a text is read back if the reader of its type makes it of this text.
-/
theorem roundTrips_text {s : String} (hcolumn : type.column? = some .text)
    (hnull : v.isNull = false) (hparam : v.param = .text (some s))
    (htext : ∀ name, type.decodeText name s = .ok v) : type.RoundTrips v := by
  have htype : type.isRelation = false ∧ type ≠ .date := by
    cases type with
    | string | file | pointer => exact ⟨rfl, by rintro ⟨⟩⟩
    | arrayOf contents => cases contents <;> cases hcolumn
    | _ => cases hcolumn
  have hencode : type.encodeColumn v .text = .ok (Sql.bind (.text (some s))) :=
    hparam ▸ rfl
  refine .of_column hnull hcolumn hencode ⟨_, holds_text.mpr rfl⟩ ?_
  intro name cell h
  rw [holds_text.mp h]
  refine ⟨v, ?_, by rw [readForm_of_ne name htype.2]⟩
  rw [decode, htype.1, if_neg Bool.false_ne_true, htext]
  rfl

/-- A flag is stored and read back. -/
theorem roundTrips_boolean (b : Bool) : RoundTrips .boolean (.bool b) := by
  refine .of_column rfl rfl rfl ⟨_, holds_flag.mpr rfl⟩ ?_
  intro name cell h
  rw [holds_flag.mp h]
  exact ⟨.bool b, rfl, by rw [readForm_of_ne name (by decide)]⟩

/-- A number is stored as a double, and read back as a number that says the same. -/
theorem roundTrips_number {x : Float} (hx : x.isFinite = true)
    (h : v.content = .number (value x)) : RoundTrips .number v := by
  obtain ⟨y, hy, hfinite, hvalue⟩ := Json.exists_toFloat? h hx
  have hparam : v.isNull = false ∧ v.param = .double y := by
    cases v with
    | int | double =>
      cases hy
      exact ⟨rfl, rfl⟩
    | null | bool | str | arr | obj => cases hy
  have hencode : encodeColumn .number v .double = .ok (Sql.bind (.double y)) := by
    rw [← hparam.2]
    rfl
  refine .of_column hparam.1 rfl hencode ⟨v, holds_number.mpr (by rw [h, hvalue])⟩ ?_
  intro name cell hcell
  have hcontent := holds_number.mp hcell
  have hne : cell ≠ .null := by
    rintro rfl
    cases hcontent
  refine ⟨cell, decode_eq_self name (fun _ => rfl) rfl hne, ?_⟩
  rw [readForm_of_ne name (by decide), hcontent, h, hvalue]

/-- A timestamp in the wire form is read back from any text of its instant. -/
theorem roundTrips_date {w : Timestamp.Written} (h : w.IsWire) :
    RoundTrips .date (.ofDate (String.ofList w.text)) := by
  have hdate : (Json.ofDate (String.ofList w.text)).date? = some (String.ofList w.text) :=
    Json.taggedText?_tagged (by simp [typeKey]) List.mem_cons_self
  have hencode : encodeColumn .date (.ofDate (String.ofList w.text)) .timestamp
      = .ok (Sql.bindText (String.ofList w.text) ++ Sql.text "::timestamptz") := by
    rw [encodeColumn, encodeDate, hdate]
    rfl
  refine .of_column rfl rfl hencode
    ⟨_, holds_moment.mpr ⟨w, w, h.toWellFormed, rfl, h.toWellFormed, rfl, rfl⟩⟩ ?_
  intro name cell hcell
  obtain ⟨u, u', hu, htext, hu', hinstant, rfl⟩ := holds_moment.mp hcell
  -- the text that is shown names the instant that was stored, whatever offset it has
  have hfloor := Timestamp.floor_instant_of_text_eq hu h.toWellFormed
    (String.ofList_injective htext.symm)
  rw [← hinstant] at hfloor
  have hcanonical := Timestamp.canonical_of_floor_eq h hu' hfloor
  have hdecode : decode name .date (.str (String.ofList u'.text))
      = .ok (some (if isTimestampField name then .str (String.ofList w.text)
        else .ofDate (String.ofList w.text))) := by
    change (decodeText name (String.ofList u'.text) .date).map some = _
    rw [decodeText, hcanonical]
    rfl
  refine ⟨_, hdecode, ?_⟩
  rw [readForm, hdate, decide_eq_true rfl, Bool.true_and]
  rfl

/-- A column of documents shows a document that says what was written. -/
theorem holds_compact (h : v.IsDocument) :
    Holds .json (Sql.bindJson v.compact) cell ↔ cell.content = v.content := by
  have hread := Json.readAll?_compact h.representable
  rw [holds_document]
  constructor
  · rintro ⟨u, hu, hcontent⟩
    rw [hread] at hu
    cases hu
    rw [hcontent, Json.canonical_eq_self v h.canonical]
  · intro hcontent
    exact ⟨v, hread, by rw [hcontent, Json.canonical_eq_self v h.canonical]⟩

/-- A document is read back from the document that its column holds. -/
theorem roundTrips_document (h : v.IsDocument) (hcolumn : type.column? = some .json)
    (hvalid : type = .bytes → Bytes.validate v = .ok ()) : type.RoundTrips v := by
  have hnull : v.isNull = false := by
    cases v with
    | null => exact absurd rfl h.ne_null
    | bool | int | double | str | arr | obj => rfl
  have hencode : type.encodeColumn v .json = .ok (Sql.bindJson v.compact) := by
    rw [encodeColumn, encodeDocument]
    split
    next hbytes =>
      rw [hvalid hbytes]
      rfl
    next => rfl
  refine .of_column hnull hcolumn hencode ⟨v, (holds_compact h).mpr rfl⟩ ?_
  intro name cell hcell
  have hcontent := (holds_compact h).mp hcell
  have hne : cell ≠ .null := by
    rintro rfl
    exact Json.content_ne_null h.representable h.ne_null hcontent.symm
  have htype : (∀ text, type.decodeText name text = .ok (.str text)) ∧ type.isRelation = false
      ∧ type ≠ .date := by
    cases type with
    | object | bytes | array | arrayOf => exact ⟨fun _ => rfl, rfl, by rintro ⟨⟩⟩
    | _ => cases hcolumn
  refine ⟨cell, decode_eq_self name htype.1 htype.2.1 hne, ?_⟩
  rw [readForm_of_ne name htype.2.2, hcontent]

/-- Bytes are stored as a document that passes their check. -/
theorem roundTrips_bytes (payload : List UInt8) : RoundTrips .bytes
    (.tagged "Bytes" [("base64", .str (String.ofList (Bytes.encode payload)))]) := by
  refine roundTrips_document (Json.isDocument_ofEntries ?_ ?_) rfl fun _ => ?_
  · exact List.forall_mem_cons.mpr ⟨.str _, List.forall_mem_singleton.mpr (.str _)⟩
  · exact List.forall_mem_cons.mpr ⟨.str _, List.forall_mem_singleton.mpr (.str _)⟩
  · have hget : (Json.tagged "Bytes"
        [("base64", .str (String.ofList (Bytes.encode payload)))]).get? "base64"
          = some (.str (String.ofList (Bytes.encode payload))) :=
      Json.get?_tagged (by simp) List.mem_cons_self
    rw [Bytes.validate, hget]
    simp only [Option.bind_some, Json.str?, String.toList_ofList, Bytes.isEncoded_encode, if_true]

/-- A file is stored by its name. -/
theorem roundTrips_file (file : String) : RoundTrips .file (.ofFileName file) := by
  refine roundTrips_text rfl rfl (Json.param_tagged ?_) fun _ => rfl
  have hclass : (Json.ofFileName file).taggedText? "Pointer" "className" = none :=
    Json.taggedText?_of_ne (by simp [typeKey]) (by decide)
  have hdate : (Json.ofFileName file).date? = none :=
    Json.taggedText?_of_ne (by simp [typeKey]) (by decide)
  have hname : (Json.ofFileName file).fileName? = some file :=
    Json.taggedText?_tagged (by simp [typeKey]) List.mem_cons_self
  change (Json.ofFileName file).scalarText? = some file
  rw [Json.scalarText?, Pointer.ofJson?, hclass]
  dsimp only [Option.bind_eq_bind, Option.bind_none]
  rw [hdate, hname]

/-- A pointer is stored by the id that it points to; its class is that of its type. -/
theorem roundTrips_pointer (target id : String) :
    RoundTrips (.pointer target) (Pointer.mk target id).toJson := by
  refine roundTrips_text rfl rfl (Json.param_tagged ?_) fun _ => rfl
  have hclass : (Pointer.mk target id).toJson.taggedText? "Pointer" "className" = some target :=
    Json.taggedText?_tagged (by simp [typeKey]) List.mem_cons_self
  have hid : (Pointer.mk target id).toJson.taggedText? "Pointer" "objectId" = some id :=
    Json.taggedText?_tagged (by simp [typeKey]) (by simp)
  change (Pointer.mk target id).toJson.scalarText? = some id
  rw [Json.scalarText?, Pointer.ofJson?, hclass, hid]
  rfl

/-- A list of texts is stored as an array literal. -/
theorem roundTrips_texts (items : List String) :
    RoundTrips (.arrayOf .string) (.ofStrings items) := by
  have hencode : encodeColumn (.arrayOf .string) (.ofStrings items) .textArray
      = .ok (Sql.bindText (Sql.arrayLiteral items) ++ Sql.text "::text[]") := by
    change Except.ok (textArray (items.map Json.str)) = _
    rw [textArray, Json.map_textForm_str]
  have hread := Sql.readArray_arrayLiteral items
  refine .of_column rfl rfl hencode ⟨_, holds_texts.mpr ⟨items, hread, rfl⟩⟩ ?_
  intro name cell h
  obtain ⟨items', hread', rfl⟩ := holds_texts.mp h
  rw [hread] at hread'
  cases hread'
  exact ⟨_, rfl, by rw [readForm_of_ne name (by decide)]⟩

/-- A point on the globe is stored, and read back from any decimals for its coordinates. -/
theorem roundTrips_geoPoint {latitude longitude : Json} {spot : ℚ × ℚ}
    (h : Json.Coordinates latitude longitude spot) : RoundTrips .geoPoint
      (.tagged "GeoPoint" [("latitude", latitude), ("longitude", longitude)]) := by
  obtain ⟨p, hp, -, hlatitude, hlongitude, hsame, hsame'⟩ := h.exists_point
  have hpoint : GeoPoint.ofJson? (.tagged "GeoPoint"
      [("latitude", latitude), ("longitude", longitude)]) = some p := by
    rw [GeoPoint.ofJson?, Json.ofTag?_tagged (by simp [typeKey])]
    have hget (key : String) (v : Json)
        (h : (key, v) ∈ [("latitude", latitude), ("longitude", longitude)]) :
        (Json.tagged "GeoPoint" [("latitude", latitude), ("longitude", longitude)]).get? key
          = some v :=
      Json.get?_tagged (by simp) h
    simp only [Option.bind_eq_bind, Option.bind_some, hget "latitude" latitude (by simp),
      hget "longitude" longitude (by simp), hlatitude, hlongitude]
    rfl
  have hencode : encodeColumn .geoPoint (.tagged "GeoPoint"
      [("latitude", latitude), ("longitude", longitude)]) .point = .ok p.sql := by
    rw [encodeColumn, encodePoint, hpoint]
    dsimp only
    rw [GeoPoint.validate_eq_ok_iff.mpr hp]
    rfl
  obtain ⟨s, hs⟩ := GeoPoint.exists_spellsPair "" hp
  refine .of_column rfl rfl hencode ⟨_, holds_point.mpr ⟨s, hs, rfl⟩⟩ ?_
  intro name cell hcell
  obtain ⟨t, ht, rfl⟩ := holds_point.mp hcell
  have hstored : GeoPoint.ofStored? t = some p := GeoPoint.ofStored?_of_spells ht
  have hdecode : decode name .geoPoint (.str t) = .ok (some p.toJson) := by
    change (decodeText name t .geoPoint).map some = _
    rw [decodeText, hstored]
    rfl
  refine ⟨_, hdecode, ?_⟩
  rw [readForm_of_ne name (by decide), GeoPoint.toJson, Json.content_tagged, Json.content_tagged]
  simp only [List.map_cons, List.map_nil, hsame, hsame']

/-- Pairs of coordinates are those of a ring. -/
theorem exists_ring {vertices : List (Json × Json)} {spots : List (ℚ × ℚ)}
    (h : List.Forall₂ (fun v spot => Json.Coordinates v.1 v.2 spot) vertices spots) :
    ∃ ring : Polygon, (∀ p ∈ ring, p.OnGlobe) ∧ ring.map GeoPoint.spot = spots
      ∧ Polygon.vertices? (vertices.map fun v => .arr [v.1, v.2]) = some ring
      ∧ (Polygon.coordinates ring).content
        = (Json.arr (vertices.map fun v => .arr [v.1, v.2])).content := by
  induction h with
  | nil => exact ⟨[], by rintro _ ⟨⟩, rfl, rfl, rfl⟩
  | @cons v spot vertices spots hv _ ih =>
    obtain ⟨p, hp, hspot, hlatitude, hlongitude, hsame, hsame'⟩ := hv.exists_point
    obtain ⟨ring, hring, hspots, hread, hcontent⟩ := ih
    have hvertex : Polygon.vertex? (.arr [v.1, v.2]) = some p := by
      rw [Polygon.vertex?, hlatitude, hlongitude]
      rfl
    refine ⟨p :: ring, List.forall_mem_cons.mpr ⟨hp, hring⟩, ?_, ?_, ?_⟩
    · rw [List.map_cons, hspot, hspots]
    · rw [Polygon.vertices?] at hread
      rw [Polygon.vertices?, List.map_cons, List.mapM_cons, hvertex, hread]
      rfl
    · have hitems := Json.Content.arr.inj hcontent
      rw [Polygon.coordinates, Json.content, Json.content, List.map_cons, List.map_cons,
        Json.contentItems, Json.contentItems, hitems]
      simp only [Json.content, Json.contentItems, hsame, hsame']

/-- An open ring on the globe with three vertices is stored closed, and read back open. -/
theorem roundTrips_polygon {vertices : List (Json × Json)} {spots : List (ℚ × ℚ)}
    (h : List.Forall₂ (fun v spot => Json.Coordinates v.1 v.2 spot) vertices spots)
    (hthree : Polygon.HasThree spots) (hopen : spots.head? ≠ spots.getLast?) :
    RoundTrips .polygon (.tagged "Polygon"
      [("coordinates", .arr (vertices.map fun v => .arr [v.1, v.2]))]) := by
  obtain ⟨ring, hring, rfl, hread, hcontent⟩ := exists_ring h
  have hlength : 3 ≤ ring.length := by
    rw [← List.length_map]
    exact Polygon.three_le_length hthree
  have hpolygon : Polygon.ofJson? (.tagged "Polygon"
      [("coordinates", .arr (vertices.map fun v => .arr [v.1, v.2]))]) = some ring := by
    have hget : (Json.tagged "Polygon"
        [("coordinates", .arr (vertices.map fun v => .arr [v.1, v.2]))]).get? "coordinates"
          = some (.arr (vertices.map fun v => .arr [v.1, v.2])) :=
      Json.get?_tagged (by simp) List.mem_cons_self
    rw [Polygon.ofJson?, Json.ofTag?_tagged (by simp [typeKey])]
    simp only [Option.bind_eq_bind, Option.bind_some, hget, Json.arr?, hread]
  have hencode : encodeColumn .polygon (.tagged "Polygon"
      [("coordinates", .arr (vertices.map fun v => .arr [v.1, v.2]))]) .polygon
        = .ok (Sql.bindText ring.close.ringLiteral ++ Sql.text "::polygon") := by
    rw [encodeColumn, encodePolygon, hpolygon]
    dsimp only
    rw [Polygon.literal_eq hring hthree]
    rfl
  have hclose := Polygon.onGlobe_close hring
  have hliteral := Polygon.spellsRing_literal hclose
  obtain ⟨s, hs⟩ := Polygon.exists_spellsRing "" hclose
  refine .of_column rfl rfl hencode ⟨_, holds_polygon.mpr ⟨_, s, hliteral, hs, rfl⟩⟩ ?_
  intro name cell hcell
  obtain ⟨places, t, hstored, ht, rfl⟩ := holds_polygon.mp hcell
  -- the literal is a text of the kept ring, and so is what is shown of it
  have hsame : Polygon.ofStored? t = some ring :=
    (Polygon.ofStored?_congr rfl rfl ht hstored).trans
      (Polygon.ofStored?_close rfl hring hopen hlength hliteral)
  have hdecode : decode name .polygon (.str t) = .ok (some ring.toJson) := by
    change (decodeText name t .polygon).map some = _
    rw [decodeText, hsame]
    rfl
  refine ⟨_, hdecode, ?_⟩
  rw [readForm_of_ne name (by decide), Polygon.toJson, Json.content_tagged, Json.content_tagged]
  simp only [List.map_cons, List.map_nil, hcontent]

/-- A wire value of any type is stored and read back. -/
theorem roundTrips_of_isWire (h : type.IsWire v) : type.RoundTrips v := by
  cases h with
  | string s => exact roundTrips_text rfl rfl rfl fun _ => rfl
  | number hx h => exact roundTrips_number hx h
  | boolean b => exact roundTrips_boolean b
  | date h => exact roundTrips_date h
  | object h => exact roundTrips_document h rfl (by rintro ⟨⟩)
  | bytes payload => exact roundTrips_bytes payload
  | file name => exact roundTrips_file name
  | geoPoint h => exact roundTrips_geoPoint h
  | polygon h hthree hopen => exact roundTrips_polygon h hthree hopen
  | array h => exact roundTrips_document h rfl (by rintro ⟨⟩)
  | texts items => exact roundTrips_texts items
  | @arrayOf contents _ hcontents h =>
    refine roundTrips_document h ?_ (by rintro ⟨⟩)
    cases contents <;> first | rfl | exact absurd rfl hcontents
  | pointer target id => exact roundTrips_pointer target id

end FieldType

/-! ## Rows -/

namespace Schema

open Engine

variable {s : Schema} {row : Object}

/-- If every cell of a row can be read, the row can, and what was read of a cell is found under its
name. -/
theorem decodeCells_eq_ok (hrow : row.Sorted)
    (h : ∀ entry ∈ row, ∃ value, s.decodeCell entry.1 entry.2 = .ok value) :
    ∃ cells : Object, s.decodeCells row = .ok cells
      ∧ ∀ entry ∈ row, s.decodeCell entry.1 entry.2 = .ok (cells.get? entry.1) := by
  induction row with
  | nil => exact ⟨[], rfl, by rintro _ ⟨⟩⟩
  | cons head rest ih =>
    obtain ⟨name, cell⟩ := head
    obtain ⟨hlt, hrest⟩ := Dict.sorted_cons.mp hrow
    obtain ⟨⟨value, hvalue⟩, hcells⟩ := List.forall_mem_cons.mp h
    obtain ⟨cells, hread, hfound⟩ := ih hrest hcells
    cases value with
    | none =>
      -- what is read of the other cells has their names only
      have habsent : cells.get? name = none := by
        refine Dict.get?_eq_none_of_lt ?_
        intro entry hentry
        obtain ⟨other, hother, hkey⟩ := List.mem_map.mp
          ((sublist_decodeCells hread).subset (List.mem_map_of_mem hentry))
        rw [← hkey]
        exact hlt other hother
      refine ⟨cells, ?_, List.forall_mem_cons.mpr ⟨by rw [habsent]; exact hvalue, hfound⟩⟩
      rw [decodeCells, hvalue, hread]
      rfl
    | some v =>
      refine ⟨(name, v) :: cells, ?_, List.forall_mem_cons.mpr ⟨?_, ?_⟩⟩
      · rw [decodeCells, hvalue, hread]
        rfl
      · rw [Dict.get?, if_pos rfl]
        exact hvalue
      · intro entry hentry
        have hne : name ≠ entry.1 := fun heq => String.lt_irrefl name (heq ▸ hlt entry hentry)
        rw [Dict.get?, if_neg hne]
        exact hfound entry hentry

/-- The stubs of a class are those of its relation fields. -/
theorem mem_relationStubs {name : String} {stub : Json} : (name, stub) ∈ s.relationStubs ↔
    ∃ target, (name, .relation target) ∈ s.fields ∧ stub = relationStub target := by
  rw [relationStubs, List.mem_filterMap]
  constructor
  · rintro ⟨⟨field, type⟩, hfield, hstub⟩
    dsimp only at hstub
    cases type with
    | relation target =>
      cases hstub
      exact ⟨target, hfield, rfl⟩
    | _ => cases hstub
  · rintro ⟨target, hfield, rfl⟩
    exact ⟨_, hfield, rfl⟩

/-- No two stubs have one name. -/
theorem nodup_relationStubs (hs : s.fields.Sorted) : (s.relationStubs.map Prod.fst).Nodup := by
  have hsublist : (s.relationStubs.map Prod.fst).Sublist (s.fields.map Prod.fst) := by
    rw [relationStubs]
    generalize s.fields = fields
    induction fields with
    | nil => exact List.Sublist.refl _
    | cons field rest ih =>
      obtain ⟨name, type⟩ := field
      cases type with
      | relation target => exact ih.cons_cons name
      | _ => exact ih.cons name
  refine (List.Pairwise.sublist hsublist hs).imp fun hlt => ?_
  rintro rfl
  exact String.lt_irrefl _ hlt

/-- A row is read cell by cell, and every relation gets its stub. -/
theorem decodeRow_eq_ok (hs : s.fields.Sorted) (hrow : row.Sorted)
    (h : ∀ entry ∈ row, ∃ value, s.decodeCell entry.1 entry.2 = .ok value) :
    ∃ object : Object, s.decodeRow row = .ok object
      ∧ (∀ name target, s.field? name = some (.relation target) →
        object.get? name = some (relationStub target))
      ∧ ∀ entry ∈ row, (∀ target, s.field? entry.1 ≠ some (.relation target)) →
        s.decodeCell entry.1 entry.2 = .ok (object.get? entry.1) := by
  obtain ⟨cells, hread, hfound⟩ := decodeCells_eq_ok hrow h
  refine ⟨Dict.merge cells s.relationStubs, ?_, ?_, ?_⟩
  · rw [decodeRow, hread]
    rfl
  · intro name target hfield
    exact Dict.get?_merge_of_mem (nodup_relationStubs hs)
      (mem_relationStubs.mpr ⟨target, Dict.mem_of_get? hfield, rfl⟩)
  · intro entry hentry hplain
    -- stubs are merged in under the names of relations only
    have hnotMem : entry.1 ∉ s.relationStubs.map Prod.fst := by
      intro hmem
      obtain ⟨⟨name, stub⟩, hstub, hname⟩ := List.mem_map.mp hmem
      obtain ⟨target, hfield, -⟩ := mem_relationStubs.mp hstub
      refine hplain target (hs.get?_eq_some_iff.mpr ?_)
      rw [← hname]
      exact hfield
    rw [Dict.get?_merge_of_notMem hnotMem]
    exact hfound entry hentry

/-- What is written is what is read. A wire value of any type is stored in the column of its type
and read back from whatever the engine shows of the column, up to the form of its numbers; `null` is
stored as `NULL` and read as nothing; a relation is not stored, and reading a row supplies its stub.
-/
theorem codec_roundTrip :
    (∀ type v, FieldType.IsWire type v → FieldType.RoundTrips type v)
    ∧ (∀ type : FieldType, type.encode .null = .ok (some (Sql.text "NULL"))
      ∧ ∀ column, type.column? = some column → (∃ cell, Holds column (Sql.text "NULL") cell)
        ∧ ∀ name cell, Holds column (Sql.text "NULL") cell → type.decode name cell = .ok none)
    ∧ (∀ target, (FieldType.relation target).column? = none
      ∧ ∀ v, v ≠ .null → (FieldType.relation target).encode v = .ok none)
    ∧ ∀ (s : Schema) (row : Object), s.fields.Sorted → row.Sorted →
      (∀ entry ∈ row, ∃ value, s.decodeCell entry.1 entry.2 = .ok value) →
      ∃ object : Object, s.decodeRow row = .ok object
        ∧ (∀ name target, s.field? name = some (.relation target) →
          object.get? name = some (relationStub target))
        ∧ ∀ entry ∈ row, (∀ target, s.field? entry.1 ≠ some (.relation target)) →
          s.decodeCell entry.1 entry.2 = .ok (object.get? entry.1) := by
  refine ⟨?_, ?_, ?_, ?_⟩
  · intro type v h
    exact FieldType.roundTrips_of_isWire h
  · intro type
    refine ⟨rfl, ?_⟩
    intro column _
    refine ⟨⟨_, holds_nothing.mpr rfl⟩, ?_⟩
    intro name cell hcell
    rw [holds_nothing.mp hcell]
    rfl
  · intro target
    refine ⟨rfl, ?_⟩
    intro v hv
    cases v with
    | null => exact absurd rfl hv
    | bool | int | double | str | arr | obj => rfl
  · intro s row hs hrow h
    exact decodeRow_eq_ok hs hrow h

/-- A polygon, an absent point, a relation, and a row of a class with a relation. -/
theorem codec_roundTrip_place :
    FieldType.RoundTrips .polygon (.tagged "Polygon" [("coordinates",
      .arr [.arr [.int 1, .int 2], .arr [.int 3, .int 4], .arr [.int 5, .int 6]])])
    ∧ (∀ cell, Holds .point (Sql.text "NULL") cell →
      FieldType.decode "location" .geoPoint cell = .ok none)
    ∧ (FieldType.relation "_User").encode (relationStub "_User") = .ok none
    ∧ ∃ object : Object, (ofClass "Place" |>.withField "visitors" (.relation "_User")).decodeRow
        [("objectId", .str "p1")] = .ok object
      ∧ object.get? "visitors" = some (relationStub "_User") := by
  obtain ⟨hvalues, hnull, hrelation, hrow⟩ := codec_roundTrip
  refine ⟨hvalues _ _ ?_, ?_, ?_, ?_⟩
  · have hvertex (a b : Int) (ha : (-90 : ℚ) ≤ a ∧ (a : ℚ) ≤ 90)
        (hb : (-180 : ℚ) ≤ b ∧ (b : ℚ) ≤ 180) : Json.Coordinates (.int a) (.int b) (a, b) :=
      ⟨rfl, rfl, ha, hb⟩
    refine @FieldType.IsWire.polygon [(.int 1, .int 2), (.int 3, .int 4), (.int 5, .int 6)] _
      (.cons (hvertex 1 2 (by norm_num) (by norm_num))
        (.cons (hvertex 3 4 (by norm_num) (by norm_num))
          (.cons (hvertex 5 6 (by norm_num) (by norm_num)) .nil)))
      ⟨_, _, _, ?_, List.Subset.refl _⟩ ?_
    · norm_num
    · norm_num
  · obtain ⟨-, hpoint⟩ := hnull .geoPoint
    obtain ⟨-, hread⟩ := hpoint .point rfl
    exact hread "location"
  · obtain ⟨-, hstub⟩ := hrelation "_User"
    exact hstub _ (by rintro ⟨⟩)
  · have hfield : (ofClass "Place" |>.withField "visitors" (.relation "_User")).field? "objectId"
        = some .string := by decide +kernel
    have hcell : (ofClass "Place" |>.withField "visitors" (.relation "_User")).decodeCell "objectId"
        (.str "p1") = .ok (some (.str "p1")) := by
      rw [decodeCell, hfield]
      rfl
    obtain ⟨object, hobject, hstubs, -⟩ := hrow (ofClass "Place" |>.withField "visitors"
      (.relation "_User")) [("objectId", .str "p1")] (Dict.sorted_nil.merge.insert _ _)
      (Dict.sorted_singleton _) (List.forall_mem_singleton.mpr ⟨_, hcell⟩)
    exact ⟨object, hobject, hstubs "visitors" "_User" (Dict.get?_insert_self _ _ _)⟩

end Schema
end ObjectStore
