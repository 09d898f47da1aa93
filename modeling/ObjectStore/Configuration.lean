import ObjectStore.Error.Basic
import ObjectStore.Json.Outline
import ObjectStore.Json.Text
import ObjectStore.Objects.Options

/-!
# Configuration

A store is configured by a JSON text: where its database is, and optionally the limits of its pool
of connections and its switches. Unknown members are ignored, and only in the record of the database
do they have to be readable; a member that is known may not be written twice. A record may also be
written as the list of all its parts.

Where there is no text yet, the default configuration is written.
-/

namespace ObjectStore

/-- The limits of a pool of connections. -/
structure Pool where
  maxConnections : Option Nat
  minConnections : Option Nat
  connectTimeout : Option Nat
  acquireTimeout : Option Nat
  idleTimeout : Option Nat
  deriving Repr, DecidableEq

/-- The switches of a store as far as they are set. -/
structure Switches where
  restructureOrQueries : Option Bool
  estimateCounts : Option Bool
  caseInsensitiveIndexes : Option Bool
  deriving Repr, DecidableEq

/-- A configuration. -/
structure Configuration where
  url : String
  pool : Option Pool
  query : Option Switches
  deriving Repr, DecidableEq

namespace Configuration

/-! ## Reading -/

/-- The parts of a record by their names, or in their order, each as a text. -/
def parts? (names : List String) (s : List Char) : Option (List (Option (List Char))) :=
  (Json.outlineText? s).bind (Json.Outline.parts? names)

/-- A part that may be absent or null. -/
def optional? {α : Type} (read : List Char → Option α) : Option (List Char) → Option (Option α)
  | none => some none
  | some s => if s = ['n', 'u', 'l', 'l'] then some none else (read s).map some

/-- Reads a natural number below a limit. -/
def natBelow? (limit : Nat) (s : List Char) : Option Nat :=
  match Json.readAll? Json.maxDepth s with
  | some (.int n) => if 0 ≤ n ∧ n < limit then some n.toNat else none
  | _ => none

/-- Reads a truth value. -/
def flag? (s : List Char) : Option Bool := (Json.readAll? Json.maxDepth s).bind Json.bool?

/-- The names of the limits of a pool. -/
def poolNames : List String :=
  ["max_connections", "min_connections", "connect_timeout_ms", "acquire_timeout_ms",
    "idle_timeout_ms"]

/-- Reads the limits of a pool. -/
def readPool? (s : List Char) : Option Pool := do
  match ← parts? poolNames s with
  | [max, min, connect, acquire, idle] =>
    let number := optional? (natBelow? UInt32.size)
    let time := optional? (natBelow? UInt64.size)
    pure ⟨← number max, ← number min, ← time connect, ← time acquire, ← time idle⟩
  | _ => none

/-- The names of the switches. -/
def switchNames : List String :=
  ["restructure_or_queries", "estimate_counts", "case_insensitive_indexes"]

/-- Reads the switches. -/
def readSwitches? (s : List Char) : Option Switches := do
  match ← parts? switchNames s with
  | [moves, estimates, ignores] =>
    let flag := optional? flag?
    pure ⟨← flag moves, ← flag estimates, ← flag ignores⟩
  | _ => none

/-- The one kind of database there is. -/
def backend : String := "postgres"

/-- Reads where the database is. The record is read as a whole, one level deep in the text. -/
def readDatabase? (s : List Char) : Option String := do
  let value ← Json.readAll? (Json.maxDepth - 1) s
  match ← value.outline?.bind (Json.Outline.parts? ["backend", "url"]) with
  | [some (.str kind), some (.str url)] => if kind = backend then some url else none
  | _ => none

/-- Reads a configuration. -/
def read? (s : List Char) : Option Configuration := do
  match ← parts? ["database", "pool", "query"] s with
  | [some database, pool, query] =>
    pure ⟨← readDatabase? database, ← optional? readPool? pool, ← optional? readSwitches? query⟩
  | _ => none

/-- Reads the text of a configuration. -/
def parse (text : String) : Result Configuration :=
  match read? text.toList with
  | some configuration => .ok configuration
  | none => .error (.invalidJson .configuration)

/-! ## Writing -/

/-- A part that is null if it is absent. -/
def orNull {α : Type} (write : α → Json) (part : Option α) : Json := (part.map write).getD .null

/-- Writes the limits of a pool. -/
def poolToJson (p : Pool) : Json :=
  let values := [p.maxConnections, p.minConnections, p.connectTimeout, p.acquireTimeout,
    p.idleTimeout]
  .obj (poolNames.zip (values.map (orNull fun (n : Nat) => .int n)))

/-- Writes the switches. -/
def switchesToJson (s : Switches) : Json :=
  let values := [s.restructureOrQueries, s.estimateCounts, s.caseInsensitiveIndexes]
  .obj (switchNames.zip (values.map (orNull .bool)))

/-- Writes a configuration, with its parts in their order. -/
def toJson (c : Configuration) : Json :=
  .obj [("database", .obj [("backend", .str backend), ("url", .str c.url)]),
    ("pool", orNull poolToJson c.pool), ("query", orNull switchesToJson c.query)]

/-! ## Defaults -/

/-- The configuration of a store that has none. -/
def default : Configuration :=
  ⟨"postgres://localhost:5432/cairn", none, some ⟨some false, some true, some false⟩⟩

/-- The configuration in a file, and the text of the file afterwards. -/
def load : Option String → Result (Configuration × String)
  | some text => do pure (← parse text, text)
  | none => .ok (default, default.toJson.pretty 0)

/-- The switches of a configuration, where those that are not set have their defaults. -/
def settings (c : Configuration) : Settings :=
  let switch (read : Switches → Option Bool) (unset : Bool) : Bool :=
    (c.query.bind read).getD unset
  ⟨switch (·.restructureOrQueries) false, switch (·.estimateCounts) true,
    switch (·.caseInsensitiveIndexes) false⟩

end Configuration

end ObjectStore
