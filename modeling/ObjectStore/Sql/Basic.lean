import ObjectStore.Json.Basic
import ObjectStore.Text.Split

/-!
# SQL fragments

A fragment is a list of tokens: fixed text, quoted names, quoted literals and bound values. Bound
values stay inside the fragment and get their numbers only when it is rendered, in reading order,
so fragments can be put together without agreeing on positions first. A condition is a tree of such
fragments, and a writer writes it out.
-/

namespace ObjectStore.Sql

/-!
## Quoted names, literals and array elements

A name stands between double quotes and a literal between single quotes; inside either the quote
itself is written twice and nothing else is special. An array of texts is one literal of its own:
its elements stand in double quotes, and a backslash goes before every quote and backslash.
-/

/-- A text between two quotes, with every quote in it written twice. -/
def quoted (quote : Char) (s : String) : String :=
  String.singleton quote ++ Text.double quote s ++ String.singleton quote

/-- The name of a table, a column or an index. -/
def quotedName (name : String) : String := quoted '"' name

/-- A text literal. -/
def quotedText (s : String) : String := quoted '\'' s

/-- An element of an array literal: backslashes are doubled, then quotes get a backslash. -/
def arrayElement (s : String) : String :=
  "\"" ++ Text.backslash '"' (Text.double '\\' s) ++ "\""

/-- The literal of an array of texts. -/
def arrayLiteral (items : List String) : String :=
  "\x7b" ++ Text.join "," (items.map arrayElement) ++ "\x7d"

end ObjectStore.Sql

/-! ## Fragments -/

namespace ObjectStore

/-- A value sent beside the text of a statement. -/
inductive Param where
  | text (value : Option String)
  | double (value : Float)
  | bool (value : Bool)
  | integer (value : Int64)
  | natural (value : UInt64)
  | json (value : Json)

/-- A part of a fragment. -/
inductive Token where
  | text (s : String)
  | name (s : String)
  | literal (s : String)
  | bind (value : Param)

/-- A fragment of SQL. -/
abbrev Sql := List Token

namespace Token

/-- The value that a token binds. -/
def param? : Token → Option Param
  | .bind value => some value
  | _ => none

/-- How many placeholders a token takes. -/
def width : Token → Nat
  | .bind _ => 1
  | _ => 0

end Token

/-- A part of the text of a statement: a token with the number of its placeholder. -/
inductive Mark where
  | text (s : String)
  | name (s : String)
  | literal (s : String)
  | placeholder (number : Nat)
  deriving Repr, DecidableEq

namespace Mark

/-- What is written for a mark. -/
def written : Mark → String
  | .text s => s
  | .name s => Sql.quotedName s
  | .literal s => Sql.quotedText s
  | .placeholder number => "$" ++ toString number

/-- The text of marks, one after another. -/
def join (marks : List Mark) : String := marks.foldr (fun mark rest => mark.written ++ rest) ""

theorem join_append (marks others : List Mark) :
    join (marks ++ others) = join marks ++ join others := by
  induction marks with
  | nil => simp [join]
  | cons mark rest ih =>
    change mark.written ++ join (rest ++ others) = mark.written ++ join rest ++ _
    rw [ih, String.append_assoc]

end Mark

namespace Token

/-- The mark of a token whose placeholder, if it has one, gets a given number. -/
def mark (number : Nat) : Token → Mark
  | .text s => .text s
  | .name s => .name s
  | .literal s => .literal s
  | .bind _ => .placeholder number

end Token

namespace Sql

/-- A fragment of fixed text. -/
def text (s : String) : Sql := [.text s]

/-- A quoted name. -/
def name (s : String) : Sql := [.name s]

/-- A quoted literal. -/
def literal (s : String) : Sql := [.literal s]

/-- A bound value. -/
def bind (value : Param) : Sql := [.bind value]

/-- A bound text. -/
def bindText (s : String) : Sql := bind (.text (some s))

/-- A bound text that is read as JSON. -/
def bindJson (value : String) : Sql := bindText value ++ text "::jsonb"

/-- The marks of a fragment whose placeholders are numbered from `index`. -/
def number (index : Nat) : Sql → List Mark
  | [] => []
  | token :: rest => token.mark index :: number (index + token.width) rest

/-- The text of a fragment whose placeholders are numbered from `index`. -/
def render (index : Nat) (sql : Sql) : String := Mark.join (number index sql)

/-- The bound values in the order of their placeholders. -/
def params (sql : Sql) : List Param := sql.filterMap Token.param?

/-- How many values a fragment binds. -/
def bindCount (sql : Sql) : Nat := sql.params.length

/-- Fragments one after another with a fixed text between them. -/
def join (separator : String) : List Sql → Sql
  | [] => []
  | [part] => part
  | part :: next :: rest => part ++ text separator ++ join separator (next :: rest)

/-- A fragment in parentheses. -/
def parens (sql : Sql) : Sql := text "(" ++ sql ++ text ")"

/-- The tokens after the first hop of a path: all hops but the last stay JSON, and the last one
yields text if asked to. -/
def pathTail (asText : Bool) : List String → Sql
  | [] => []
  | [last] => text (if asText then "->>" else "->") ++ literal last
  | part :: next :: rest => text "->" ++ literal part ++ pathTail asText (next :: rest)

/-- A dotted name as a path from a column into its JSON. -/
def path (dotted : String) (asText : Bool) : Sql :=
  match Text.split '.' dotted with
  | [] => name ""
  | root :: rest => name root ++ pathTail asText rest

@[simp] theorem params_append (a b : Sql) : params (a ++ b) = params a ++ params b :=
  List.filterMap_append

@[simp] theorem bindCount_append (a b : Sql) : bindCount (a ++ b) = bindCount a + bindCount b := by
  simp [bindCount]

theorem bindCount_cons (token : Token) (rest : Sql) :
    bindCount (token :: rest) = token.width + bindCount rest := by
  cases token <;>
    simp [bindCount, params, List.filterMap_cons, Token.param?, Token.width, Nat.add_comm]

theorem number_append (a b : Sql) (index : Nat) :
    number index (a ++ b) = number index a ++ number (index + bindCount a) b := by
  induction a generalizing index with
  | nil => simp [number, bindCount, params]
  | cons token rest ih =>
    rw [List.cons_append, number, number, ih, bindCount_cons, List.cons_append, Nat.add_assoc]

/-- A fragment goes on with the numbers after those of the one before it. -/
theorem render_append (a b : Sql) (index : Nat) :
    render index (a ++ b) = render index a ++ render (index + bindCount a) b := by
  rw [render, number_append, Mark.join_append, render, render]

end Sql

/-!
## Predicates

The boolean structure over clauses. As a fragment, a disjunction of more than one member always
stands in parentheses, a conjunction only inside another connective, and a negated clause always.
-/

/-- A condition on rows. -/
inductive Predicate where
  | clause (sql : Sql)
  | all (members : List Predicate)
  | any (members : List Predicate)
  | not (member : Predicate)

namespace Predicate

/-- The conjunction of some predicates, of which one alone stands for itself. -/
def all? : List Predicate → Option Predicate
  | [] => none
  | [only] => some only
  | members => some (.all members)

/-- The disjunction of some predicates, of which one alone stands for itself. -/
def any? : List Predicate → Option Predicate
  | [] => none
  | [only] => some only
  | members => some (.any members)

/-- Whether a predicate is a single clause. -/
def isClause : Predicate → Bool
  | .clause _ => true
  | _ => false

/-- A fragment that stands in parentheses if a test says so. -/
def grouped (inParens : Bool) (sql : Sql) : Sql := if inParens then sql.parens else sql

mutual

/-- The fragment of a predicate, inside another connective or on its own. -/
def toSql (nested : Bool) : Predicate → Sql
  | .clause sql => sql
  | .all members => grouped (nested && 1 < members.length) (membersToSql " AND " members)
  | .any members => grouped (1 < members.length) (membersToSql " OR " members)
  | .not member => Sql.text "NOT " ++ grouped member.isClause (toSql true member)

/-- The fragments of the members of a connective with its word between them. -/
def membersToSql (word : String) : List Predicate → Sql
  | [] => []
  | [member] => toSql true member
  | member :: next :: rest =>
    toSql true member ++ Sql.text word ++ membersToSql word (next :: rest)

end

/-- The fragment of a predicate that stands on its own. -/
def sql (p : Predicate) : Sql := p.toSql false

end Predicate

/-!
## Writers

A fragment is written in one pass, with a counter for its placeholders: a writer carries the text so
far, the number of the next placeholder and the values that have been bound.
-/

/-- A text that is being written, with the number of the next placeholder and the values of those
before it. -/
structure Writer where
  text : String
  next : Nat
  values : List Param

namespace Writer

/-- A writer that has written nothing and numbers from `index`. -/
def startingAt (index : Nat) : Writer := ⟨"", index, []⟩

/-- Writes a text. -/
def push (w : Writer) (s : String) : Writer := { w with text := w.text ++ s }

/-- Writes a text if a test says so. -/
def pushIf (w : Writer) (test : Bool) (s : String) : Writer := if test then w.push s else w

/-- Writes the next placeholder for a value. -/
def bind (w : Writer) (value : Param) : Writer where
  text := w.text ++ ("$" ++ toString w.next)
  next := w.next + 1
  values := w.values ++ [value]

/-- Writes a token. -/
def token (w : Writer) : Token → Writer
  | .text s => w.push s
  | .name s => w.push (Sql.quotedName s)
  | .literal s => w.push (Sql.quotedText s)
  | .bind value => w.bind value

/-- Writes a fragment. -/
def fragment (w : Writer) (sql : Sql) : Writer := sql.foldl token w

mutual

/-- Writes a condition, inside another connective or on its own. -/
def predicate (w : Writer) (nested : Bool) : Predicate → Writer
  | .clause sql => w.fragment sql
  | .all items =>
    let wrap := nested && 1 < items.length
    ((w.pushIf wrap "(").members " AND " 0 items).pushIf wrap ")"
  | .any items =>
    let wrap := decide (1 < items.length)
    ((w.pushIf wrap "(").members " OR " 0 items).pushIf wrap ")"
  | .not item =>
    (((w.push "NOT ").pushIf item.isClause "(").predicate true item).pushIf item.isClause ")"

/-- Writes the members of a connective from the one at `index` on, with its word before each but the
first. -/
def members (w : Writer) (word : String) (index : Nat) : List Predicate → Writer
  | [] => w
  | item :: rest => ((w.pushIf (0 < index) word).predicate true item).members word (index + 1) rest

end

/-- The same counter and values with an empty page. -/
def fresh (w : Writer) : Writer := { w with text := "" }

/-- The text of a fragment, and the writer that goes on after it. -/
def render (w : Writer) (sql : Sql) : String × Writer :=
  let w := w.fresh.fragment sql
  (w.text, w)

/-- The text of a condition, and the writer that goes on after it. -/
def renderPredicate (w : Writer) (p : Predicate) : String × Writer :=
  let w := w.fresh.predicate false p
  (w.text, w)

/-- The text of the condition of a filter, if it has one. -/
def renderCondition (w : Writer) : Option Predicate → String × Writer
  | none => ("", w)
  | some p => w.renderPredicate p

/-- The texts of fragments that one writer writes in turn. -/
def renderEach (w : Writer) : List Sql → List String × Writer
  | [] => ([], w)
  | sql :: rest =>
    let (text, w) := w.render sql
    let (texts, w) := w.renderEach rest
    (text :: texts, w)

end Writer

end ObjectStore
