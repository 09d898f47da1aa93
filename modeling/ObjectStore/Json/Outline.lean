import ObjectStore.Json.Reader

/-!
# Outlines of JSON texts

A text that holds an object or an array can be split into the texts of its members or items before
any of them is read. What nobody reads afterwards has to have the form of a value, and no more: it
may be nested at any depth, name a number beyond the doubles, or half of a surrogate pair.
-/

namespace ObjectStore.Json

/-- Skips the rest of a string up to its closing quote. -/
def skipString? : List Char → Option (List Char)
  | '"' :: rest => some rest
  | '\\' :: 'u' :: a :: b :: c :: d :: rest =>
    if [a, b, c, d].all fun digit => (hexValue? digit).isSome then skipString? rest else none
  | '\\' :: c :: rest => if (escaped? c).isSome then skipString? rest else none
  | c :: rest => if c.toNat < 32 then none else skipString? rest
  | [] => none

/-- Skips a member's name and the colon after it. -/
def skipName? (s : List Char) : Option (List Char) :=
  match skipBlanks s with
  | '"' :: rest => do
    let rest ← skipString? rest
    match skipBlanks rest with
    | ':' :: rest => pure rest
    | _ => none
  | _ => none

/-- Skips a value that is no array and no object. -/
def skipScalar? : List Char → Option (List Char)
  | 'n' :: 'u' :: 'l' :: 'l' :: rest => some rest
  | 't' :: 'r' :: 'u' :: 'e' :: rest => some rest
  | 'f' :: 'a' :: 'l' :: 's' :: 'e' :: rest => some rest
  | '"' :: rest => skipString? rest
  | s => (splitNumeral? s).map (·.2)

/-- Skips to the end of the outermost value. `closers` are the brackets that close the arrays and
objects still open, the innermost first; `ended` tells that a value has just ended, so that a comma
or a bracket comes next. Every step but the last consumes a character. -/
def skip? : Nat → Bool → List Char → List Char → Option (List Char)
  | 0, _, _, _ => none
  | _ + 1, true, [], s => some s
  | fuel + 1, true, closer :: outer, s =>
    match skipBlanks s with
    | ',' :: rest =>
      if closer = '\x7d' then
        match skipName? rest with
        | some rest => skip? fuel false (closer :: outer) rest
        | none => none
      else skip? fuel false (closer :: outer) rest
    | c :: rest => if c = closer then skip? fuel true outer rest else none
    | [] => none
  | fuel + 1, false, closers, s =>
    match skipBlanks s with
    | '[' :: rest =>
      match skipBlanks rest with
      | ']' :: rest => skip? fuel true closers rest
      | rest => skip? fuel false (']' :: closers) rest
    | '\x7b' :: rest =>
      match skipBlanks rest with
      | '\x7d' :: rest => skip? fuel true closers rest
      | rest =>
        match skipName? rest with
        | some rest => skip? fuel false ('\x7d' :: closers) rest
        | none => none
    | rest =>
      match skipScalar? rest with
      | some rest => skip? fuel true closers rest
      | none => none

/-- Splits off the text of a value, without the blanks before it. -/
def splitValue? (s : List Char) : Option (List Char × List Char) :=
  let s := skipBlanks s
  (skip? (s.length + 1) false [] s).map fun rest => (s.take (s.length - rest.length), rest)

/-- Splits the items of an array that has some, and its closing bracket. -/
def splitItems? : Nat → List Char → Option (List (List Char) × List Char)
  | 0, _ => none
  | fuel + 1, s => do
    let (item, rest) ← splitValue? s
    match skipBlanks rest with
    | ',' :: rest => do
      let (items, rest) ← splitItems? fuel rest
      pure (item :: items, rest)
    | ']' :: rest => pure ([item], rest)
    | _ => none

/-- Splits the members of an object that has some, and its closing brace. -/
def splitFields? : Nat → List Char → Option (List (String × List Char) × List Char)
  | 0, _ => none
  | fuel + 1, s =>
    match skipBlanks s with
    | '"' :: rest => do
      let (key, rest) ← readString? (rest.length + 1) [] rest
      match skipBlanks rest with
      | ':' :: rest => do
        let (value, rest) ← splitValue? rest
        match skipBlanks rest with
        | ',' :: rest => do
          let (fields, rest) ← splitFields? fuel rest
          pure ((key, value) :: fields, rest)
        | '\x7d' :: rest => pure ([(key, value)], rest)
        | _ => none
      | _ => none
    | _ => none

/-- What an object or an array holds, one level deep. -/
inductive Outline (α : Type) where
  | fields (members : List (String × α))
  | items (values : List α)
  deriving Repr

/-- The outline of a value that is an object or an array. -/
def outline? : Json → Option (Outline Json)
  | .obj members => some (.fields members)
  | .arr values => some (.items values)
  | _ => none

/-- The outline of the object or the array that characters hold, with the texts of its parts. -/
def outlineText? (s : List Char) : Option (Outline (List Char)) := do
  let (outline, rest) ← match skipBlanks s with
    | '\x7b' :: rest =>
      match skipBlanks rest with
      | '\x7d' :: rest => some (.fields [], rest)
      | rest => (splitFields? (rest.length + 1) rest).map fun (members, rest) =>
        (.fields members, rest)
    | '[' :: rest =>
      match skipBlanks rest with
      | ']' :: rest => some (.items [], rest)
      | rest => (splitItems? (rest.length + 1) rest).map fun (texts, rest) => (.items texts, rest)
    | _ => none
  if (skipBlanks rest).isEmpty then pure outline else none

namespace Outline

/-- The member of a name, nothing if it is absent; a member may not occur twice. -/
def member? {α : Type} (members : List (String × α)) (name : String) : Option (Option α) :=
  match members.filter fun member => member.1 == name with
  | [] => some none
  | [(_, value)] => some (some value)
  | _ => none

/-- The parts of a record by their names, or in their order. -/
def parts? {α : Type} (names : List String) : Outline α → Option (List (Option α))
  | .fields members => names.mapM (member? members)
  | .items values => if values.length = names.length then some (values.map some) else none

end Outline

end ObjectStore.Json
