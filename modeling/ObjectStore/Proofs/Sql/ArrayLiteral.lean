import ObjectStore.Value.Encode

/-!
# Array literals read back

How the engine reads the literal of an array of texts: elements in double quotes with commas between
them, all in braces, where a backslash takes the character after it as it is. The literal of a list
of texts is read as that list (`readArray_arrayLiteral`), whatever characters the texts hold, so no
two lists have one literal (`arrayLiteral_lossless`).

An element is written in two steps, of which the second one works on what the first one wrote. They
do not get in each other's way: together they write each character on its own
(`toList_arrayElement`).
-/

namespace ObjectStore.Sql

/-! ## Elements character by character -/

/-- What is written for a character of an element. -/
def elementChar (c : Char) : List Char :=
  if c = '\\' ∨ c = '"' then ['\\', c] else [c]

/-- A quote is none of the characters that the first step writes, and the second step leaves its
backslashes as they are. -/
theorem toList_arrayElement (s : String) :
    (arrayElement s).toList = '"' :: (s.toList.flatMap elementChar ++ ['"']) := by
  have hchar : ∀ c, (if c = '\\' then [c, c] else [c]).flatMap
      (fun d => if d = '"' then ['\\', d] else [d]) = elementChar c := by
    intro c
    by_cases hb : c = '\\'
    · subst hb
      rfl
    · by_cases hq : c = '"' <;> simp [elementChar, hb, hq]
  have hboth :
      (Text.backslash '"' (Text.double '\\' s)).toList = s.toList.flatMap elementChar := by
    rw [Text.backslash, Text.double, String.toList_ofList, String.toList_ofList, List.flatMap_assoc]
    exact congrArg (List.flatMap · s.toList) (funext hchar)
  rw [arrayElement, String.toList_append, String.toList_append, hboth]
  rfl

/-! ## Reading -/

/-- Where a reader of an array literal stands: inside an element, or after one. -/
inductive ArrayState where
  | inside
  | after

/-- The character put before the first of some elements. -/
def extendFirst (c : Char) : List (List Char) → List (List Char)
  | [] => [[c]]
  | element :: rest => (c :: element) :: rest

/-- The elements of an array literal from a place in it; the first one goes on from there. -/
def readElements : ArrayState → List Char → Option (List (List Char))
  | .inside, '"' :: rest => (readElements .after rest).map ([] :: ·)
  | .inside, '\\' :: c :: rest => (readElements .inside rest).map (extendFirst c)
  | .inside, c :: rest =>
    if c = '\\' then none else (readElements .inside rest).map (extendFirst c)
  | .after, ',' :: '"' :: rest => readElements .inside rest
  | .after, ['}'] => some []
  | _, _ => none

/-- The texts of an array literal. -/
def readArray (literal : String) : Option (List String) :=
  match literal.toList with
  | ['{', '}'] => some []
  | '{' :: '"' :: rest => (readElements .inside rest).map (·.map String.ofList)
  | _ => none

/-- A character without a meaning of its own is part of the element. -/
theorem readElements_plain {c : Char} (hq : c ≠ '"') (hb : c ≠ '\\') (rest : List Char) :
    readElements .inside (c :: rest) = (readElements .inside rest).map (extendFirst c) := by
  rw [readElements.eq_3 _ _ hq (fun d more h => absurd h hb), if_neg hb]

/-- An element is read up to its closing quote. -/
theorem readElements_element (element rest : List Char) :
    readElements .inside (element.flatMap elementChar ++ '"' :: rest)
      = (readElements .after rest).map (element :: ·) := by
  induction element with
  | nil => simp [readElements]
  | cons c element ih =>
    -- with its backslash or without one, a character goes to the element as it is
    have hstep :
        readElements .inside (elementChar c ++ (element.flatMap elementChar ++ '"' :: rest))
          = (readElements .inside (element.flatMap elementChar ++ '"' :: rest)).map
            (extendFirst c) := by
      unfold elementChar
      split
      next => simp [readElements]
      next h =>
        rw [not_or] at h
        exact readElements_plain h.2 h.1 _
    rw [List.flatMap_cons, List.append_assoc, hstep, ih, Option.map_map]
    rfl

/-- Elements with commas between them are read one after another. -/
theorem readElements_join (first : String) (rest : List String) :
    readElements .inside ((Text.join "," ((first :: rest).map arrayElement)).toList.tail ++ ['}'])
      = some ((first :: rest).map String.toList) := by
  induction rest generalizing first with
  | nil => simp [Text.join, toList_arrayElement, readElements_element, readElements]
  | cons second rest ih =>
    -- the text of the other elements starts with the quote that opens the second one
    have hopen : (Text.join "," ((second :: rest).map arrayElement)).toList
        = '"' :: (Text.join "," ((second :: rest).map arrayElement)).toList.tail := by
      cases rest <;> simp [Text.join, toList_arrayElement]
    have hafter : readElements .after
        (',' :: (Text.join "," ((second :: rest).map arrayElement)).toList ++ ['}'])
        = some ((second :: rest).map String.toList) := by
      rw [hopen]
      exact ih second
    have hsplit : (Text.join "," ((first :: second :: rest).map arrayElement)).toList.tail ++ ['}']
        = first.toList.flatMap elementChar ++ '"'
          :: (',' :: (Text.join "," ((second :: rest).map arrayElement)).toList ++ ['}']) := by
      simp [Text.join, toList_arrayElement]
    rw [hsplit, readElements_element, hafter]
    rfl

/-- The literal of some texts is read as these texts. -/
theorem readArray_arrayLiteral (items : List String) :
    readArray (arrayLiteral items) = some items := by
  cases items with
  | nil => rfl
  | cons first rest =>
    have hopen : (arrayLiteral (first :: rest)).toList
        = '{' :: '"' :: ((Text.join "," ((first :: rest).map arrayElement)).toList.tail
          ++ ['}']) := by
      cases rest <;> simp [arrayLiteral, Text.join, toList_arrayElement]
    simp only [readArray, hopen]
    rw [readElements_join]
    simp

/-- Nothing is lost in an array literal: it is read as the texts that it was written for, so
different texts have different literals. -/
theorem arrayLiteral_lossless :
    (∀ items, readArray (arrayLiteral items) = some items) ∧ Function.Injective arrayLiteral := by
  refine ⟨readArray_arrayLiteral, ?_⟩
  intro items others heq
  have hread : some items = some others := by
    rw [← readArray_arrayLiteral items, heq, readArray_arrayLiteral others]
  exact Option.some.inj hread

example : arrayLiteral ["", "\\\"", "NULL", "\x7b,\x7d"]
    = "\x7b\"\",\"\\\\\\\"\",\"NULL\",\"\x7b,\x7d\"\x7d" := by
  cbv

end ObjectStore.Sql

namespace ObjectStore.Json

/-- The text form of a text is the text itself. -/
theorem map_textForm_str (texts : List String) : (texts.map str).map textForm = texts := by
  rw [List.map_map]
  exact List.map_id texts

end ObjectStore.Json
