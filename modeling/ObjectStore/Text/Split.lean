/-!
# Parts of a text

Cutting a text at a character, and looking for one text inside another. The functions work on lists
of characters; those on strings are thin covers of them.
-/

namespace ObjectStore.Text

/-- The parts between the occurrences of a separator: one part more than there are separators. -/
def splitChars (separator : Char) : List Char → List (List Char)
  | [] => [[]]
  | c :: rest =>
    if c = separator then [] :: splitChars separator rest
    else match splitChars separator rest with
      | part :: parts => (c :: part) :: parts
      | [] => [[c]]

/-- The parts of a text between the occurrences of a separator. -/
def split (separator : Char) (s : String) : List String :=
  (splitChars separator s.toList).map String.ofList

/-- What comes before and after the first occurrence of a separator. -/
def cutChars? (separator : Char) : List Char → Option (List Char × List Char)
  | [] => none
  | c :: rest =>
    if c = separator then some ([], rest)
    else (cutChars? separator rest).map fun (before, after) => (c :: before, after)

/-- The text before and after the first occurrence of a separator. -/
def cut? (separator : Char) (s : String) : Option (String × String) :=
  (cutChars? separator s.toList).map fun (before, after) =>
    (String.ofList before, String.ofList after)

/-- The text after a given start. -/
def afterStart? : List Char → List Char → Option (List Char)
  | [], s => some s
  | _ :: _, [] => none
  | c :: start, d :: s => if c = d then afterStart? start s else none

/-- The text before a given end. -/
def beforeEnd? (ending s : List Char) : Option (List Char) :=
  (afterStart? ending.reverse s.reverse).map List.reverse

/-- Whether one text occurs inside another. -/
def occursIn (part : List Char) : List Char → Bool
  | [] => part.isEmpty
  | c :: s => part.isPrefixOf (c :: s) || occursIn part s

/-- Whether a text contains another. -/
def contains (s part : String) : Bool := occursIn part.toList s.toList

/-- Whether a text starts with another. -/
def startsWith (s start : String) : Bool := start.toList.isPrefixOf s.toList

/-- The rest of a text that starts with another. -/
def dropStart? (s start : String) : Option String :=
  (afterStart? start.toList s.toList).map String.ofList

/-- The beginning of a text that ends with another. -/
def dropEnd? (s ending : String) : Option String :=
  (beforeEnd? ending.toList s.toList).map String.ofList

/-- The parts between the occurrences of a separating text, read from left to right; `skipped` is
how much of an occurrence is still to be passed over. -/
def splitAtChars (separator : List Char) (skipped : Nat) : List Char → List (List Char)
  | [] => [[]]
  | c :: rest =>
    if 0 < skipped then splitAtChars separator (skipped - 1) rest
    else if separator.isPrefixOf (c :: rest) then
      [] :: splitAtChars separator (separator.length - 1) rest
    else match splitAtChars separator 0 rest with
      | part :: parts => (c :: part) :: parts
      | [] => [[c]]

/-- The parts of a text between the occurrences of a separating text. -/
def splitAt (separator : String) (s : String) : List String :=
  (splitAtChars separator.toList 0 s.toList).map String.ofList

/-- Texts put one after another with a separator between them. -/
def join (separator : String) : List String → String
  | [] => ""
  | [part] => part
  | part :: next :: rest => part ++ separator ++ join separator (next :: rest)

/-- Every occurrence of a character written twice. -/
def double (c : Char) (s : String) : String :=
  String.ofList (s.toList.flatMap fun d => if d = c then [d, d] else [d])

/-- Every occurrence of a character with a backslash before it. -/
def backslash (c : Char) (s : String) : String :=
  String.ofList (s.toList.flatMap fun d => if d = c then ['\\', d] else [d])

theorem splitChars_ne_nil (separator : Char) (s : List Char) : splitChars separator s ≠ [] := by
  induction s with
  | nil => simp [splitChars]
  | cons c rest ih =>
    unfold splitChars
    split
    · simp
    · split <;> simp

end ObjectStore.Text
