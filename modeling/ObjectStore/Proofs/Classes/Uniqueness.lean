import ObjectStore.Classes.Index
import ObjectStore.Objects.Write
import ObjectStore.Proofs.Classes.Tolerance
import ObjectStore.Proofs.Text.Split

/-!
# Refused duplicates

The name of a unique index is a class, a mark and a field. When the engine refuses a write it names
the index, and the field is read back from that name: it is the first word that stands behind a
mark. What is not a word cannot be read back, and a class may have a mark in its own name.

`FirstMarked` says what is read without saying how. `GivesAway` is the condition for a class and a
field that the field is read back, and `refusedWrite_names_field_iff` is what this means for a write
that the index refuses.
-/

namespace ObjectStore

/-! ## Marked words -/

/-- A word is some letters. -/
def IsWord (word : List Char) : Prop := word ≠ [] ∧ ∀ c ∈ word, c.isAlpha

/-- In a text, the mark comes after some characters, and a word comes after the mark; the word is
all the letters that are there. -/
def Marked (text before word : List Char) : Prop :=
  IsWord word ∧ ∃ after, text = before ++ (uniqueMark.toList ++ (word ++ after)) ∧
    ∀ c ∈ after.head?, ¬ c.isAlpha

/-- A word is marked in a text, and none is before it. -/
def FirstMarked (text word : List Char) : Prop :=
  ∃ before, Marked text before word ∧
    ∀ before' word', Marked text before' word' → before.length ≤ before'.length

variable {text before before' word word' after front back : List Char}

/-- A word is all the letters up to the first other character. -/
theorem takeWhile_isAlpha_append (hword : ∀ c ∈ word, c.isAlpha)
    (hafter : ∀ c ∈ after.head?, ¬ c.isAlpha) : (word ++ after).takeWhile Char.isAlpha = word := by
  rw [List.takeWhile_append_of_pos hword]
  cases after with
  | nil => exact List.append_nil word
  | cons c after =>
    rw [List.takeWhile_cons_of_neg (hafter c rfl), List.append_nil]

/-- The word behind a mark at the start of a text. -/
theorem marked_nil_iff : Marked text [] word ↔ word ≠ [] ∧
    ((Text.afterStart? uniqueMark.toList text).getD []).takeWhile Char.isAlpha = word := by
  constructor
  · intro ⟨⟨hne, hword⟩, after, htext, hafter⟩
    refine ⟨hne, ?_⟩
    rw [htext, List.nil_append, Text.afterStart?_append]
    exact takeWhile_isAlpha_append hword hafter
  · intro ⟨hne, heq⟩
    cases hrest : Text.afterStart? uniqueMark.toList text with
    | none =>
      rw [hrest] at heq
      exact absurd heq.symm hne
    | some rest =>
      rw [hrest] at heq
      subst heq
      refine ⟨⟨hne, List.all_eq_true.mp List.all_takeWhile⟩, rest.dropWhile Char.isAlpha, ?_, ?_⟩
      · rw [Option.getD_some, List.takeWhile_append_dropWhile, List.nil_append]
        exact Text.eq_append_of_afterStart? hrest
      · intro c hc
        have hhead := List.head?_dropWhile_not Char.isAlpha rest
        rw [hc] at hhead
        simpa using hhead

/-- A word that is marked behind a first character is marked in the rest. -/
theorem marked_cons_iff {c d : Char} :
    Marked (c :: text) (d :: before) word ↔ c = d ∧ Marked text before word := by
  simp only [Marked, List.cons_append, List.cons.injEq]
  constructor
  · intro ⟨hword, after, ⟨hc, htext⟩, hafter⟩
    exact ⟨hc, hword, after, htext, hafter⟩
  · intro ⟨hc, hword, after, htext, hafter⟩
    exact ⟨hword, after, ⟨hc, htext⟩, hafter⟩

/-- No word is marked in an empty text. -/
theorem not_marked_nil (before word : List Char) : ¬ Marked [] before word := by
  intro ⟨⟨hne, _⟩, after, htext, _⟩
  obtain ⟨-, hrest⟩ := List.append_eq_nil_iff.mp htext.symm
  obtain ⟨-, hrest⟩ := List.append_eq_nil_iff.mp hrest
  exact hne (List.append_eq_nil_iff.mp hrest).1

/-- What is marked in a text is a beginning of it. -/
theorem Marked.before_eq (h : Marked text before word) (h' : Marked text before' word')
    (hlength : before.length = before'.length) : before = before' := by
  obtain ⟨-, after, htext, -⟩ := h
  obtain ⟨-, after', htext', -⟩ := h'
  exact (List.append_inj (htext.symm.trans htext') hlength).1

/-- One word at most is marked at a place. -/
theorem Marked.word_eq (h : Marked text before word) (h' : Marked text before word') :
    word = word' := by
  induction before generalizing text with
  | nil => exact (marked_nil_iff.mp h).2.symm.trans (marked_nil_iff.mp h').2
  | cons d before ih =>
    cases text with
    | nil => exact absurd h (not_marked_nil _ _)
    | cons c text => exact ih (marked_cons_iff.mp h).2 (marked_cons_iff.mp h').2

/-- One word at most is the first. -/
theorem FirstMarked.unique (h : FirstMarked text word) (h' : FirstMarked text word') :
    word = word' := by
  obtain ⟨before, hmarked, hfirst⟩ := h
  obtain ⟨before', hmarked', hfirst'⟩ := h'
  have hlength := Nat.le_antisymm (hfirst _ _ hmarked') (hfirst' _ _ hmarked)
  obtain rfl := hmarked.before_eq hmarked' hlength
  exact hmarked.word_eq hmarked'

/-- The scan stops at the first word, if there is one. -/
theorem lettersAfterMark?_cases (text : List Char) :
    (lettersAfterMark? text = none ∧ ∀ before word, ¬ Marked text before word) ∨
      ∃ word, lettersAfterMark? text = some word ∧ FirstMarked text word := by
  induction text with
  | nil => exact .inl ⟨rfl, not_marked_nil⟩
  | cons c rest ih =>
    let letters :=
      ((Text.afterStart? uniqueMark.toList (c :: rest)).getD []).takeWhile Char.isAlpha
    have hscan : lettersAfterMark? (c :: rest)
        = if letters.isEmpty then lettersAfterMark? rest else some letters := rfl
    by_cases hempty : letters = []
    · rw [hscan, if_pos (List.isEmpty_iff.mpr hempty)]
      have hhere : ∀ word, ¬ Marked (c :: rest) [] word := by
        intro word hmarked
        obtain ⟨hne, heq⟩ := marked_nil_iff.mp hmarked
        exact hne (heq.symm.trans hempty)
      rcases ih with ⟨hnone, hrest⟩ | ⟨word, hsome, before, hmarked, hfirst⟩
      · refine .inl ⟨hnone, ?_⟩
        intro before word hmarked
        cases before with
        | nil => exact hhere word hmarked
        | cons d before => exact hrest before word (marked_cons_iff.mp hmarked).2
      · refine .inr ⟨word, hsome, c :: before, marked_cons_iff.mpr ⟨rfl, hmarked⟩, ?_⟩
        intro before' word' hmarked'
        cases before' with
        | nil => exact absurd hmarked' (hhere word')
        | cons d before' =>
          exact Nat.succ_le_succ (hfirst before' word' (marked_cons_iff.mp hmarked').2)
    · rw [hscan, if_neg (mt List.isEmpty_iff.mp hempty)]
      exact .inr ⟨letters, rfl, [], marked_nil_iff.mpr ⟨hempty, rfl⟩, fun _ _ _ => Nat.zero_le _⟩

/-- The scan finds the first marked word. -/
theorem lettersAfterMark?_eq_some_iff :
    lettersAfterMark? text = some word ↔ FirstMarked text word := by
  rcases lettersAfterMark?_cases text with ⟨hnone, hmarked⟩ | ⟨found, hfound, hfirst⟩
  · rw [hnone]
    exact iff_of_false nofun fun ⟨before, h, _⟩ => hmarked before word h
  · rw [hfound, Option.some.injEq]
    exact ⟨fun heq => heq ▸ hfirst, hfirst.unique⟩

/-- If any word is marked in a text, one is the first. -/
theorem Marked.exists_first (h : Marked text before word) : ∃ word, FirstMarked text word := by
  rcases lettersAfterMark?_cases text with ⟨-, hnone⟩ | ⟨found, -, hfirst⟩
  · exact absurd h (hnone before word)
  · exact ⟨found, hfirst⟩

/-! ## Marks in front of a field -/

/-- There is no underscore in a word, so a text up to an underscore ends in no word. -/
theorem IsWord.append_eq {start rest : List Char} (hword : IsWord word)
    (h : start ++ '_' :: rest = word ++ after) :
    ∃ between, start = word ++ between ∧ after = between ++ '_' :: rest := by
  rcases List.append_eq_append_iff.mp h with ⟨letters, hletters, htail⟩ | hbetween
  · cases letters with
    | nil => exact ⟨[], by rw [hletters, List.append_nil, List.append_nil], htail.symm⟩
    | cons c letters =>
      obtain ⟨rfl, -⟩ := List.cons.inj htail
      have hletter := hword.2 '_' (hletters ▸ List.mem_append_right _ List.mem_cons_self)
      exact absurd hletter (by decide)
  · exact hbetween

/-- What is marked in front of an underscore does not depend on what comes after it. -/
theorem Marked.of_append (h : Marked (front ++ '_' :: back) before word)
    (hlength : before.length + uniqueMark.toList.length ≤ front.length) (back' : List Char) :
    Marked (front ++ '_' :: back') before word := by
  obtain ⟨hword, after, htext, hafter⟩ := h
  rw [← List.append_assoc] at htext
  have hprefix : before ++ uniqueMark.toList <+: front := by
    refine List.prefix_of_prefix_length_le ⟨_, htext.symm⟩ ⟨_, rfl⟩ ?_
    rw [List.length_append]
    exact hlength
  obtain ⟨start, rfl⟩ := hprefix
  rw [List.append_assoc _ start, List.append_cancel_left_eq] at htext
  obtain ⟨between, rfl, rfl⟩ := hword.append_eq htext
  refine ⟨hword, between ++ '_' :: back', by simp, ?_⟩
  cases between with
  | nil => exact hafter
  | cons c between => exact hafter

/-- What is marked in the front of a text, up to an underscore, is marked in the text. -/
theorem marked_append_iff : Marked (front ++ ['_']) before word ↔
    Marked (front ++ '_' :: back) before word ∧
      before.length + uniqueMark.toList.length ≤ front.length := by
  constructor
  · intro h
    have hlength : before.length + uniqueMark.toList.length ≤ front.length := by
      obtain ⟨⟨hne, -⟩, after, htext, -⟩ := h
      have heq := congrArg List.length htext
      have hpos := List.length_pos_iff.mpr hne
      simp only [List.length_append, List.length_singleton] at heq
      omega
    exact ⟨h.of_append hlength back, hlength⟩
  · intro ⟨h, hlength⟩
    exact h.of_append hlength []

/-- A field stands behind the mark in the name of its index, and is the first marked word in it just
if it is a word and no other is marked before. -/
theorem firstMarked_append_iff (front : List Char) {field : List Char}
    (hafter : ∀ c ∈ after.head?, ¬ c.isAlpha) :
    FirstMarked (front ++ '_' :: (uniqueMark.toList ++ (field ++ after))) field
      ↔ IsWord field ∧ ∀ word, FirstMarked (front ++ '_' :: uniqueMark.toList) word →
        word = field := by
  -- the mark ends in an underscore as well
  obtain ⟨start, hstart⟩ : ∃ start, uniqueMark.toList = start ++ ['_'] := ⟨"unique".toList, rfl⟩
  let name := front ++ '_' :: start
  have hname : front ++ '_' :: uniqueMark.toList = name ++ ['_'] := by simp [name, hstart]
  have htext : front ++ '_' :: (uniqueMark.toList ++ (field ++ after))
      = name ++ '_' :: (field ++ after) := by simp [name, hstart]
  have hlength : name.length = front.length + uniqueMark.toList.length := by
    simp [name, hstart]
  rw [hname, htext]
  constructor
  · intro ⟨before, hmarked, hfirst⟩
    refine ⟨hmarked.1, ?_⟩
    rintro word ⟨before', hmarked', hfirst'⟩
    obtain ⟨hlater, hbound⟩ := marked_append_iff.mp hmarked'
    have hle := hfirst before' word hlater
    have hwithin : Marked (name ++ ['_']) before field :=
      marked_append_iff.mpr ⟨hmarked, by omega⟩
    obtain rfl := hwithin.before_eq hmarked' (Nat.le_antisymm hle (hfirst' _ _ hwithin))
    exact hmarked'.word_eq hwithin
  · intro ⟨hword, hsame⟩
    by_cases hnone : ∃ word, FirstMarked (name ++ ['_']) word
    · obtain ⟨word, before, hmarked, hfirst⟩ := hnone
      obtain rfl := hsame word ⟨before, hmarked, hfirst⟩
      obtain ⟨hlater, hbound⟩ := marked_append_iff.mp hmarked
      refine ⟨before, hlater, ?_⟩
      intro before' word' hmarked'
      apply Nat.le_of_not_lt
      intro hlt
      have hwithin : Marked (name ++ ['_']) before' word' :=
        marked_append_iff.mpr ⟨hmarked', by omega⟩
      exact absurd (hfirst before' word' hwithin) (Nat.not_le_of_lt hlt)
    · have hfield : Marked (name ++ '_' :: (field ++ after)) (front ++ ['_']) field := by
        refine ⟨hword, after, ?_, hafter⟩
        rw [← htext]
        simp
      refine ⟨_, hfield, ?_⟩
      intro before' word' hmarked'
      apply Nat.le_of_not_lt
      intro hlt
      rw [List.length_append, List.length_singleton] at hlt
      have hwithin : Marked (name ++ ['_']) before' word' :=
        marked_append_iff.mpr ⟨hmarked', by omega⟩
      exact hnone hwithin.exists_first

/-- There is no mark in what the engine says before it names an index. -/
theorem lettersAfterMark?_quoted (hfront : '_' ∉ front) (text : List Char) :
    lettersAfterMark? (front ++ '"' :: text) = lettersAfterMark? text := by
  have hno : ∀ front : List Char, '_' ∉ front →
      Text.afterStart? uniqueMark.toList (front ++ '"' :: text) = none := by
    intro front hfront
    cases hrest : Text.afterStart? uniqueMark.toList (front ++ '"' :: text) with
    | none => rfl
    | some rest =>
      have hunderscore : '_' ∈ uniqueMark.toList := by decide
      have hquote : '"' ∉ uniqueMark.toList := by decide
      rcases List.append_eq_append_iff.mp (Text.eq_append_of_afterStart? hrest) with
        ⟨later, hmark, htext⟩ | ⟨later, hstart, -⟩
      · cases later with
        | nil =>
          rw [List.append_nil] at hmark
          exact absurd (hmark ▸ hunderscore) hfront
        | cons c later =>
          obtain ⟨rfl, -⟩ := List.cons.inj htext
          exact absurd (hmark ▸ List.mem_append_right _ List.mem_cons_self) hquote
      · exact absurd (hstart ▸ List.mem_append_left _ hunderscore) hfront
  induction front with
  | nil =>
    have hskip := hno [] hfront
    rw [List.nil_append] at hskip ⊢
    rw [lettersAfterMark?, hskip]
    rfl
  | cons c front ih =>
    have hskip := hno (c :: front) hfront
    rw [List.cons_append] at hskip ⊢
    rw [lettersAfterMark?, hskip]
    exact ih (List.not_mem_of_not_mem_cons hfront)

/-! ## The name of an index -/

open Work

/-- A field can be read back from the name of the unique index on it: it is a word, and no other
word is marked in what comes before it there. -/
def GivesAway (className field : String) : Prop :=
  IsWord field.toList ∧
    ∀ word, FirstMarked (className ++ "_" ++ uniqueMark).toList word → word = field.toList

/-- The words of the engine for a value that an index has already. -/
def violation : String := "duplicate key value violates unique constraint"

/-- The message of the engine about a value that an index has already. -/
def refusal (index : String) : String := violation ++ " \"" ++ index ++ "\""

theorem duplicatedField?_refusal_iff (className field : String) {heading : String}
    (hheading : '_' ∉ heading.toList) :
    duplicatedField? (heading ++ refusal (Classes.uniqueIndexName className [field])) = some field ↔
      GivesAway className field := by
  have hfront : '_' ∉ heading.toList ++ (violation.toList ++ [' ']) := by
    rw [List.mem_append, not_or]
    exact ⟨hheading, by decide⟩
  have hmessage : (heading ++ refusal (Classes.uniqueIndexName className [field])).toList
      = (heading.toList ++ (violation.toList ++ [' '])) ++
        '"' :: (className.toList ++ '_' :: (uniqueMark.toList ++ (field.toList ++ ['"']))) := by
    simp only [refusal, Classes.uniqueIndexName, Text.join, String.toList_append,
      List.append_assoc]
    rfl
  have hquote : ∀ c ∈ ['"'].head?, ¬ c.isAlpha := by simp
  have hname : (className ++ "_" ++ uniqueMark).toList
      = className.toList ++ '_' :: uniqueMark.toList := by
    simp only [String.toList_append, List.append_assoc]
    rfl
  rw [duplicatedField?, hmessage, lettersAfterMark?_quoted hfront, GivesAway, hname,
    ← firstMarked_append_iff className.toList hquote, ← lettersAfterMark?_eq_some_iff,
    Option.map_eq_some_iff]
  constructor
  · rintro ⟨word, hword, heq⟩
    rw [hword, ← heq, String.toList_ofList]
  · intro hword
    exact ⟨_, hword, String.ofList_toList⟩

/-- The engine's text tells of what kind a refusal is. -/
theorem isState_ofEngine_refusal (heading index : String) :
    (Error.ofEngine (heading ++ refusal index)).isState .uniqueViolation := by
  have hcontains : Text.contains (heading ++ refusal index) violation = true := by
    refine Text.occursIn_iff_infix.mpr ⟨heading.toList, (" \"" ++ index ++ "\"").toList, ?_⟩
    simp only [refusal, String.toList_append, List.append_assoc]
  have hstate : SqlState.ofMessage? (heading ++ refusal index) = some .uniqueViolation :=
    if_pos hcontains
  rw [Error.ofEngine, hstate]
  rfl

/-- All that is sent to keep fields unique is the statement that creates their index. -/
theorem Classes.logs_ensureUnique (className : String) (fields : List String) :
    Logs (fun _ log => ∃ outcome, log = [(.table (.createUniqueIndex
      (uniqueIndexName className fields) className fields), outcome)])
      (ensureUnique className fields) := by
  let statement : TableStatement :=
    .createUniqueIndex (uniqueIndexName className fields) className fields
  have hguard : Logs (fun _ log => ∃ outcome, log = [(.table statement, outcome)])
      (executeTolerant statement [.duplicateTable, .duplicateObject]) :=
    (logs_executeTolerant statement _).mono fun _ _ hguards => by cases hguards <;> exact ⟨_, rfl⟩
  have hdone : Logs (fun _ log => ∃ outcome, log = [(.table statement, outcome)]) (do
      let _ ← executeTolerant statement [.duplicateTable, .duplicateObject]) :=
    logs_bind hguard (fun _ log hlog => logs_pure (by simpa using hlog)) fun _ _ hlog => hlog
  exact logs_recover hdone (fun _ _ hlog => hlog) fun _ _ hlog => logs_throw (by simpa using hlog)

namespace Objects

/-! ## Refused writes -/

/-- Statements whose refusal ends a write are told as duplicates: if the last statement that was
sent is one of them and was refused, the result is a duplicate of the field that the message
names. -/
def Reports {α : Type} (ends : Statement → Prop) (result : Result α) (log : List Sending) : Prop :=
  ∀ statement e, log.getLast? = some (statement, .failed e) → ends statement →
    e.isState .uniqueViolation → result = .error (.duplicateValue (duplicatedField? e.message))

section Reports

variable {α β : Type} {w : Work α} {f : α → Work β} {ends : Statement → Prop}
  {log later : List Sending}

/-- What nothing comes of to the engine. -/
def Silent (w : Work α) : Prop := Logs (fun _ log => log = []) w

/-- A result that is there sends nothing. -/
theorem silent_ofResult (result : Result α) : Silent (ofResult result) := by
  cases result with
  | ok a => exact logs_pure rfl
  | error e => exact logs_throw rfl

/-- Silent work after silent work is silent. -/
theorem silent_bind (hw : Silent w) (hf : ∀ a, Silent (f a)) : Silent (w >>= f) := by
  refine logs_bind hw ?_ fun _ _ hnil => hnil
  intro a log hnil
  subst hnil
  exact hf a

/-- Compiling a query sends nothing. -/
theorem silent_filterOf (schema : Schema) (query : Object) (ignoreCase : Bool) :
    Silent (filterOf schema query ignoreCase) := by
  have hnow : Silent now := leaves_of_journal_eq fun _ => ⟨rfl, rfl⟩
  exact silent_bind hnow fun _ => silent_ofResult _

/-- All that work sends is of some kind if all is that its parts send. -/
theorem logs_all_bind {P : Sending → Prop} (hw : Logs (fun _ log => ∀ sending ∈ log, P sending) w)
    (hf : ∀ a, Logs (fun _ log => ∀ sending ∈ log, P sending) (f a)) :
    Logs (fun _ log => ∀ sending ∈ log, P sending) (w >>= f) := by
  refine logs_bind hw ?_ fun _ _ hlog => hlog
  intro a log hlog
  refine (hf a).mono ?_
  intro _ later hlater
  exact List.forall_mem_append.mpr ⟨hlog, hlater⟩

/-- Of all that silent work sends anything may be said. -/
theorem Silent.all (h : Silent w) (P : Sending → Prop) :
    Logs (fun _ log => ∀ sending ∈ log, P sending) w := by
  refine h.mono ?_
  intro _ _ hnil
  subst hnil
  exact List.forall_mem_nil _

theorem reports_nil (result : Result α) : Reports ends result [] := fun _ _ => nofun

/-- Statements whose refusal is passed over do not matter if others are sent. -/
theorem Reports.append {result : Result α} (hlog : ∀ sending ∈ log, ¬ ends sending.1)
    (h : Reports ends result later) : Reports ends result (log ++ later) := by
  intro statement e hlast hends
  cases hlater : later.getLast? with
  | none =>
    rw [List.getLast?_append, hlater, Option.none_or] at hlast
    exact absurd hends (hlog _ (List.mem_of_getLast? hlast))
  | some sending =>
    rw [List.getLast?_append, hlater, Option.some_or] at hlast
    exact h statement e (hlater.trans hlast) hends

/-- Silent work before others takes nothing from what they report. -/
theorem reports_bind_of_silent (hw : Silent w) (hf : ∀ a, Logs (Reports ends) (f a)) :
    Logs (Reports ends) (w >>= f) := by
  refine logs_bind hw ?_ ?_
  · intro a log hnil
    subst hnil
    exact hf a
  · intro e log hnil
    subst hnil
    exact reports_nil _

/-- What is done with the answer to a statement does not make up for its refusal. -/
theorem reports_bind_silent (hw : Logs (Reports ends) w) (hf : ∀ a, Silent (f a)) :
    Logs (Reports ends) (w >>= f) := by
  refine logs_bind hw (fun a log hlog => (hf a).mono ?_) ?_
  · intro result later hnil
    subst hnil
    rw [List.append_nil]
    exact fun statement e hlast hends hstate => nomatch hlog statement e hlast hends hstate
  · intro e log hlog statement cause hlast hends hstate
    exact congrArg Except.error (Except.error.inj (hlog statement cause hlast hends hstate))

/-- The refusal of a statement is reworded. -/
theorem reports_rewordFailure {statement : Statement} (h : Logs (IsAnswer statement) w) :
    Logs (Reports ends) (w.rewordFailure Error.ofWrite) := by
  refine logs_recover h ?_ ?_
  · intro a log hanswer
    cases hanswer with
    | answered hsucceeded =>
      intro statement e hlast
      cases hlast
      exact nomatch hsucceeded
  · intro e log hanswer
    cases hanswer with
    | failed =>
      refine logs_throw ?_
      intro statement cause hlast _ hstate
      cases hlast
      exact congrArg Except.error (if_pos hstate)

/-- An insertion reports the refusal of its statement. -/
theorem reports_insert (className : String) (schema : Schema) (object : Object) :
    Logs (Reports ends) (insert className schema object) := by
  refine reports_bind_of_silent (silent_ofResult _) ?_
  intro object
  refine reports_bind_of_silent (silent_ofResult _) ?_
  intro columns
  have hsent : Logs (IsAnswer (.insert className columns)) (execute (.insert className columns)) :=
    logs_execute (fun _ => .answered rfl) fun _ => .failed
  exact reports_bind_silent (reports_rewordFailure hsent) fun _ => logs_pure rfl

/-- A statement that changes rows reports its refusal, and decoding what comes back hides nothing.
-/
theorem reports_changed (schema : Schema) (statement : RowStatement) :
    Logs (Reports ends) (changed schema statement) := by
  have hsent : Logs (IsAnswer (.rows statement)) (query (.rows statement)) :=
    logs_query (fun _ => .answered rfl) fun _ => .failed
  exact reports_bind_silent (reports_rewordFailure hsent) fun _ => silent_ofResult _

/-- An update of all reports the refusal of its statement. -/
theorem reports_updateAll (className : String) (schema : Schema) (query update : Object) :
    Logs (Reports ends) (updateAll className schema query update) := by
  refine reports_bind_of_silent (silent_filterOf schema query false) ?_
  intro filter
  refine reports_bind_of_silent (silent_ofResult _) ?_
  intro assignments
  exact reports_changed schema _

/-- An update of one reports the refusal of its statement. -/
theorem reports_updateOne (className : String) (schema : Schema) (query update : Object) :
    Logs (Reports ends) (updateOne className schema query update) := by
  refine reports_bind_of_silent (silent_filterOf schema query false) ?_
  intro filter
  refine reports_bind_of_silent (silent_ofResult _) ?_
  intro assignments
  exact reports_bind_silent (reports_changed schema _) fun _ => logs_pure rfl

/-- A statement inserts a row. -/
def IsInsert : Statement → Prop
  | .insert .. => True
  | _ => False

/-- Inserting sends nothing else. -/
theorem logs_insert (className : String) (schema : Schema) (object : Object) :
    Logs (fun _ log => ∀ sending ∈ log, IsInsert sending.1) (insert className schema object) := by
  refine logs_all_bind ((silent_ofResult _).all _) ?_
  intro object
  refine logs_all_bind ((silent_ofResult _).all _) ?_
  intro columns
  have hsent : Logs (fun _ log => ∀ sending ∈ log, IsInsert sending.1)
      ((execute (.insert className columns)).rewordFailure Error.ofWrite) :=
    logs_recover (Q := fun _ log => ∀ sending ∈ log, IsInsert sending.1)
      (logs_execute (fun _ => by simp [IsInsert]) fun _ => by simp [IsInsert])
      (fun _ _ hlog => hlog) fun _ _ hlog => logs_throw (by simpa using hlog)
  exact logs_all_bind hsent fun _ => logs_pure (List.forall_mem_nil _)

/-- An upsert goes on after its insert was refused, with an update that may be refused as well. -/
theorem reports_upsert (className : String) (schema : Schema) (query update : Object) :
    Logs (Reports fun statement => ¬ IsInsert statement)
      (upsert className schema query update) := by
  let ends : Statement → Prop := fun statement => ¬ IsInsert statement
  have hinsert : Logs (fun result log => Reports ends result log ∧
      ∀ sending ∈ log, ¬ ends sending.1) (do
        pure (some (← insert className schema (described query update)))) := by
    have hinsert : Logs (Reports ends) (insert className schema (described query update)) :=
      reports_insert className schema (described query update)
    have hreports := reports_bind_silent hinsert fun a => logs_pure (a := some a) rfl
    have hkind := logs_all_bind (logs_insert className schema (described query update))
      fun a => logs_pure (a := some a) (List.forall_mem_nil _)
    refine (Leaves.and hreports hkind).mono ?_
    intro _ _ ⟨hlog, hinserts⟩
    refine ⟨hlog, ?_⟩
    intro sending hmem
    exact not_not_intro (hinserts sending hmem)
  refine logs_recover hinsert (fun _ _ hlog => hlog.1) ?_
  rintro e log ⟨hreports, hlog⟩
  split
  · exact (reports_updateOne className schema query update).mono fun _ _ hlater =>
      hlater.append hlog
  · refine logs_throw ?_
    rw [List.append_nil]
    exact hreports

end Reports

/-- A write of objects. -/
inductive Write where
  | insert (object : Object)
  | updateAll (query update : Object)
  | updateOne (query update : Object)
  | upsert (query update : Object)

namespace Write

/-- What is done for a write. -/
def run (write : Write) (className : String) (schema : Schema) : Work Unit :=
  match write with
  | insert object => do let _ ← Objects.insert className schema object
  | updateAll query update => do let _ ← Objects.updateAll className schema query update
  | updateOne query update => do let _ ← Objects.updateOne className schema query update
  | upsert query update => do let _ ← Objects.upsert className schema query update

/-- A write ends if a statement of it is refused; an upsert goes on after the refusal of its
insert. -/
def Ends : Write → Statement → Prop
  | upsert .., statement => ¬ IsInsert statement
  | _, _ => True

/-- Every write reports the refusal that ends it. -/
theorem reports_run (write : Write) (className : String) (schema : Schema) :
    Logs (Reports write.Ends) (write.run className schema) := by
  have hdiscard : ∀ {α : Type} {w : Work α}, Logs (Reports write.Ends) w →
      Logs (Reports write.Ends) (w >>= fun _ => pure PUnit.unit) :=
    fun hw => reports_bind_silent hw fun _ => logs_pure rfl
  cases write with
  | insert object => exact hdiscard (reports_insert className schema object)
  | updateAll query update => exact hdiscard (reports_updateAll className schema query update)
  | updateOne query update => exact hdiscard (reports_updateOne className schema query update)
  | upsert query update => exact hdiscard (reports_upsert className schema query update)

end Write

/-- All that is sent to keep a field unique creates an index. When the engine refuses the last
statement of a write and names this index, the write reports a duplicate of the field if and only if
the name of the index gives the field away. -/
theorem refusedWrite_names_field_iff (className field heading : String)
    (hheading : '_' ∉ heading.toList) (write : Write) (target : String) (schema : Schema)
    {s : Session} {statement : Statement} {e : Error}
    (hlast : ((write.run target schema).log s).getLast? = some (statement, .failed e))
    (hends : write.Ends statement) (hstate : e.isState .uniqueViolation)
    (hmessage : e.message = heading ++ refusal (Classes.uniqueIndexName className [field])) :
    (∀ s, ∃ outcome, (Classes.ensureUnique className [field]).log s
        = [(.table (.createUniqueIndex (Classes.uniqueIndexName className [field]) className
            [field]), outcome)]) ∧
      (((write.run target schema).run s).1 = .error (.duplicateValue (some field)) ↔
        GivesAway className field) := by
  refine ⟨fun s => (Classes.logs_ensureUnique className [field]).log s, ?_⟩
  have hreport := (write.reports_run target schema).log s statement e hlast hends hstate
  rw [hreport, ← duplicatedField?_refusal_iff className field hheading, hmessage]
  simp

/-- A class with one text field. -/
def playerWith (field : String) : Schema := { className := "Player", fields := [(field, .string)] }

/-- The engine refuses a value that an index of the class has. -/
def refused (field : String) : Error :=
  .ofEngine ("Execution Error: " ++ refusal (Classes.uniqueIndexName "Player" [field]))

/-- A field whose name is a word is reported. -/
theorem email_reported :
    let write := (Write.insert [("email", .str "a")]).run "Player" (playerWith "email")
    let s := Classes.scripted [] [.error (refused "email")]
    (∃ statement, (write.log s).getLast? = some (statement, .failed (refused "email"))) ∧
      (write.run s).1 = .error (.duplicateValue (some "email")) := by
  intro write s
  have hlast : ∃ statement, (write.log s).getLast? = some (statement, .failed (refused "email")) :=
    ⟨_, rfl⟩
  refine ⟨hlast, ?_⟩
  obtain ⟨statement, hlast⟩ := hlast
  have hstate : (refused "email").isState .uniqueViolation := isState_ofEngine_refusal _ _
  have h := refusedWrite_names_field_iff "Player" "email" "Execution Error: " (by decide)
    (Write.insert [("email", .str "a")]) "Player" (playerWith "email") hlast trivial hstate rfl
  refine h.2.mpr ⟨⟨by decide, List.all_eq_true.mp rfl⟩, ?_⟩
  intro word hword
  have hnone : lettersAfterMark? ("Player" ++ "_" ++ uniqueMark).toList = none := by decide
  exact nomatch hnone.symm.trans (lettersAfterMark?_eq_some_iff.mpr hword)

/-- Of a field with a digit in its name only the letters before the digit are reported. -/
theorem email2_reported_as_email :
    let write := (Write.insert [("email2", .str "a")]).run "Player" (playerWith "email2")
    let s := Classes.scripted [] [.error (refused "email2")]
    (Classes.ensureUnique "Player" ["email2"]).log (Classes.scripted [] [])
        = [(.table (.createUniqueIndex "Player_unique_email2" "Player" ["email2"]), .affected 1)] ∧
      (refused "email2").message = "Execution Error: " ++ refusal "Player_unique_email2" ∧
      (∃ statement, (write.log s).getLast? = some (statement, .failed (refused "email2"))) ∧
      (write.run s).1 = .error (.duplicateValue (some "email")) := by
  intro write s
  have hlast : ∃ statement, (write.log s).getLast? = some (statement, .failed (refused "email2")) :=
    ⟨_, rfl⟩
  refine ⟨rfl, rfl, hlast, ?_⟩
  obtain ⟨statement, hlast⟩ := hlast
  have hreport := (Write.reports_run (.insert [("email2", .str "a")]) "Player"
    (playerWith "email2")).log s statement _ hlast trivial (isState_ofEngine_refusal _ _)
  have hfield : duplicatedField? ("Execution Error: " ++ refusal "Player_unique_email2")
      = some "email" := by decide
  exact hreport.trans (congrArg (fun field => Except.error (Error.duplicateValue field)) hfield)

end Objects

end ObjectStore
