import SqlTemplate.Adapter

/-!
How databases read quoted text back. A reader stops at the first closing mark that is not doubled,
so what it gives for a written literal (`readLiteral_literal`) also says that no text can end its
literal early or run past it.
-/

namespace SqlTemplate

/-- Reads a quoted text whose opening mark is gone. A closing mark written twice stands for itself.
Where a backslash is special, `letters?` says what a letter after it stands for. -/
def readQuoted (closing : Char) (letters? : Option (Char → Option Char)) :
    List Char → Option (List Char × List Char)
  | [] => none
  | [c] => if c = closing then some ([], []) else none
  | c :: d :: rest =>
    if c = closing then
      if d = closing then (readQuoted closing letters? rest).map (Prod.map (closing :: ·) id)
      else some ([], d :: rest)
    else
      match letters?, decide (c = '\\') with
      | some letters, true => do
        let e ← letters d
        (readQuoted closing letters? rest).map (Prod.map (e :: ·) id)
      | _, _ => (readQuoted closing letters? (d :: rest)).map (Prod.map (c :: ·) id)

/-- In an `E` literal of PostgreSQL, as far as it is needed here. -/
def escapedLetter? : Char → Option Char
  | '\\' => some '\\'
  | _ => none

/-- In a literal of MySQL. -/
def mysqlLetter? : Char → Option Char
  | '0' => some '\x00'
  | 'b' => some '\x08'
  | 't' => some '\t'
  | 'n' => some '\n'
  | 'r' => some '\r'
  | 'Z' => some '\x1a'
  | '"' => some '"'
  | '\'' => some '\''
  | '\\' => some '\\'
  | _ => none

/-- Reads a text literal as a database of the dialect does: its text, and what follows it. -/
def Dialect.readLiteral : Dialect → List Char → Option (List Char × List Char)
  | .postgres, 'E' :: '\'' :: cs => readQuoted '\'' (some escapedLetter?) cs
  | .mysql, '\'' :: cs => readQuoted '\'' (some mysqlLetter?) cs
  | .mysql, _ => none
  | _, '\'' :: cs => readQuoted '\'' none cs
  | _, _ => none

/-! ### Spellings -/

/-- A reader takes the spelling for the character, whatever follows. -/
def Spells (closing : Char) (letters? : Option (Char → Option Char)) (spelling : List Char)
    (c : Char) : Prop :=
  ∀ rest, readQuoted closing letters? (spelling ++ rest) =
    (readQuoted closing letters? rest).map (Prod.map (c :: ·) id)

variable {closing : Char} {letters? : Option (Char → Option Char)}

theorem spells_doubled : Spells closing letters? [closing, closing] closing := by
  intro rest
  simp [readQuoted]

theorem spells_self {c : Char} (hclosing : c ≠ closing) (hplain : letters? = none ∨ c ≠ '\\') :
    Spells closing letters? [c] c := by
  intro rest
  cases rest with
  | nil => simp [readQuoted, hclosing]
  | cons d rest =>
    obtain rfl | hc := hplain
    · simp [readQuoted, hclosing]
    · cases letters? <;> simp [readQuoted, hclosing, hc]

theorem spells_letter {letters : Char → Option Char} {letter c : Char} (hclosing : closing ≠ '\\')
    (hletter : letters letter = some c) : Spells closing (some letters) ['\\', letter] c := by
  intro rest
  simp [readQuoted, Ne.symm hclosing, hletter]

/-- A text that is spelled character by character is read back up to its closing mark. -/
theorem readQuoted_flatMap {spelling : Char → List Char} {cs rest : List Char}
    (hspells : ∀ c ∈ cs, Spells closing letters? (spelling c) c)
    (hrest : rest.head? ≠ some closing) :
    readQuoted closing letters? (cs.flatMap spelling ++ closing :: rest) = some (cs, rest) := by
  induction cs with
  | nil =>
    cases rest with
    | nil => simp [readQuoted]
    | cons d rest =>
      have hd : d ≠ closing := fun heq => hrest (by rw [heq]; rfl)
      simp [readQuoted, hd]
  | cons c cs ih =>
    rw [List.flatMap_cons, List.append_assoc, hspells c List.mem_cons_self,
      ih fun d hd => hspells d (List.mem_cons_of_mem _ hd)]
    rfl

/-! ### The writers -/

theorem doubled_eq_flatMap (mark : Char) (cs : List Char) :
    doubled mark cs = cs.flatMap fun c => doubled mark [c] := by
  induction cs with
  | nil => rfl
  | cons c cs ih =>
    rw [List.flatMap_cons, ← ih]
    by_cases hc : c = mark <;> simp [doubled, hc]

theorem doubled_append (mark : Char) (cs ds : List Char) :
    doubled mark (cs ++ ds) = doubled mark cs ++ doubled mark ds := by
  rw [doubled_eq_flatMap, List.flatMap_append, ← doubled_eq_flatMap, ← doubled_eq_flatMap]

theorem doubled_doubled_eq_flatMap (outer inner : Char) (cs : List Char) :
    doubled outer (doubled inner cs) = cs.flatMap fun c => doubled outer (doubled inner [c]) := by
  induction cs with
  | nil => rfl
  | cons c cs ih =>
    rw [List.flatMap_cons, ← ih, ← doubled_append, ← doubled_append]
    rfl

theorem backslashed_eq_flatMap (cs : List Char) :
    backslashed cs = cs.flatMap fun c => backslashed [c] := by
  induction cs with
  | nil => rfl
  | cons c cs ih =>
    rw [List.flatMap_cons, ← ih]
    cases hletter : backslashLetter? c <;> simp [backslashed, hletter]

theorem spells_doubled_singleton (closing c : Char) :
    Spells closing none (doubled closing [c]) c := by
  by_cases hc : c = closing
  · subst hc
    simpa [doubled] using spells_doubled
  · simpa [doubled, hc] using spells_self hc (.inl rfl)

theorem spells_doubled_backslash (c : Char) :
    Spells '\'' (some escapedLetter?) (doubled '\'' (doubled '\\' [c])) c := by
  by_cases hquote : c = '\''
  · subst hquote
    exact spells_doubled
  by_cases hbackslash : c = '\\'
  · subst hbackslash
    exact spells_letter (by decide) rfl
  · simpa [doubled, hquote, hbackslash] using spells_self hquote (.inr hbackslash)

theorem mysqlLetter?_of_backslashLetter? {c letter : Char} (h : backslashLetter? c = some letter) :
    mysqlLetter? letter = some c := by
  unfold backslashLetter? at h
  split at h <;> cases h <;> rfl

theorem spells_backslashed (c : Char) : Spells '\'' (some mysqlLetter?) (backslashed [c]) c := by
  cases hletter : backslashLetter? c with
  | some letter =>
    simpa [backslashed, hletter] using
      spells_letter (by decide) (mysqlLetter?_of_backslashLetter? hletter)
  | none =>
    have hquote : c ≠ '\'' := by
      rintro rfl
      cases hletter
    have hbackslash : c ≠ '\\' := by
      rintro rfl
      cases hletter
    simpa [backslashed, hletter] using spells_self hquote (.inr hbackslash)

theorem readQuoted_doubled (closing : Char) {cs rest : List Char}
    (hrest : rest.head? ≠ some closing) :
    readQuoted closing none (doubled closing cs ++ closing :: rest) = some (cs, rest) := by
  rw [doubled_eq_flatMap]
  exact readQuoted_flatMap (fun c _ => spells_doubled_singleton closing c) hrest

theorem readQuoted_doubled_backslashes {cs rest : List Char} (hrest : rest.head? ≠ some '\'') :
    readQuoted '\'' (some escapedLetter?) (doubled '\'' (doubled '\\' cs) ++ '\'' :: rest) =
      some (cs, rest) := by
  rw [doubled_doubled_eq_flatMap]
  exact readQuoted_flatMap (fun c _ => spells_doubled_backslash c) hrest

theorem readQuoted_backslashed {cs rest : List Char} (hrest : rest.head? ≠ some '\'') :
    readQuoted '\'' (some mysqlLetter?) (backslashed cs ++ '\'' :: rest) = some (cs, rest) := by
  rw [backslashed_eq_flatMap]
  exact readQuoted_flatMap (fun c _ => spells_backslashed c) hrest

namespace Dialect

theorem readLiteral_textLiteral (d : Dialect) (cs : List Char) {rest : List Char}
    (hrest : rest.head? ≠ some '\'') :
    d.readLiteral (d.textLiteral cs ++ rest) = some (cs, rest) := by
  cases d with
  | postgres =>
    by_cases hbackslash : '\\' ∈ cs
    · simpa [textLiteral, hbackslash, quoted, readLiteral] using
        readQuoted_doubled_backslashes hrest
    · simpa [textLiteral, hbackslash, quoted, readLiteral] using readQuoted_doubled '\'' hrest
  | mysql => simpa [textLiteral, readLiteral] using readQuoted_backslashed hrest
  | sqlite | mssql => simpa [textLiteral, quoted, readLiteral] using readQuoted_doubled '\'' hrest

/-- Every dialect reads its literal of a text back, to the last character and no further, and has
different literals for different texts. -/
theorem readLiteral_literal (d : Dialect) :
    (∀ (s : String) (rest : List Char), rest.head? ≠ some '\'' →
      d.readLiteral ((d.adapter.literal (.text s)).toList ++ rest) = some (s.toList, rest)) ∧
    ∀ s s' : String, d.adapter.literal (.text s) = d.adapter.literal (.text s') → s = s' := by
  have hread : ∀ (s : String) (rest : List Char), rest.head? ≠ some '\'' →
      d.readLiteral ((d.adapter.literal (.text s)).toList ++ rest) = some (s.toList, rest) := by
    intro s rest hrest
    have hliteral : (d.adapter.literal (.text s)).toList = d.textLiteral s.toList :=
      String.toList_ofList
    rw [hliteral, d.readLiteral_textLiteral s.toList hrest]
  refine ⟨hread, fun s s' heq => ?_⟩
  have hs := hread s [] (by simp)
  rw [heq, hread s' [] (by simp)] at hs
  exact String.toList_inj.mp (congrArg Prod.fst (Option.some.inj hs)).symm

theorem readLiteral_literal_trailing_backslash :
    Dialect.mysql.readLiteral
        ((Dialect.mysql.adapter.literal (.text "it's\\")).toList ++ [',', '\'']) =
      some ("it's\\".toList, [',', '\'']) := by
  exact (readLiteral_literal .mysql).1 "it's\\" [',', '\''] (by decide)

end Dialect

end SqlTemplate
