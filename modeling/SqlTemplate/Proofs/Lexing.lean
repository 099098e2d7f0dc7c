import Mathlib.Data.Fintype.Sum
import Mathlib.Tactic.DeriveFintype
import SqlTemplate.Proofs.Literals

/-!
How a database tells code from strings, quoted names and comments, character by character. A literal
of PostgreSQL leads from code back into code wherever it does not join what stands before it
(`Shape.isSettled_run`). The joins are a sign after a dash and a quote after a quote.
-/

namespace SqlTemplate.Lexer

/-- What the lexer tells apart among the characters. -/
inductive Kind where
  | quote
  | doubleQuote
  | dash
  | backslash
  | lineEnd
  /-- An `E` of either case: it makes the string after it one with escapes. -/
  | escape
  | word
  | other
deriving DecidableEq, Repr

instance : Fintype Kind where
  elems := {.quote, .doubleQuote, .dash, .backslash, .lineEnd, .escape, .word, .other}
  complete k := by cases k <;> decide

def isWordChar (c : Char) : Bool := c.isAlphanum || c == '_' || c == '$' || 128 ≤ c.toNat

def Kind.of (c : Char) : Kind :=
  if c = '\'' then .quote
  else if c = '"' then .doubleQuote
  else if c = '-' then .dash
  else if c = 'E' ∨ c = 'e' then .escape
  else if c = '\\' then .backslash
  else if c = '\n' ∨ c = '\r' then .lineEnd
  else if isWordChar c then .word
  else .other

/-- Where the lexer is. -/
inductive Mode where
  | code
  /-- In a word or a number. -/
  | word
  /-- After an `E` that begins a word, or else a string. -/
  | escape
  /-- After a dash, which another one makes a comment. -/
  | dash
  | string (escapes : Bool)
  | backslash
  /-- After a quote that closes a string, unless another one follows. -/
  | quote (escapes : Bool)
  | name
  | comment
deriving DecidableEq, Fintype, Repr

namespace Mode

/-- What a character begins in code. -/
def start : Kind → Mode
  | .quote => .string false
  | .doubleQuote => .name
  | .dash => .dash
  | .escape => .escape
  | .word => .word
  | .backslash | .lineEnd | .other => .code

/-- Reads one character. The `E` of an escape string stands at the start of a word, so one inside a
word is a letter like any other. -/
def next : Mode → Kind → Mode
  | .word, .word | .word, .escape | .escape, .word | .escape, .escape => .word
  | .escape, .quote => .string true
  | .dash, .dash => .comment
  | .string true, .backslash => .backslash
  | .string escapes, .quote => .quote escapes
  | .string escapes, _ => .string escapes
  | .backslash, _ => .string true
  | .quote escapes, .quote => .string escapes
  | .name, .doubleQuote => .code
  | .name, _ => .name
  | .comment, .lineEnd => .code
  | .comment, _ => .comment
  | .code, k | .word, k | .escape, k | .dash, k | .quote _, k => start k

def isQuote : Mode → Bool
  | .quote _ => true
  | _ => false

/-- In code, or after a quote that may have closed a string. -/
def isOutside : Mode → Bool
  | .code | .word | .escape | .dash | .quote _ => true
  | .string _ | .backslash | .name | .comment => false

/-- The lexer is in plain code where this is the rest of the text. -/
def InCode (m : Mode) (rest : List Char) : Prop :=
  m.isOutside = true ∧ (m.isQuote = true → rest.head? ≠ some '\'')

instance (m : Mode) (rest : List Char) : Decidable (m.InCode rest) :=
  inferInstanceAs (Decidable (_ ∧ _))

/-- Where literals end. -/
def isSettled : Mode → Bool
  | .code | .word | .quote _ => true
  | .escape | .dash | .string _ | .backslash | .name | .comment => false

/-- In a word, of which so far there may be no more than an `E`. -/
def isInWord : Mode → Bool
  | .word | .escape => true
  | .code | .dash | .string _ | .backslash | .quote _ | .name | .comment => false

/-! ### Single steps -/

variable {m m' : Mode} {k : Kind}

theorem isOutside_of_isSettled : m.isSettled = true → m.isOutside = true := by
  revert m
  decide

theorem isOutside_of_isInWord : m.isInWord = true → m.isOutside = true := by
  revert m
  decide

theorem eq_dash_of_next_eq : m.next k = .dash → k = .dash := by
  revert m k
  decide

theorem eq_quote_of_isQuote_next : (m.next k).isQuote = true → k = .quote := by
  revert m k
  decide

theorem next_dash_of_isOutside : (m.next .dash).isOutside = true → m.next .dash = .dash := by
  revert m
  decide

theorem isQuote_next_quote_of_isOutside :
    (m.next .quote).isOutside = true → (m.next .quote).isQuote = true := by
  revert m
  decide

theorem next_string {escapes : Bool} :
    k ≠ .quote → (k = .backslash → escapes = false) →
      (string escapes).next k = .string escapes := by
  revert escapes k
  decide

/-- A quote opens a string in code, unless it meets one that was about to close another string. -/
theorem exists_next_quote : m.isOutside = true → m.isQuote = false →
    ∃ escapes, m.next .quote = .string escapes := by
  revert m
  decide

theorem exists_next_quote_of_isInWord :
    m.isInWord = true → ∃ escapes, m.next .quote = .string escapes := by
  revert m
  decide

theorem isOutside_next_dash : m.isOutside = true → m ≠ .dash → (m.next .dash).isOutside = true := by
  revert m
  decide

theorem isInWord_next_escape : m.isOutside = true → (m.next .escape).isInWord = true := by
  revert m
  decide

theorem isSettled_next_of_isOutside :
    m.isOutside = true → k = .word ∨ k = .other → (m.next k).isSettled = true := by
  revert m k
  decide

/-- From where literals end, it goes on in one way but for an `E`, which may belong to a word. -/
theorem next_eq_next_of_isSettled :
    m.isSettled = true → m'.isSettled = true → k ≠ .escape →
      (k = .quote → m.isQuote = false ∧ m'.isQuote = false) → m.next k = m'.next k := by
  revert m m' k
  decide

theorem next_eq_next_of_isInWord :
    m.isInWord = true → m'.isInWord = true → k ≠ .quote → m.next k = m'.next k := by
  revert m m' k
  decide

end Mode

namespace Kind

variable {c : Char}

theorem of_eq_quote_iff : Kind.of c = .quote ↔ c = '\'' := by
  grind [Kind.of]

theorem of_eq_dash_iff : Kind.of c = .dash ↔ c = '-' := by
  grind [Kind.of]

theorem of_eq_backslash_iff : Kind.of c = .backslash ↔ c = '\\' := by
  grind [Kind.of]

theorem of_eq_escape_iff : Kind.of c = .escape ↔ c = 'E' ∨ c = 'e' := by
  grind [Kind.of]

theorem of_numeral (h : c.isDigit = true ∨ c = '.') :
    Kind.of c = .word ∨ Kind.of c = .other := by
  obtain hdigit | rfl := h
  · have hword : isWordChar c = true := by simp [isWordChar, Char.isAlphanum, hdigit]
    have hne : ∀ d : Char, d.isDigit = false → c ≠ d := by
      rintro d hd rfl
      rw [hdigit] at hd
      cases hd
    left
    simp [Kind.of, hword, hne]
  · exact .inr rfl

end Kind

/-! ### Runs -/

def run (m : Mode) (cs : List Char) : Mode := cs.foldl (fun m c => m.next (.of c)) m

variable {m : Mode} {cs : List Char}

theorem run_append (m : Mode) (cs ds : List Char) : run m (cs ++ ds) = run (run m cs) ds :=
  List.foldl_append

theorem run_cons (m : Mode) (c : Char) (cs : List Char) :
    run m (c :: cs) = run (m.next (.of c)) cs :=
  rfl

theorem run_singleton (m : Mode) (c : Char) : run m [c] = m.next (.of c) := rfl

theorem run_concat (m : Mode) (cs : List Char) (c : Char) :
    run m (cs ++ [c]) = (run m cs).next (.of c) :=
  run_append m cs [c]

theorem run_flatMap {spelling : Char → List Char} (h : ∀ c ∈ cs, run m (spelling c) = m) :
    run m (cs.flatMap spelling) = m := by
  induction cs with
  | nil => rfl
  | cons c cs ih =>
    rw [List.flatMap_cons, run_append, h c List.mem_cons_self,
      ih fun d hd => h d (List.mem_cons_of_mem c hd)]

/-! ### The last character -/

theorem getLast?_of_run_eq_dash (h : run .code cs = .dash) : cs.getLast? = some '-' := by
  induction cs using List.reverseRecOn with
  | nil => cases h
  | append_singleton cs c _ =>
    rw [run_concat] at h
    rw [List.getLast?_concat, Kind.of_eq_dash_iff.mp (Mode.eq_dash_of_next_eq h)]

theorem getLast?_of_isQuote_run (h : (run .code cs).isQuote = true) :
    cs.getLast? = some '\'' := by
  induction cs using List.reverseRecOn with
  | nil => cases h
  | append_singleton cs c _ =>
    rw [run_concat] at h
    rw [List.getLast?_concat, Kind.of_eq_quote_iff.mp (Mode.eq_quote_of_isQuote_next h)]

theorem run_eq_dash_of_getLast? (hlast : cs.getLast? = some '-')
    (houtside : (run m cs).isOutside = true) : run m cs = .dash := by
  obtain ⟨cs, rfl⟩ := List.getLast?_eq_some_iff.mp hlast
  rw [run_concat] at houtside ⊢
  exact Mode.next_dash_of_isOutside houtside

theorem isQuote_run_of_getLast? (hlast : cs.getLast? = some '\'')
    (houtside : (run m cs).isOutside = true) : (run m cs).isQuote = true := by
  obtain ⟨cs, rfl⟩ := List.getLast?_eq_some_iff.mp hlast
  rw [run_concat] at houtside ⊢
  exact Mode.isQuote_next_quote_of_isOutside houtside

/-! ### The shapes of literals -/

/-- The digits of a number, and its point. -/
def IsNumeral (cs : List Char) : Prop := cs ≠ [] ∧ ∀ c ∈ cs, c.isDigit = true ∨ c = '.'

/-- What the literals of PostgreSQL look like. -/
inductive Shape : List Char → Prop where
  | keyword {cs : List Char} (h : cs ∈ ["NULL".toList, "TRUE".toList, "FALSE".toList]) : Shape cs
  | numeral {cs : List Char} (h : IsNumeral cs) : Shape cs
  | negative {cs : List Char} (h : IsNumeral cs) : Shape ('-' :: cs)
  | plain {cs : List Char} (h : '\\' ∉ cs) : Shape (quoted '\'' '\'' cs)
  | escaped (cs : List Char) : Shape ('E' :: quoted '\'' '\'' (doubled '\\' cs))

theorem isNumeral_toDigits (n : Nat) : IsNumeral (Nat.toDigits 10 n) :=
  ⟨Nat.toDigits_ne_nil, fun _ hc => .inl (Nat.isDigit_of_mem_toDigits (by decide) (by decide) hc)⟩

theorem isNumeral_pointed {digits : List Char} (hdigits : ∀ c ∈ digits, c.isDigit = true)
    (point : Int) : IsNumeral (Layout.sql.pointed digits point) := by
  have hzeros : ∀ n, ∀ c ∈ List.replicate n '0', c.isDigit = true := by
    intro n c hc
    rw [List.eq_of_mem_replicate hc]
    rfl
  unfold Layout.pointed
  split
  · refine ⟨List.cons_ne_nil _ _, List.forall_mem_cons.mpr ⟨.inl rfl, ?_⟩⟩
    refine List.forall_mem_cons.mpr ⟨.inr rfl, List.forall_mem_append.mpr ⟨?_, ?_⟩⟩
    · exact fun c hc => .inl (hzeros _ c hc)
    · exact fun c hc => .inl (hdigits c hc)
  · split
    · next hpoint hlength =>
      have hend : Layout.sql.wholeEnd.toList = [] := rfl
      rw [hend, List.append_nil]
      constructor
      · intro hnil
        have hlength := congrArg List.length hnil
        simp only [List.length_append, List.length_replicate, List.length_nil] at hlength
        omega
      · refine List.forall_mem_append.mpr ⟨?_, ?_⟩
        · exact fun c hc => .inl (hdigits c hc)
        · exact fun c hc => .inl (hzeros _ c hc)
    · refine ⟨List.append_ne_nil_of_right_ne_nil _ (List.cons_ne_nil _ _), ?_⟩
      refine List.forall_mem_append.mpr ⟨?_, List.forall_mem_cons.mpr ⟨.inr rfl, ?_⟩⟩
      · exact fun c hc => .inl (hdigits c (List.mem_of_mem_take hc))
      · exact fun c hc => .inl (hdigits c (List.mem_of_mem_drop hc))

theorem isNumeral_decimal (d : Decimal) : IsNumeral (Layout.sql.decimal d) := by
  have hdigits : ∀ c ∈ ((Nat.toDigits 10 d.coefficient).reverse.dropWhile (· == '0')).reverse,
      c.isDigit = true := by
    intro c hc
    have hmem := (List.dropWhile_sublist _).subset (List.mem_reverse.mp hc)
    exact Nat.isDigit_of_mem_toDigits (by decide) (by decide) (List.mem_reverse.mp hmem)
  exact isNumeral_pointed hdigits _

/-- A numeral, after a minus sign if it is negative. -/
def IsSigned (cs : List Char) : Prop := IsNumeral cs ∨ ∃ ds, cs = '-' :: ds ∧ IsNumeral ds

theorem toList_toString_ofNat (n : Nat) :
    (toString (Int.ofNat n)).toList = Nat.toDigits 10 n :=
  String.toList_ofList

theorem toList_toString_negSucc (n : Nat) :
    (toString (Int.negSucc n)).toList = '-' :: Nat.toDigits 10 (n + 1) := by
  change ("-" ++ (n + 1).repr).toList = _
  rw [String.toList_append, Nat.repr_eq_ofList_toDigits, String.toList_ofList, String.toList_ofList]
  rfl

theorem isSigned_int (n : Int) : IsSigned (toString n).toList := by
  cases n with
  | ofNat n =>
    rw [toList_toString_ofNat]
    exact .inl (isNumeral_toDigits n)
  | negSucc n =>
    rw [toList_toString_negSucc]
    exact .inr ⟨_, rfl, isNumeral_toDigits (n + 1)⟩

theorem isSigned_finite {x : Binary64} (hfinite : x.isFinite = true) : IsSigned x.text.toList := by
  have htext : x.text = Layout.sql.text x := by
    simp only [Binary64.isFinite, decide_eq_true_eq] at hfinite
    have hnan : x.isNaN = false := decide_eq_false (by omega)
    have hinfinite : x.isInfinite = false := beq_false_of_ne (by omega)
    rw [Binary64.text, hnan, hinfinite]
    rfl
  have hunsigned : IsNumeral (if x.magnitude = 0 then '0' :: Layout.sql.wholeEnd.toList
      else Layout.sql.decimal (x.shortest Layout.sql.tie)) := by
    split
    · exact isNumeral_toDigits 0
    · exact isNumeral_decimal _
  rw [htext, Layout.text, String.toList_ofList]
  split
  · exact .inr ⟨_, rfl, hunsigned⟩
  · exact .inl hunsigned

theorem IsSigned.shape (h : IsSigned cs) : Shape cs := by
  obtain h | ⟨ds, rfl, h⟩ := h
  · exact .numeral h
  · exact .negative h

theorem shape_float (x : Binary64) : Shape (Dialect.postgres.floatLiteral x).toList := by
  unfold Dialect.floatLiteral
  split
  · next hfinite => exact (isSigned_finite hfinite).shape
  · rw [if_pos rfl]
    split
    · exact @Shape.plain "NaN".toList (by decide)
    · split
      · exact @Shape.plain "-Infinity".toList (by decide)
      · exact @Shape.plain "Infinity".toList (by decide)

theorem Shape.ne_nil (h : Shape cs) : cs ≠ [] := by
  cases h with
  | keyword h =>
    rintro rfl
    revert h
    decide
  | numeral h => exact h.1
  | negative _ | plain _ | escaped _ => exact List.cons_ne_nil _ _

theorem shape_text (cs : List Char) : Shape (Dialect.postgres.textLiteral cs) := by
  by_cases hbackslash : '\\' ∈ cs
  · simpa [Dialect.textLiteral, hbackslash] using Shape.escaped cs
  · simpa [Dialect.textLiteral, hbackslash] using Shape.plain hbackslash

theorem shape_literal (s : Scalar) : Shape (Dialect.postgres.adapter.literal s).toList := by
  cases s with
  | null => exact .keyword (by decide)
  | bool b => cases b <;> exact .keyword (by decide)
  | int n => exact (isSigned_int n).shape
  | float x => exact shape_float x
  | text s =>
    have htext : (Dialect.postgres.adapter.literal (.text s)).toList =
        Dialect.postgres.textLiteral s.toList := String.toList_ofList
    rw [htext]
    exact shape_text s.toList

/-! ### Reading literals -/

theorem isSettled_run_numeral (hnumeral : IsNumeral cs) (houtside : m.isOutside = true) :
    (run m cs).isSettled = true := by
  obtain ⟨hne, hcs⟩ := hnumeral
  induction cs using List.reverseRecOn with
  | nil => exact absurd rfl hne
  | append_singleton cs c ih =>
    have hkind : Kind.of c = .word ∨ Kind.of c = .other := Kind.of_numeral (hcs c (by simp))
    have hbefore : (run m cs).isOutside = true := by
      obtain rfl | hne := eq_or_ne cs []
      · exact houtside
      · exact Mode.isOutside_of_isSettled (ih hne fun d hd => hcs d (by simp [hd]))
    rw [run_concat]
    exact Mode.isSettled_next_of_isOutside hbefore hkind

theorem run_comment_numeral (hcs : ∀ c ∈ cs, c.isDigit = true ∨ c = '.') :
    run .comment cs = .comment := by
  induction cs with
  | nil => rfl
  | cons c cs ih =>
    obtain ⟨hc, hcs⟩ := List.forall_mem_cons.mp hcs
    have hnext : Mode.comment.next (.of c) = .comment := by
      obtain hkind | hkind := Kind.of_numeral hc <;> rw [hkind] <;> rfl
    rw [run_cons, hnext, ih hcs]

theorem isSettled_run_keyword (h : cs ∈ ["NULL".toList, "TRUE".toList, "FALSE".toList])
    (houtside : m.isOutside = true) : (run m cs).isSettled = true := by
  revert m cs
  decide

/-- In a string there is no way out at quotes that are doubled. -/
theorem run_doubled_quotes {escapes : Bool} (h : '\\' ∈ cs → escapes = false) :
    run (.string escapes) (doubled '\'' cs) = .string escapes := by
  rw [doubled_eq_flatMap]
  refine run_flatMap fun c hc => ?_
  by_cases hquote : c = '\''
  · subst hquote
    cases escapes <;> rfl
  · have hsingle : doubled '\'' [c] = [c] := if_neg hquote
    rw [hsingle, run_singleton]
    apply Mode.next_string
    · exact fun hkind => hquote (Kind.of_eq_quote_iff.mp hkind)
    · intro hkind
      rw [Kind.of_eq_backslash_iff.mp hkind] at hc
      exact h hc

/-- Nor at backslashes, when they are doubled as well. -/
theorem run_doubled_backslashes (escapes : Bool) (cs : List Char) :
    run (.string escapes) (doubled '\'' (doubled '\\' cs)) = .string escapes := by
  rw [doubled_doubled_eq_flatMap]
  refine run_flatMap fun c hc => ?_
  by_cases hbackslash : c = '\\'
  · subst hbackslash
    cases escapes <;> rfl
  · have hsingle : doubled '\\' [c] = [c] := if_neg hbackslash
    rw [hsingle]
    exact run_doubled_quotes fun hmem => absurd (List.mem_singleton.mp hmem).symm hbackslash

theorem run_quoted {escapes : Bool} {body : List Char}
    (hopens : m.next .quote = .string escapes)
    (hbody : run (.string escapes) (doubled '\'' body) = .string escapes) :
    run m (quoted '\'' '\'' body) = .quote escapes := by
  have hclosed : run (.string escapes) ['\''] = .quote escapes := by cases escapes <;> rfl
  rw [quoted, run_cons, Kind.of_eq_quote_iff.mpr rfl, hopens, run_append, hbody, hclosed]

/-- A literal that joins nothing before it leads from code back into code. -/
theorem Shape.isSettled_run (h : Shape cs) (houtside : m.isOutside = true)
    (hdash : m = .dash → cs.head? ≠ some '-') (hquote : m.isQuote = true → cs.head? ≠ some '\'') :
    (run m cs).isSettled = true := by
  cases h with
  | keyword h => exact isSettled_run_keyword h houtside
  | numeral h => exact isSettled_run_numeral h houtside
  | negative h =>
    have hnext := Mode.isOutside_next_dash houtside fun heq => hdash heq rfl
    rw [run_cons]
    exact isSettled_run_numeral h hnext
  | plain h =>
    obtain ⟨escapes, hopens⟩ :=
      Mode.exists_next_quote houtside (Bool.eq_false_iff.mpr fun heq => hquote heq rfl)
    rw [run_quoted hopens (run_doubled_quotes fun hmem => absurd hmem h)]
    rfl
  | escaped body =>
    obtain ⟨escapes, hopens⟩ := Mode.exists_next_quote_of_isInWord
      (Mode.isInWord_next_escape houtside)
    rw [run_cons, Kind.of_eq_escape_iff.mpr (.inl rfl),
      run_quoted hopens (run_doubled_backslashes escapes body)]
    rfl

/-- A sign after a dash makes a comment of the rest of the number. -/
theorem Shape.run_dash (h : Shape cs) (hhead : cs.head? = some '-') : run .dash cs = .comment := by
  cases h with
  | keyword h =>
    have hkeywords : ∀ cs ∈ ["NULL".toList, "TRUE".toList, "FALSE".toList],
        cs.head? ≠ some '-' := by decide
    exact absurd hhead (hkeywords cs h)
  | numeral h => exact absurd (h.2 '-' (List.mem_of_mem_head? hhead)) (by decide)
  | negative h =>
    rw [run_cons, Kind.of_eq_dash_iff.mpr rfl]
    exact run_comment_numeral h.2
  | plain _ | escaped _ => cases hhead

end SqlTemplate.Lexer
