import SqlTemplate.Proofs.Lexing
import SqlTemplate.Rendering

/-!
How a reader splits SQL text at its commas. Text in quotation marks is skipped, and between two
parentheses that belong together no comma counts. A text `d.IsElement` if the reader keeps it in one
piece wherever it stands. All literals are elements, and so is a tuple of elements
(`isElement_parenthesized`), so whatever is joined from elements is split into them again
(`elements?_joined`, `tuple?_parenthesized`).
-/

namespace SqlTemplate

/-! ### The reader -/

/-- What stands between commas, up to the parenthesis that ends the list or to the end of the text. -/
structure Reading where
  elements : List (List Char)
  /-- What follows the closing parenthesis, if there is one. -/
  after : Option (List Char)

namespace Reading

/-- The same with more text before its first element. -/
def prepend (cs : List Char) (r : Reading) : Reading :=
  { r with elements := r.elements.modifyHead (cs ++ ·) }

/-- The same after an empty element. -/
def next (r : Reading) : Reading := { r with elements := [] :: r.elements }

/-- The elements without the spaces before them. Where nothing stands at all, there are none. -/
def trimmed (r : Reading) : List (List Char) :=
  if r.elements = [[]] then [] else r.elements.map (·.dropWhile (· = ' '))

@[simp]
theorem prepend_nil (r : Reading) : r.prepend [] = r := by
  obtain ⟨_ | ⟨_, _⟩, _⟩ := r <;> rfl

@[simp]
theorem prepend_prepend (cs ds : List Char) (r : Reading) :
    (r.prepend ds).prepend cs = r.prepend (cs ++ ds) := by
  obtain ⟨_ | ⟨_, _⟩, _⟩ := r <;> simp [prepend]

end Reading

namespace Dialect

/-- Reads a name in quotation marks: the name, and what follows it. -/
def readQuotedName : Dialect → List Char → Option (List Char × List Char)
  | .postgres, '"' :: cs | .sqlite, '"' :: cs => readQuoted '"' none cs
  | .mysql, '\x60' :: cs => readQuoted '\x60' none cs
  | .mssql, '[' :: cs => readQuoted ']' none cs
  | _, _ => none

def readQuotation (d : Dialect) (cs : List Char) : Option (List Char × List Char) :=
  (d.readLiteral cs).or (d.readQuotedName cs)

/-- The number of characters that are skipped after one: the rest of a quotation that it begins. -/
def skipped (d : Dialect) (c : Char) (cs : List Char) : Nat :=
  match d.readQuotation (c :: cs) with
  | some (_, rest) => cs.length - rest.length
  | none => 0

/-- The number of open parentheses after a character. -/
def depthAfter (depth : Nat) (c : Char) : Nat :=
  if c = '(' then depth + 1 else if c = ')' then depth - 1 else depth

/-- Splits at the commas outside of quotations and parentheses. A parenthesis that was not opened ends
the list. -/
def read (d : Dialect) (depth : Nat) : List Char → Reading
  | [] => ⟨[[]], none⟩
  | c :: cs =>
    if depth = 0 ∧ c = ')' then ⟨[[]], some cs⟩
    else if depth = 0 ∧ c = ',' then (d.read 0 cs).next
    else
      (d.read (depthAfter depth c) (cs.drop (d.skipped c cs))).prepend
        (c :: cs.take (d.skipped c cs))
termination_by cs => cs.length
decreasing_by
  · simp
  · rw [List.length_drop, List.length_cons]
    omega

/-- The elements of a list without parentheses around it. -/
def elements? (d : Dialect) (cs : List Char) : Option (List (List Char)) :=
  if (d.read 0 cs).after = none then some (d.read 0 cs).trimmed else none

/-- The elements of a tuple. Its closing parenthesis is the last character. -/
def tuple? (d : Dialect) : List Char → Option (List (List Char))
  | '(' :: cs => if (d.read 0 cs).after = some [] then some (d.read 0 cs).trimmed else none
  | _ => none

/-! ### Single steps -/

variable {d : Dialect} {depth : Nat} {c : Char} {cs ds rest : List Char}

theorem read_nil : d.read depth [] = ⟨[[]], none⟩ := by rw [read]

theorem read_closing : d.read 0 (')' :: cs) = ⟨[[]], some cs⟩ := by
  rw [read]
  rfl

theorem read_comma : d.read 0 (',' :: cs) = (d.read 0 cs).next := by
  rw [read]
  rfl

theorem read_skipping (hinside : 0 < depth ∨ c ≠ ')' ∧ c ≠ ',') :
    d.read depth (c :: cs) =
      (d.read (depthAfter depth c) (cs.drop (d.skipped c cs))).prepend
        (c :: cs.take (d.skipped c cs)) := by
  rw [read, if_neg, if_neg]
  · rintro ⟨rfl, hc⟩
    simp [hc] at hinside
  · rintro ⟨rfl, hc⟩
    simp [hc] at hinside

theorem read_quotation {text : List Char} (hc : c ∉ ['(', ')', ','])
    (hquotation : d.readQuotation (c :: (cs ++ rest)) = some (text, rest)) :
    d.read depth (c :: (cs ++ rest)) = (d.read depth rest).prepend (c :: cs) := by
  simp only [List.mem_cons, List.not_mem_nil, or_false, not_or] at hc
  obtain ⟨hopening, hclosing, hcomma⟩ := hc
  have hskipped : d.skipped c (cs ++ rest) = cs.length := by
    rw [skipped, hquotation]
    simp
  have hdepth : depthAfter depth c = depth := by rw [depthAfter, if_neg hopening, if_neg hclosing]
  rw [read_skipping (.inr ⟨hclosing, hcomma⟩), hskipped, hdepth, List.drop_left, List.take_left]

/-- The characters that begin a quotation, but for the `E` of an escape string. -/
def quotationMarks : List Char := ['\'', '"', '\x60', '[']

theorem readQuotation_eq_none (hc : c ∉ quotationMarks)
    (hescape : c ≠ 'E' ∨ cs.head? ≠ some '\'') : d.readQuotation (c :: cs) = none := by
  simp only [quotationMarks, List.mem_cons, List.not_mem_nil, or_false, not_or] at hc
  obtain ⟨hquote, hdouble, hback, hbracket⟩ := hc
  have hliteral : d.readLiteral (c :: cs) = none := by
    unfold readLiteral
    split <;> simp_all
  have hname : d.readQuotedName (c :: cs) = none := by
    unfold readQuotedName
    split <;> simp_all
  rw [readQuotation, hliteral, hname]
  rfl

theorem read_single (hinside : 0 < depth ∨ c ≠ ')' ∧ c ≠ ',') (hc : c ∉ quotationMarks)
    (hescape : c ≠ 'E' ∨ cs.head? ≠ some '\'') :
    d.read depth (c :: cs) = (d.read (depthAfter depth c) cs).prepend [c] := by
  have hskipped : d.skipped c cs = 0 := by rw [skipped, readQuotation_eq_none hc hescape]
  rw [read_skipping hinside, hskipped]
  rfl

theorem read_opening : d.read depth ('(' :: cs) = (d.read (depth + 1) cs).prepend ['('] :=
  read_single (.inr (by decide)) (by decide) (.inl (by decide))

theorem read_inner_closing : d.read (depth + 1) (')' :: cs) = (d.read depth cs).prepend [')'] :=
  read_single (.inl depth.succ_pos) (by decide) (.inl (by decide))

theorem read_inner_comma : d.read (depth + 1) (',' :: cs) = (d.read (depth + 1) cs).prepend [','] :=
  read_single (.inl depth.succ_pos) (by decide) (.inl (by decide))

theorem read_space : d.read depth (' ' :: cs) = (d.read depth cs).prepend [' '] :=
  read_single (.inr (by decide)) (by decide) (.inl (by decide))

/-! ### Text in one piece -/

/-- The text that follows an element is empty, or its first character ends the element. -/
def Ends (rest : List Char) : Prop := rest.head? ∈ [none, some ',', some ')', some ' ']

theorem ends_nil : Ends [] := List.mem_cons_self

theorem ends_cons (hc : c ∈ [',', ')', ' ']) : Ends (c :: rest) := by
  simp only [Ends, List.head?_cons]
  simp_all

theorem Ends.append (hds : Ends ds) (hrest : Ends rest) : Ends (ds ++ rest) := by
  cases ds with
  | nil => exact hrest
  | cons c ds => exact hds

theorem Ends.head?_ne (h : Ends rest) (hc : c ∉ [',', ')', ' ']) : rest.head? ≠ some c := by
  intro hhead
  rw [Ends, hhead] at h
  simp_all

/-- The reader goes through the text without ending an element, and is at the depth it came with. -/
def Keeps (d : Dialect) (depth : Nat) (cs : List Char) : Prop :=
  ∀ rest, Ends rest → d.read depth (cs ++ rest) = (d.read depth rest).prepend cs

theorem keeps_nil : d.Keeps depth [] := by
  intro rest _
  rw [Reading.prepend_nil, List.nil_append]

theorem Keeps.append (hcs : d.Keeps depth cs) (hds : d.Keeps depth ds) (hends : Ends ds) :
    d.Keeps depth (cs ++ ds) := by
  intro rest hrest
  rw [List.append_assoc, hcs _ (hends.append hrest), hds rest hrest, Reading.prepend_prepend]

theorem Keeps.parenthesized (h : d.Keeps (depth + 1) cs) : d.Keeps depth ('(' :: (cs ++ [')'])) := by
  intro rest _
  calc d.read depth ('(' :: (cs ++ [')']) ++ rest)
      = d.read depth ('(' :: (cs ++ ')' :: rest)) := by simp
    _ = (((d.read depth rest).prepend [')']).prepend cs).prepend ['('] := by
        rw [read_opening, h _ (ends_cons (by decide)), read_inner_closing]
    _ = (d.read depth rest).prepend ('(' :: (cs ++ [')'])) := by simp

/-- A character of words and numbers. -/
def isPlain (c : Char) : Bool := c.isAlphanum || c == '_' || c == '.' || c == '-'

theorem ne_of_isPlain {b : Char} (hc : isPlain c = true) (hb : isPlain b = false) : c ≠ b := by
  rintro rfl
  rw [hc] at hb
  cases hb

theorem keeps_plain (h : ∀ c ∈ cs, isPlain c = true) : d.Keeps depth cs := by
  intro rest hrest
  induction cs with
  | nil => exact keeps_nil rest hrest
  | cons c cs ih =>
    obtain ⟨hc, hcs⟩ := List.forall_mem_cons.mp h
    have hne : ∀ {b}, isPlain b = false → c ≠ b := ne_of_isPlain hc
    have hdepth : depthAfter depth c = depth := by
      rw [depthAfter, if_neg (hne rfl), if_neg (hne rfl)]
    have hquotation : c ∉ quotationMarks := by
      simp only [quotationMarks, List.mem_cons, List.not_mem_nil, or_false, not_or]
      exact ⟨hne rfl, hne rfl, hne rfl, hne rfl⟩
    have hquote : (cs ++ rest).head? ≠ some '\'' := by
      cases cs with
      | nil => exact hrest.head?_ne (by decide)
      | cons b cs =>
        intro hhead
        exact ne_of_isPlain (hcs b List.mem_cons_self) rfl (Option.some.inj hhead)
    rw [List.cons_append, read_single (.inr ⟨hne rfl, hne rfl⟩) hquotation (.inr hquote), hdepth,
      ih hcs, Reading.prepend_prepend]
    rfl

theorem keeps_quotation (hc : c ∉ ['(', ')', ','])
    (hquotation : ∀ rest, Ends rest → ∃ text, d.readQuotation (c :: (cs ++ rest)) = some (text, rest)) :
    d.Keeps depth (c :: cs) := by
  intro rest hrest
  obtain ⟨text, htext⟩ := hquotation rest hrest
  exact read_quotation hc htext

/-- The reader keeps the text in one piece wherever it stands. -/
structure IsElement (d : Dialect) (cs : List Char) : Prop where
  keeps (depth : Nat) : d.Keeps depth cs
  starts : ∃ c, cs.head? = some c ∧ c ≠ ' '

/-! ### Literals -/

theorem isElement_plain (hne : cs ≠ []) (h : ∀ c ∈ cs, isPlain c = true) : d.IsElement cs where
  keeps _ := keeps_plain h
  starts := by
    obtain ⟨c, cs, rfl⟩ := List.exists_cons_of_ne_nil hne
    exact ⟨c, rfl, ne_of_isPlain (h c List.mem_cons_self) rfl⟩

theorem isPlain_numeral (h : c.isDigit = true ∨ c = '.') : isPlain c = true := by
  obtain h | rfl := h
  · simp [isPlain, Char.isAlphanum, h]
  · rfl

theorem isElement_signed (h : Lexer.IsSigned cs) : d.IsElement cs := by
  obtain ⟨hne, hcs⟩ | ⟨ds, rfl, -, hds⟩ := h
  · exact isElement_plain hne fun c hc => isPlain_numeral (hcs c hc)
  · apply isElement_plain (List.cons_ne_nil '-' ds)
    exact List.forall_mem_cons.mpr ⟨rfl, fun c hc => isPlain_numeral (hds c hc)⟩

theorem isElement_textLiteral (d : Dialect) (cs : List Char) : d.IsElement (d.textLiteral cs) := by
  have hcons : ∃ c ds, d.textLiteral cs = c :: ds ∧ c ∈ ['\'', 'E'] := by
    cases d with
    | postgres =>
      rw [textLiteral]
      split
      · exact ⟨_, _, rfl, by decide⟩
      · exact ⟨_, _, rfl, by decide⟩
    | mysql | sqlite | mssql => exact ⟨_, _, rfl, by decide⟩
  obtain ⟨c, ds, hliteral, hc⟩ := hcons
  have houtside : c ∉ ['(', ')', ','] ∧ c ≠ ' ' := by
    obtain rfl | hc := List.mem_cons.mp hc
    · decide
    · obtain rfl := List.mem_singleton.mp hc
      decide
  rw [hliteral]
  refine ⟨fun depth => keeps_quotation houtside.1 fun rest hrest => ?_, c, rfl, houtside.2⟩
  have hquote : rest.head? ≠ some '\'' := hrest.head?_ne (by decide)
  have hread := d.readLiteral_textLiteral cs hquote
  rw [hliteral] at hread
  exact ⟨cs, by rw [readQuotation, ← List.cons_append, hread, Option.some_or]⟩

theorem isElement_literal (d : Dialect) (s : Scalar) : d.IsElement (d.literal s).toList := by
  have hword : ∀ word : String, (word.toList.all isPlain && !word.toList.isEmpty) = true →
      d.IsElement word.toList := by
    intro word hword
    simp only [Bool.and_eq_true, List.all_eq_true, Bool.not_eq_true', List.isEmpty_eq_false_iff] at hword
    exact isElement_plain hword.2 hword.1
  cases s with
  | null => exact hword "NULL" rfl
  | bool b => cases d <;> cases b <;> exact hword _ rfl
  | int n => exact isElement_signed (Lexer.isSigned_int n)
  | text s =>
    have htext : (d.literal (.text s)).toList = d.textLiteral s.toList := String.toList_ofList
    rw [htext]
    exact d.isElement_textLiteral s.toList
  | float x =>
    rw [literal, floatLiteral]
    split
    · next hfinite => exact isElement_signed (Lexer.isSigned_finite hfinite)
    · split
      · next hpostgres =>
        subst hpostgres
        split
        · exact isElement_textLiteral .postgres "NaN".toList
        · split
          · exact isElement_textLiteral .postgres "-Infinity".toList
          · exact isElement_textLiteral .postgres "Infinity".toList
      · exact hword "NULL" rfl

/-! ### Names -/

theorem isElement_quotedName {opening closing : Char} (hopening : opening ∉ ['(', ')', ',', ' '])
    (hclosing : closing ∉ [',', ')', ' '])
    (hread : ∀ cs, d.readQuotation (opening :: cs) = readQuoted closing none cs)
    (name : List Char) : d.IsElement (quoted opening closing name) where
  keeps depth := by
    apply keeps_quotation
    · exact fun hmem => hopening (List.mem_append_left [' '] hmem)
    · intro rest hrest
      refine ⟨name, ?_⟩
      rw [hread, List.append_assoc]
      exact readQuoted_doubled closing (hrest.head?_ne hclosing)
  starts := by
    refine ⟨opening, rfl, ?_⟩
    rintro rfl
    exact hopening (by decide)

theorem isElement_plainName {name : List Char} (h : isPlainName name = true) : d.IsElement name := by
  cases name with
  | nil => cases h
  | cons c name =>
    simp only [isPlainName, Bool.and_eq_true, Bool.or_eq_true, beq_iff_eq, List.all_eq_true] at h
    obtain ⟨hc, hname⟩ := h
    have hall : ∀ b ∈ c :: name, (b.isLower = true ∨ b.isDigit = true) ∨ b = '_' :=
      List.forall_mem_cons.mpr ⟨hc.imp_left .inl, hname⟩
    apply isElement_plain (List.cons_ne_nil c name)
    intro b hb
    obtain (hlower | hdigit) | rfl := hall b hb
    · have halpha : b.isAlpha = true := Bool.or_eq_true_iff.mpr (.inr hlower)
      simp [isPlain, Char.isAlphanum, halpha]
    · simp [isPlain, Char.isAlphanum, hdigit]
    · rfl

theorem isElement_identifier (d : Dialect) (name : String) :
    d.IsElement (d.identifier name).toList := by
  cases d with
  | postgres =>
    rw [identifier, quotedIfNeeded]
    split
    · next hplain =>
      rw [Bool.and_eq_true] at hplain
      exact isElement_plainName hplain.1
    · rw [String.toList_ofList]
      exact isElement_quotedName (by decide) (by decide) (fun _ => rfl) name.toList
  | mysql | sqlite | mssql =>
    rw [identifier, String.toList_ofList]
    exact isElement_quotedName (by decide) (by decide) (fun _ => rfl) name.toList

/-! ### Lists -/

/-- The texts with a comma and a space between each two. -/
def joined (texts : List (List Char)) : List Char := [',', ' '].intercalate texts

theorem joined_cons_cons (cs ds : List Char) (texts : List (List Char)) :
    joined (cs :: ds :: texts) = cs ++ ',' :: ' ' :: joined (ds :: texts) := by
  simp [joined, List.intercalate_cons_cons]

theorem toList_commaList (texts : List String) :
    (Adapter.commaList texts).toList = joined (texts.map String.toList) :=
  String.toList_intercalate

theorem toList_parenthesized (text : String) :
    (Adapter.parenthesized text).toList = '(' :: (text.toList ++ [')']) := by
  simp [Adapter.parenthesized]

variable {texts : List (List Char)}

/-- Between parentheses the reader goes past the commas. -/
theorem keeps_joined (h : ∀ cs ∈ texts, d.IsElement cs) : d.Keeps (depth + 1) (joined texts) := by
  induction texts with
  | nil => exact keeps_nil
  | cons cs texts ih =>
    obtain ⟨hcs, htexts⟩ := List.forall_mem_cons.mp h
    cases texts with
    | nil => simpa [joined] using hcs.keeps (depth + 1)
    | cons ds texts =>
      rw [joined_cons_cons]
      apply (hcs.keeps (depth + 1)).append
      · intro rest hrest
        rw [List.cons_append, List.cons_append, read_inner_comma, read_space, ih htexts rest hrest,
          Reading.prepend_prepend, Reading.prepend_prepend]
        rfl
      · exact ends_cons (by decide)

theorem isElement_parenthesized (h : ∀ cs ∈ texts, d.IsElement cs) :
    d.IsElement ('(' :: (joined texts ++ [')'])) where
  keeps _ := (keeps_joined h).parenthesized
  starts := ⟨'(', rfl, by decide⟩

/-- Each element but the first is read with the space before it. -/
theorem read_joined {cs : List Char} {after : Option (List Char)} (hcs : d.IsElement cs)
    (h : ∀ ds ∈ texts, d.IsElement ds) (hends : Ends rest) (hrest : d.read 0 rest = ⟨[[]], after⟩) :
    d.read 0 (joined (cs :: texts) ++ rest) = ⟨cs :: texts.map (' ' :: ·), after⟩ := by
  induction texts generalizing cs with
  | nil =>
    have hjoined : joined [cs] = cs := by simp [joined]
    rw [hjoined, hcs.keeps 0 rest hends, hrest]
    simp [Reading.prepend]
  | cons ds texts ih =>
    obtain ⟨hds, htexts⟩ := List.forall_mem_cons.mp h
    have htail : d.read 0 (',' :: ' ' :: (joined (ds :: texts) ++ rest)) =
        ⟨[] :: (' ' :: ds) :: texts.map (' ' :: ·), after⟩ := by
      rw [read_comma, read_space, ih hds htexts]
      rfl
    have hcomma : Ends (',' :: ' ' :: (joined (ds :: texts) ++ rest)) := ends_cons (by decide)
    rw [joined_cons_cons, List.append_assoc, List.cons_append, List.cons_append, hcs.keeps 0 _ hcomma,
      htail]
    simp [Reading.prepend]

/-- What is joined from elements is split into them. -/
theorem trimmed_read_joined {after : Option (List Char)} (h : ∀ cs ∈ texts, d.IsElement cs)
    (hends : Ends rest) (hrest : d.read 0 rest = ⟨[[]], after⟩) :
    (d.read 0 (joined texts ++ rest)).after = after ∧
      (d.read 0 (joined texts ++ rest)).trimmed = texts := by
  cases texts with
  | nil =>
    rw [joined, List.intercalate_nil, List.nil_append, hrest]
    exact ⟨rfl, rfl⟩
  | cons cs texts =>
    have hunspaced : ∀ ds ∈ cs :: texts, ds.dropWhile (· = ' ') = ds := by
      intro ds hds
      obtain ⟨c, hhead, hc⟩ := (h ds hds).starts
      obtain ⟨es, rfl⟩ := List.head?_eq_some_iff.mp hhead
      rw [List.dropWhile_cons_of_neg (by simpa using hc)]
    obtain ⟨hcs, htexts⟩ := List.forall_mem_cons.mp hunspaced
    have hne : cs ≠ [] := by
      obtain ⟨c, hhead, -⟩ := (h cs List.mem_cons_self).starts
      rintro rfl
      cases hhead
    obtain ⟨hfirst, hothers⟩ := List.forall_mem_cons.mp h
    rw [read_joined hfirst hothers hends hrest]
    refine ⟨rfl, ?_⟩
    have hmap : (texts.map (' ' :: ·)).map (·.dropWhile (· = ' ')) = texts := by
      rw [List.map_map]
      conv_rhs => rw [← List.map_id texts]
      apply List.map_congr_left
      intro ds hds
      simpa using htexts ds hds
    rw [Reading.trimmed, if_neg (by simp [hne]), List.map_cons, hcs, hmap]

theorem elements?_joined (h : ∀ cs ∈ texts, d.IsElement cs) :
    d.elements? (joined texts) = some texts := by
  obtain ⟨hafter, htrimmed⟩ := trimmed_read_joined h ends_nil read_nil
  rw [List.append_nil] at hafter htrimmed
  rw [elements?, if_pos hafter, htrimmed]

theorem tuple?_parenthesized (h : ∀ cs ∈ texts, d.IsElement cs) :
    d.tuple? ('(' :: (joined texts ++ [')'])) = some texts := by
  obtain ⟨hafter, htrimmed⟩ := trimmed_read_joined h (ends_cons (by decide)) read_closing
  rw [tuple?, if_pos hafter, htrimmed]

end Dialect

end SqlTemplate
