import SqlTemplate.Proofs.Elements
import SqlTemplate.Proofs.Grammar

/-!
How databases read column names back. Quotation marks keep a name as it is. PostgreSQL also reads names
without marks, as long as they can be and with their letters in lowercase, so only a name that this does
not change may stand there without marks (`isBareName_iff`). Each dialect reads its identifier of a name
as that name (`readIdentifier_identifier`).
-/

namespace SqlTemplate.Dialect

/-! ### Reading -/

/-- What an unquoted name of PostgreSQL can begin with. -/
def beginsName (c : Char) : Bool := c.isAlpha || c == '_' || decide (0x80 ≤ c.toNat)

/-- What an unquoted name of PostgreSQL goes on with. -/
def continuesName (c : Char) : Bool := beginsName c || c.isDigit || c == '$'

/-- Reads an unquoted name of PostgreSQL, as long as it can be. Its letters are taken as lowercase ones,
and a reserved word is no name. -/
def readBareName (cs : List Char) : Option (List Char × List Char) :=
  let name := (cs.takeWhile continuesName).map Char.toLower
  if cs.head?.any beginsName && !reservedWords.contains (String.ofList name) then
    some (name, cs.dropWhile continuesName)
  else none

/-- Reads a column name as a database of the dialect does: the name, and what follows it. -/
def readIdentifier (d : Dialect) (cs : List Char) : Option (List Char × List Char) :=
  (d.readQuotedName cs).or (if d = .postgres then readBareName cs else none)

/-- The mark that ends a quoted name. -/
def closingMark : Dialect → Char
  | .postgres | .sqlite => '"'
  | .mysql => '\x60'
  | .mssql => ']'

/-! ### Characters -/

theorem isLower_iff {c : Char} : c.isLower = true ↔ 97 ≤ c.toNat ∧ c.toNat ≤ 122 := by
  change (decide (97 ≤ c.val) && decide (c.val ≤ 122)) = true ↔ _
  simp [UInt32.le_iff_toNat_le, ← Char.toNat_val]

theorem isAlpha_of_isLower {c : Char} (h : c.isLower = true) : c.isAlpha = true :=
  Bool.or_eq_true_iff.mpr (.inr h)

theorem isDigit_iff {c : Char} : c.isDigit = true ↔ 48 ≤ c.toNat ∧ c.toNat ≤ 57 := by
  simp [Char.isDigit, UInt32.le_iff_toNat_le, ← Char.toNat_val]

theorem toLower_eq_self {c : Char} (h : c.toNat < 65 ∨ 90 < c.toNat) : c.toLower = c := by
  unfold Char.toLower
  split
  · next hupper =>
    have hrange : 65 ≤ c.toNat ∧ c.toNat ≤ 90 := by
      simpa [UInt32.le_iff_toNat_le, ← Char.toNat_val] using hupper
    omega
  · rfl

/-! ### Names without marks -/

/-- PostgreSQL reads the name back unchanged without marks. -/
structure IsBareName (name : String) : Prop where
  nonempty : name ≠ ""
  chars : ∀ c ∈ name.toList, c.isLower = true ∨ c.isDigit = true ∨ c = '_'
  first : ∀ c ∈ name.toList.head?, c.isDigit = false
  not_reserved : name ∉ reservedWords

theorem isPlainName_iff {name : List Char} :
    isPlainName name = true ↔ name ≠ [] ∧
      (∀ c ∈ name, c.isLower = true ∨ c.isDigit = true ∨ c = '_') ∧
      ∀ c ∈ name.head?, c.isDigit = false := by
  cases name with
  | nil => simp [isPlainName]
  | cons c name =>
    have hfirst : (c.isLower = true ∨ c = '_') ↔
        (c.isLower = true ∨ c.isDigit = true ∨ c = '_') ∧ c.isDigit = false := by
      rw [← Bool.not_eq_true, isDigit_iff, isLower_iff]
      constructor
      · rintro (hlower | rfl)
        · exact ⟨.inl hlower, by omega⟩
        · exact ⟨.inr (.inr rfl), by decide⟩
      · rintro ⟨hlower | hdigit | rfl, hno⟩
        · exact .inl hlower
        · exact absurd hdigit hno
        · exact .inr rfl
    simp [isPlainName, hfirst, or_assoc, and_assoc, and_comm]

theorem isBareName_iff {name : String} :
    IsBareName name ↔ (isPlainName name.toList && !reservedWords.contains name) = true := by
  rw [Bool.and_eq_true, isPlainName_iff]
  constructor
  · intro h
    exact ⟨⟨by simpa using h.nonempty, h.chars, h.first⟩, by simpa using h.not_reserved⟩
  · rintro ⟨⟨hne, hchars, hfirst⟩, hreserved⟩
    exact ⟨by simpa using hne, hchars, hfirst, by simpa using hreserved⟩

theorem identifier_of_isBareName {name : String} (h : IsBareName name) :
    Dialect.postgres.identifier name = name :=
  if_pos (isBareName_iff.mp h)

theorem identifier_of_not_isBareName {name : String} (h : ¬IsBareName name) :
    Dialect.postgres.identifier name = String.ofList (quoted '"' '"' name.toList) :=
  if_neg fun hplain => h (isBareName_iff.mpr hplain)

theorem length_doubled (mark : Char) (cs : List Char) : cs.length ≤ (doubled mark cs).length := by
  induction cs with
  | nil => exact le_rfl
  | cons c cs ih =>
    rw [doubled]
    split <;> simp only [List.length_cons] <;> omega

/-- Marks make a name longer, so no quoted name looks like the name itself. -/
theorem ofList_quoted_ne (opening closing : Char) (name : String) :
    String.ofList (quoted opening closing name.toList) ≠ name := by
  intro heq
  have hlength := congrArg (fun s => s.toList.length) heq
  have hle := length_doubled closing name.toList
  simp only [String.toList_ofList, quoted, List.length_cons, List.length_append] at hlength
  omega

theorem identifier_eq_self_iff {d : Dialect} {name : String} :
    d.identifier name = name ↔ d = .postgres ∧ IsBareName name := by
  cases d with
  | postgres =>
    rw [and_iff_right rfl]
    refine ⟨fun heq => ?_, identifier_of_isBareName⟩
    by_contra hno
    rw [identifier_of_not_isBareName hno] at heq
    exact ofList_quoted_ne _ _ name heq
  | mysql | sqlite | mssql => simp [identifier, ofList_quoted_ne]

/-! ### Reading what was written -/

theorem IsBareName.continuesName {name : String} (h : IsBareName name) :
    ∀ c ∈ name.toList, continuesName c = true := by
  intro c hc
  obtain hlower | hdigit | rfl := h.chars c hc
  · simp [Dialect.continuesName, beginsName, isAlpha_of_isLower hlower]
  · simp [Dialect.continuesName, hdigit]
  · rfl

theorem IsBareName.beginsName {name : String} (h : IsBareName name) :
    ∃ c cs, name.toList = c :: cs ∧ beginsName c = true := by
  have hne : name.toList ≠ [] := by simpa using h.nonempty
  obtain ⟨c, cs, hname⟩ := List.exists_cons_of_ne_nil hne
  have hfirst := h.first c (by rw [hname]; rfl)
  refine ⟨c, cs, hname, ?_⟩
  obtain hlower | hdigit | rfl := h.chars c (by rw [hname]; exact List.mem_cons_self)
  · simp [Dialect.beginsName, isAlpha_of_isLower hlower]
  · rw [hdigit] at hfirst
    cases hfirst
  · rfl

theorem IsBareName.map_toLower {name : String} (h : IsBareName name) :
    name.toList.map Char.toLower = name.toList := by
  conv_rhs => rw [← List.map_id name.toList]
  apply List.map_congr_left
  intro c hc
  apply toLower_eq_self
  obtain hlower | hdigit | rfl := h.chars c hc
  · have hrange := isLower_iff.mp hlower
    omega
  · have hrange := isDigit_iff.mp hdigit
    omega
  · decide

theorem readBareName_append {name : String} (h : IsBareName name) {rest : List Char}
    (hrest : ∀ c ∈ rest.head?, continuesName c = false) :
    readBareName (name.toList ++ rest) = some (name.toList, rest) := by
  obtain ⟨htake, hdrop⟩ := Placeholder.takeWhile_append_of_stops h.continuesName hrest
  obtain ⟨c, cs, hname, hc⟩ := h.beginsName
  have hhead : (name.toList ++ rest).head?.any beginsName = true := by
    rw [hname]
    exact hc
  have hreserved : reservedWords.contains name = false := by simpa using h.not_reserved
  simp only [readBareName, htake, hdrop, h.map_toLower, String.ofList_toList, hhead, hreserved]
  rfl

theorem readIdentifier_of_isBareName {name : String} (h : IsBareName name) {rest : List Char}
    (hrest : ∀ c ∈ rest.head?, continuesName c = false) :
    Dialect.postgres.readIdentifier (name.toList ++ rest) = some (name.toList, rest) := by
  obtain ⟨c, cs, hname, hc⟩ := h.beginsName
  have hmark : c ≠ '"' := by
    rintro rfl
    exact absurd hc (by decide)
  have hquoted : readQuotedName .postgres (name.toList ++ rest) = none := by
    rw [hname, List.cons_append]
    simp [readQuotedName, hmark]
  rw [readIdentifier, hquoted, Option.none_or, if_pos rfl, readBareName_append h hrest]

theorem readIdentifier_quoted {d : Dialect} {opening closing : Char}
    (hread : ∀ cs, d.readQuotedName (opening :: cs) = readQuoted closing none cs) (name : String)
    {rest : List Char} (hrest : rest.head? ≠ some closing) :
    d.readIdentifier ((String.ofList (quoted opening closing name.toList)).toList ++ rest) =
      some (name.toList, rest) := by
  have hquoted : d.readQuotedName (quoted opening closing name.toList ++ rest) =
      some (name.toList, rest) := by
    rw [quoted, List.cons_append, hread, List.append_assoc]
    exact readQuoted_doubled closing hrest
  rw [String.toList_ofList, readIdentifier, hquoted, Option.some_or]

theorem readIdentifier_append (d : Dialect) (name : String) {rest : List Char}
    (hmark : rest.head? ≠ some d.closingMark)
    (hbare : d.identifier name = name → ∀ c ∈ rest.head?, continuesName c = false) :
    d.readIdentifier ((d.identifier name).toList ++ rest) = some (name.toList, rest) := by
  cases d with
  | postgres =>
    by_cases h : IsBareName name
    · rw [identifier_of_isBareName h] at hbare ⊢
      exact readIdentifier_of_isBareName h (hbare rfl)
    · rw [identifier_of_not_isBareName h]
      exact readIdentifier_quoted (fun _ => rfl) name hmark
  | mysql | sqlite | mssql => exact readIdentifier_quoted (fun _ => rfl) name hmark

/-- Every dialect reads its identifier of a name back, to the last character and no further. Only
PostgreSQL has names without marks, just those that it reads unchanged, and no dialect takes two names
for one. -/
theorem readIdentifier_identifier (d : Dialect) :
    (∀ (name : String) (rest : List Char), rest.head? ≠ some d.closingMark →
      (d.adapter.identifier name = some name → ∀ c ∈ rest.head?, continuesName c = false) →
      ∃ written, d.adapter.identifier name = some written ∧
        d.readIdentifier (written.toList ++ rest) = some (name.toList, rest)) ∧
    (∀ name, d.adapter.identifier name = some name ↔ d = .postgres ∧ IsBareName name) ∧
    ∀ name name' written written' : String, d.adapter.identifier name = some written →
      d.adapter.identifier name' = some written' →
      d.readIdentifier written.toList = d.readIdentifier written'.toList → name = name' := by
  have hself : ∀ name, d.adapter.identifier name = some name ↔ d.identifier name = name :=
    fun name => Option.some_inj
  refine ⟨?_, fun name => (hself name).trans identifier_eq_self_iff, ?_⟩
  · intro name rest hmark hbare
    rw [hself] at hbare
    exact ⟨_, rfl, d.readIdentifier_append name hmark hbare⟩
  · rintro name name' _ _ ⟨⟩ ⟨⟩ hsame
    have hread : ∀ name, d.readIdentifier (d.identifier name).toList = some (name.toList, []) := by
      intro name
      have happend := @readIdentifier_append d name [] (by simp) (by simp)
      rwa [List.append_nil] at happend
    rw [hread, hread] at hsame
    exact String.toList_inj.mp (congrArg Prod.fst (Option.some.inj hsame))

theorem readIdentifier_closing_marks :
    (∃ written, Dialect.mssql.adapter.identifier "a]] = 1 --" = some written ∧
      Dialect.mssql.readIdentifier (written.toList ++ " = 2".toList) =
        some ("a]] = 1 --".toList, " = 2".toList)) ∧
      ∃ written, Dialect.postgres.adapter.identifier "order_1" = some written ∧
        Dialect.postgres.readIdentifier (written.toList ++ " = 2".toList) =
          some ("order_1".toList, " = 2".toList) := by
  have hspace : ∀ c ∈ " = 2".toList.head?, continuesName c = false := by
    intro c hc
    obtain rfl : ' ' = c := by simpa using hc
    rfl
  constructor
  · exact (readIdentifier_identifier .mssql).1 _ _ (by decide) fun _ => hspace
  · exact (readIdentifier_identifier .postgres).1 _ _ (by decide) fun _ => hspace

end SqlTemplate.Dialect
