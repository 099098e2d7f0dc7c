import SqlTemplate.Json.Parameters
import SqlTemplate.Proofs.Grammar
import SqlTemplate.Proofs.Lexing

/-!
Whole numbers from the machine and from JSON on their way into SQL. Up to 63 bits they are written as
they are, and above as a text of their digits. Either way the SQL text is the decimal numeral of the number
and of no other (`integers_keep_digits`).
-/

namespace SqlTemplate

open Placeholder (takeWhile_append_of_stops)

/-! ### Decimal numerals -/

/-- The digits of a natural number, without a superfluous zero in front. -/
structure IsDigits (n : Nat) (digits : List Char) : Prop where
  nonempty : digits ≠ []
  digit : ∀ c ∈ digits, c.isDigit = true
  zero : digits.head? = some '0' → digits = ['0']
  value : Nat.ofDigitChars 10 digits 0 = n

/-- The decimal numeral of a whole number. Zero has no sign. -/
inductive IsDecimal : Int → List Char → Prop where
  | natural {n : Nat} {digits : List Char} (h : IsDigits n digits) : IsDecimal n digits
  | negative {n : Nat} {digits : List Char} (h : IsDigits n digits) (hpos : 0 < n) :
      IsDecimal (-n) ('-' :: digits)

theorem head?_toDigits_ne_zero {n : Nat} (hpos : 0 < n) : (Nat.toDigits 10 n).head? ≠ some '0' := by
  induction n using Nat.strong_induction_on with
  | _ n ih =>
    rw [Nat.toDigits_eq_if (by decide)]
    split
    · next hlt =>
      have hdigits : ∀ n < 10, 0 < n → [Nat.digitChar n].head? ≠ some '0' := by decide
      exact hdigits n hlt hpos
    · next hle =>
      rw [List.head?_append_of_ne_nil _ Nat.toDigits_ne_nil]
      exact ih (n / 10) (by omega) (by omega)

theorem isDigits_toDigits (n : Nat) : IsDigits n (Nat.toDigits 10 n) where
  nonempty := Nat.toDigits_ne_nil
  digit _ hc := Nat.isDigit_of_mem_toDigits (by decide) (by decide) hc
  zero hhead := by
    obtain rfl | hpos := Nat.eq_zero_or_pos n
    · exact Nat.toDigits_zero 10
    · exact absurd hhead (head?_toDigits_ne_zero hpos)
  value := Nat.ofDigitChars_ten_toDigits

theorem isDecimal_toString (n : Int) : IsDecimal n (toString n).toList := by
  cases n with
  | ofNat n =>
    rw [Lexer.toList_toString_ofNat]
    exact .natural (isDigits_toDigits n)
  | negSucc n =>
    rw [Lexer.toList_toString_negSucc]
    exact .negative (isDigits_toDigits (n + 1)) n.succ_pos

namespace IsDecimal

variable {n n' : Int} {cs : List Char}

theorem ne_nil (h : IsDecimal n cs) : cs ≠ [] := by
  cases h with
  | natural h => exact h.nonempty
  | negative _ _ => exact List.cons_ne_nil _ _

theorem of_mem {c : Char} (h : IsDecimal n cs) (hc : c ∈ cs) : c.isDigit = true ∨ c = '-' := by
  cases h with
  | natural h => exact .inl (h.digit c hc)
  | negative h _ => exact (List.mem_cons.mp hc).symm.imp_left (h.digit c)

theorem notMem {c : Char} (h : IsDecimal n cs) (hdigit : c.isDigit = false) (hdash : c ≠ '-') :
    c ∉ cs := by
  intro hc
  obtain hc | hc := h.of_mem hc
  · rw [hdigit] at hc
    cases hc
  · exact hdash hc

/-- A numeral stands for one number. -/
theorem unique (h : IsDecimal n cs) (h' : IsDecimal n' cs) : n = n' := by
  cases h with
  | natural h =>
    cases h' with
    | natural h' => rw [← h.value, h'.value]
    | negative _ _ => exact absurd (h.digit '-' List.mem_cons_self) (by decide)
  | negative h _ =>
    cases h' with
    | natural h' => exact absurd (h'.digit '-' List.mem_cons_self) (by decide)
    | negative h' _ => rw [← h.value, h'.value]

end IsDecimal

/-! ### Literals -/

/-- A text without the quotes around it, if there are any. -/
def withoutQuotes (cs : List Char) : List Char :=
  if cs.head? = some '\'' ∧ cs.getLast? = some '\'' then cs.tail.dropLast else cs

theorem withoutQuotes_quoted (cs : List Char) : withoutQuotes ('\'' :: (cs ++ ['\''])) = cs := by
  have hlast : ('\'' :: (cs ++ ['\''])).getLast? = some '\'' := by
    rw [← List.cons_append, List.getLast?_concat]
  rw [withoutQuotes, if_pos ⟨rfl, hlast⟩, List.tail_cons, List.dropLast_concat]

theorem withoutQuotes_of_notMem {cs : List Char} (h : '\'' ∉ cs) : withoutQuotes cs = cs :=
  if_neg fun hquotes => h (List.mem_of_mem_head? hquotes.1)

theorem doubled_of_notMem {mark : Char} {cs : List Char} (h : mark ∉ cs) : doubled mark cs = cs := by
  induction cs with
  | nil => rfl
  | cons c cs ih =>
    rw [List.mem_cons, not_or] at h
    rw [doubled, if_neg (Ne.symm h.1), ih h.2]

theorem backslashed_of_forall {cs : List Char} (h : ∀ c ∈ cs, backslashLetter? c = none) :
    backslashed cs = cs := by
  induction cs with
  | nil => rfl
  | cons c cs ih =>
    obtain ⟨hc, hcs⟩ := List.forall_mem_cons.mp h
    rw [backslashed, hc, ih hcs]

/-- Every dialect writes the text of a numeral as it is, between quotes. -/
theorem IsDecimal.textLiteral_eq {n : Int} {cs : List Char} (h : IsDecimal n cs) (d : Dialect) :
    d.textLiteral cs = '\'' :: (cs ++ ['\'']) := by
  have hquoted : quoted '\'' '\'' cs = '\'' :: (cs ++ ['\'']) := by
    rw [quoted, doubled_of_notMem (h.notMem (by decide) (by decide))]
  cases d with
  | postgres => rw [Dialect.textLiteral, if_neg (h.notMem (by decide) (by decide)), hquoted]
  | mysql =>
    rw [Dialect.textLiteral, backslashed_of_forall]
    intro c hc
    have hspecial : ∀ {d : Char}, d.isDigit = false → d ≠ '-' → c ≠ d := by
      rintro _ hdigit hdash rfl
      exact h.notMem hdigit hdash hc
    unfold backslashLetter?
    split
    all_goals first | rfl | exact absurd rfl (hspecial (by decide) (by decide))
  | sqlite | mssql => exact hquoted

/-- The scalar is the number itself up to 63 bits and the text of its digits above, and in every dialect
it is written with these digits. -/
structure KeepsDigits (n : Int) (s : Scalar) : Prop where
  small : n < 0x8000000000000000 → s = .int n
  large : 0x8000000000000000 ≤ n → ∃ text, s = .text text ∧ IsDecimal n text.toList
  literal : ∀ d : Dialect, IsDecimal n (withoutQuotes (d.adapter.literal s).toList)

theorem keepsDigits_ofInteger (n : Int) : KeepsDigits n (Scalar.ofInteger n) where
  small h := if_pos h
  large h := ⟨toString n, if_neg (not_lt.mpr h), isDecimal_toString n⟩
  literal d := by
    have hdecimal := isDecimal_toString n
    unfold Scalar.ofInteger
    split
    · change IsDecimal n (withoutQuotes (toString n).toList)
      rw [withoutQuotes_of_notMem (hdecimal.notMem (by decide) (by decide))]
      exact hdecimal
    · have hliteral : (d.adapter.literal (.text (toString n))).toList =
          d.textLiteral (toString n).toList := String.toList_ofList
      rw [hliteral, hdecimal.textLiteral_eq, withoutQuotes_quoted]
      exact hdecimal

/-- Different numbers have different literals. -/
theorem KeepsDigits.eq_of_literal_eq {n n' : Int} {s s' : Scalar} (h : KeepsDigits n s)
    (h' : KeepsDigits n' s') {d : Dialect} (heq : d.adapter.literal s = d.adapter.literal s') :
    n = n' := by
  have hliteral := h.literal d
  rw [heq] at hliteral
  exact hliteral.unique (h'.literal d)

/-! ### Integers of the machine -/

namespace MachineInteger

theorem tried_eq {n : Int} (h : -0x8000000000000000 ≤ n) : tried n = Scalar.ofInteger n := by
  simp only [tried, Scalar.ofInteger, h, true_and]

theorem int_eq {n : Int} (h : n < 0x8000000000000000) : .int n = Scalar.ofInteger n :=
  (if_pos h).symm

theorem toScalar_eq (x : MachineInteger) : x.toScalar = Scalar.ofInteger x.toInt := by
  cases x with
  | int8 x =>
    have hlt := x.toInt_lt
    exact int_eq (by omega)
  | int16 x =>
    have hlt := x.toInt_lt
    exact int_eq (by omega)
  | int32 x =>
    have hlt := x.toInt_lt
    exact int_eq (by omega)
  | int64 x => exact int_eq x.toInt_lt
  | isize x => exact tried_eq x.le_toInt
  | uint8 x =>
    have hlt := x.toNat_lt
    exact int_eq (by omega)
  | uint16 x =>
    have hlt := x.toNat_lt
    exact int_eq (by omega)
  | uint32 x =>
    have hlt := x.toNat_lt
    exact int_eq (by omega)
  | uint64 x => exact tried_eq (by omega)
  | usize x => exact tried_eq (by omega)

end MachineInteger

/-! ### Integers of JSON -/

namespace JsonNumber

/-- A number ends before this. -/
def EndsNumber (rest : List Char) : Prop :=
  ∀ c ∈ rest.head?, c.isDigit = false ∧ c ≠ '.' ∧ c ≠ 'e' ∧ c ≠ 'E'

variable {n : Nat} {digits rest : List Char}

theorem readDigits_append (h : IsDigits n digits) (hrest : EndsNumber rest) :
    readDigits (digits ++ rest) = some (digits, rest) := by
  obtain ⟨htake, hdrop⟩ := takeWhile_append_of_stops h.digit fun c hc => (hrest c hc).1
  rw [readDigits, htake, hdrop, if_neg (by simpa using h.nonempty)]

theorem readFraction_of_endsNumber (hrest : EndsNumber rest) : readFraction rest = some ([], rest) := by
  unfold readFraction
  split
  · exact absurd rfl (hrest '.' rfl).2.1
  · rfl

theorem readExponent_of_endsNumber (hrest : EndsNumber rest) :
    readExponent rest = some (none, rest) := by
  unfold readExponent
  split
  · exact absurd rfl (hrest 'e' rfl).2.2.1
  · exact absurd rfl (hrest 'E' rfl).2.2.2
  · rfl

theorem readSign_append (negative : Bool) (h : IsDigits n digits) (rest : List Char) :
    readSign ((if negative then ['-'] else []) ++ (digits ++ rest)) = (negative, digits ++ rest) := by
  cases negative with
  | true => rfl
  | false =>
    obtain ⟨c, digits, rfl⟩ := List.exists_cons_of_ne_nil h.nonempty
    have hc : c ≠ '-' := by
      rintro rfl
      exact absurd (h.digit '-' List.mem_cons_self) (by decide)
    simp [readSign, hc]

theorem read_append (negative : Bool) (h : IsDigits n digits) (hrest : EndsNumber rest) :
    read ((if negative then ['-'] else []) ++ (digits ++ rest)) =
      (integer? negative digits).map (·, rest) := by
  have hzero : ¬(digits.head? = some '0' && 1 < digits.length) = true := by
    simp only [Bool.and_eq_true, decide_eq_true_eq, not_and]
    intro hhead
    rw [h.zero hhead]
    decide
  rw [read, readSign_append negative h]
  simp only [readDigits_append h hrest, Option.bind_eq_bind, Option.bind_some, if_neg hzero,
    readFraction_of_endsNumber hrest, readExponent_of_endsNumber hrest]
  cases integer? negative digits <;> rfl

theorem integer?_natural (h : IsDigits n digits) (hn : n < 0x10000000000000000) :
    integer? false digits = some (.whole n) := by
  rw [integer?, h.value]
  exact if_pos hn

theorem integer?_negative (h : IsDigits n digits) (hpos : 0 < n) (hn : n ≤ 0x8000000000000000) :
    integer? true digits = some (.whole (-n)) := by
  have hfits : (decide (0 < n) && decide (n ≤ 0x8000000000000000)) = true := by simp [hpos, hn]
  rw [integer?, h.value]
  exact if_pos hfits

theorem read_decimal {n : Int} {cs : List Char} (h : IsDecimal n cs)
    (hlow : -0x8000000000000000 ≤ n) (hhigh : n < 0x10000000000000000) (hrest : EndsNumber rest) :
    read (cs ++ rest) = some (.whole n, rest) := by
  cases h with
  | natural h =>
    have hread := read_append false h hrest
    rw [integer?_natural h (by omega)] at hread
    exact hread
  | negative h hpos =>
    have hread := read_append true h hrest
    rw [integer?_negative h hpos (by omega)] at hread
    exact hread

/-- The double that is zero with a minus sign. -/
def minusZero : Binary64 := ⟨0x8000000000000000⟩

theorem read_minusZero (hrest : EndsNumber rest) :
    read ('-' :: '0' :: rest) = some (.real minusZero, rest) := by
  have hread := read_append true (isDigits_toDigits 0) hrest
  have hinteger : integer? true ['0'] = some (.real minusZero) := by decide +kernel
  rw [Nat.toDigits_zero, hinteger] at hread
  exact hread

end JsonNumber

/-- No other JSON value starts like a numeral. -/
theorem Json.readValue_eq_number {c : Char} (hc : c.isDigit = true ∨ c = '-') (fuel depth : Nat)
    (cs : List Char) :
    readValue (fuel + 1) depth (c :: cs) =
      (JsonNumber.read (c :: cs)).map fun (n, rest) => (.number n, rest) := by
  have hne : ∀ {d : Char}, d.isDigit = false → d ≠ '-' → c ≠ d := by
    rintro _ hdigit hdash rfl
    obtain hc | hc := hc
    · rw [hdigit] at hc
      cases hc
    · exact hdash hc
  rw [readValue]
  all_goals
    intro rest heq
    exact hne (by decide) (by decide) (List.cons.inj heq).1

theorem Json.readValue_decimal {n : Int} {cs rest : List Char} (h : IsDecimal n cs)
    (hlow : -0x8000000000000000 ≤ n) (hhigh : n < 0x10000000000000000)
    (hrest : JsonNumber.EndsNumber rest) (fuel depth : Nat) :
    readValue (fuel + 1) depth (cs ++ rest) = some (.number (.whole n), rest) := by
  have hread := JsonNumber.read_decimal h hlow hhigh hrest
  obtain ⟨c, cs, rfl⟩ := List.exists_cons_of_ne_nil h.ne_nil
  rw [List.cons_append] at hread ⊢
  rw [readValue_eq_number (h.of_mem List.mem_cons_self), hread]
  rfl

/-- Whole numbers keep their digits: those of the machine's integer types, and those in a JSON text that
64 bits can hold, signed or not. A minus sign before zero alone makes a double. No two numbers have one
literal. -/
theorem integers_keep_digits :
    (∀ x : MachineInteger, x.toScalar = Scalar.ofInteger x.toInt ∧ KeepsDigits x.toInt x.toScalar) ∧
    (∀ (n : Int) (token : List Char), IsDecimal n token →
      -0x8000000000000000 ≤ n → n < 0x10000000000000000 →
        ∀ rest, JsonNumber.EndsNumber rest → ∀ fuel depth,
          Json.readValue (fuel + 1) depth (token ++ rest) = some (.number (.whole n), rest) ∧
          ∃ s, Value.ofJson (.number (.whole n)) = .scalar s ∧ KeepsDigits n s) ∧
    (∀ rest, JsonNumber.EndsNumber rest → ∀ fuel depth,
      Json.readValue (fuel + 1) depth ('-' :: '0' :: rest) =
        some (.number (.real JsonNumber.minusZero), rest)) ∧
    ∀ (d : Dialect) (n n' : Int) (s s' : Scalar), KeepsDigits n s → KeepsDigits n' s' →
      n ≠ n' → d.adapter.literal s ≠ d.adapter.literal s' := by
  refine ⟨fun x => ?_, ?_, ?_, ?_⟩
  · rw [x.toScalar_eq]
    exact ⟨rfl, keepsDigits_ofInteger x.toInt⟩
  · intro n token h hlow hhigh rest hrest fuel depth
    refine ⟨Json.readValue_decimal h hlow hhigh hrest fuel depth, Scalar.ofInteger n, ?_, ?_⟩
    · rw [Value.ofJson]
    · exact keepsDigits_ofInteger n
  · intro rest hrest fuel depth
    rw [Json.readValue_eq_number (.inr rfl), JsonNumber.read_minusZero hrest]
    rfl
  · intro d n n' s s' h h' hne heq
    exact hne (h.eq_of_literal_eq h' heq)

/-- The largest number that a JSON text can hold becomes a text, and its neighbour below another one. -/
theorem integers_keep_digits_largest :
    ∃ s, Json.readValue 1 0 "18446744073709551615]".toList =
        some (.number (.whole 18446744073709551615), [']']) ∧
      Value.ofJson (.number (.whole 18446744073709551615)) = .scalar s ∧
      (∃ text, s = .text text ∧ IsDecimal 18446744073709551615 text.toList) ∧
      ∀ d : Dialect, d.adapter.literal s ≠
        d.adapter.literal (MachineInteger.uint64 18446744073709551614).toScalar := by
  obtain ⟨hmachine, hjson, -, hdistinct⟩ := integers_keep_digits
  have hdecimal : IsDecimal 18446744073709551615 "18446744073709551615".toList :=
    isDecimal_toString 18446744073709551615
  have hends : JsonNumber.EndsNumber [']'] := by
    rintro c ⟨⟩
    decide
  obtain ⟨hread, s, hvalue, hs⟩ := hjson _ _ hdecimal (by decide) (by decide) _ hends 0 0
  obtain ⟨-, hbelow⟩ := hmachine (.uint64 18446744073709551614)
  exact ⟨s, hread, hvalue, hs.large (by decide), fun d => hdistinct d _ _ s _ hs hbelow (by decide)⟩

end SqlTemplate
