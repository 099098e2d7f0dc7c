import SqlTemplate.Proofs.Grammar
import SqlTemplate.Proofs.QueryFileText

/-!
Marker lines taken apart. The reader takes every part as long as it can be and never goes back. It
loses nothing by that (`read_eq_some_iff`): a gap ends before a mark and a name ends before a gap, so a
line has at most one division into parts (`Parts.unique`).
-/

namespace SqlTemplate.Marker

open Placeholder (takeWhile_append_of_stops)

/-! ### The parts of a marker line -/

/-- Spaces and tabs only. -/
def Gap (cs : List Char) : Prop := ∀ c ∈ cs, isGap c = true

/-- The gaps of a marker line, the name of its query, and the carriage returns at its end. -/
structure Parts where
  beforeDashes : List Char
  beforeWord : List Char
  beforeColon : List Char
  beforeName : List Char
  name : List Char
  afterName : List Char
  returns : Nat
  beforeDashes_gap : Gap beforeDashes
  beforeWord_gap : Gap beforeWord
  beforeColon_gap : Gap beforeColon
  beforeName_gap : Gap beforeName
  name_ne : name ≠ []
  name_chars : ∀ c ∈ name, isNameChar c = true
  afterName_gap : Gap afterName

namespace Parts

variable (p : Parts)

/-- The line up to its name. -/
def start : List Char :=
  p.beforeDashes ++ ['-', '-'] ++ p.beforeWord ++ ['n', 'a', 'm', 'e'] ++ p.beforeColon ++ [':'] ++
    p.beforeName

/-- The line up to its carriage returns. -/
def text : List Char := p.start ++ p.name ++ p.afterName

def line : List Char := p.text ++ List.replicate p.returns '\r'

end Parts

/-! ### Runs of characters -/

theorem isGap_eq_false_of_isNameChar {c : Char} (h : isNameChar c = true) : isGap c = false := by
  rw [isGap, Bool.or_eq_false_iff, beq_eq_false_iff_ne, beq_eq_false_iff_ne]
  constructor
  · rintro rfl
    exact absurd h (by decide +kernel)
  · rintro rfl
    exact absurd h (by decide +kernel)

theorem isNameChar_eq_false_of_isGap {c : Char} (h : isGap c = true) : isNameChar c = false := by
  by_contra hname
  rw [isGap_eq_false_of_isNameChar (Bool.not_eq_false _ ▸ hname)] at h
  cases h

theorem ne_return_of_isGap {c : Char} (h : isGap c = true) : c ≠ '\r' := by
  rintro rfl
  cases h

theorem Gap.stops_name {gap : List Char} (h : Gap gap) (returns : Nat) :
    ∀ c ∈ (gap ++ List.replicate returns '\r').head?, isNameChar c = false := by
  intro c hc
  obtain hgap | hreturn := List.mem_append.mp (List.mem_of_mem_head? hc)
  · exact isNameChar_eq_false_of_isGap (h c hgap)
  · rw [List.eq_of_mem_replicate hreturn]
    decide +kernel

section Runs

variable {p : Char → Bool} {run run' rest rest' : List Char}

/-- A run ends in one place only. -/
theorem run_unique (hrun : ∀ c ∈ run, p c = true) (hrun' : ∀ c ∈ run', p c = true)
    (hstop : ∀ c ∈ rest.head?, p c = false) (hstop' : ∀ c ∈ rest'.head?, p c = false)
    (heq : run ++ rest = run' ++ rest') : run = run' ∧ rest = rest' := by
  obtain ⟨htake, hdrop⟩ := takeWhile_append_of_stops hrun hstop
  obtain ⟨htake', hdrop'⟩ := takeWhile_append_of_stops hrun' hstop'
  rw [heq] at htake hdrop
  exact ⟨htake.symm.trans htake', hdrop.symm.trans hdrop'⟩

/-- A run that goes on until it has to stop is the longest. -/
theorem run_isPrefix (hrun : ∀ c ∈ run, p c = true) (hrun' : ∀ c ∈ run', p c = true)
    (hstop' : ∀ c ∈ rest'.head?, p c = false) (heq : run ++ rest = run' ++ rest') :
    run <+: run' := by
  obtain ⟨htake, -⟩ := takeWhile_append_of_stops hrun' hstop'
  rw [← heq, List.takeWhile_append_of_pos hrun] at htake
  exact ⟨rest.takeWhile p, htake⟩

end Runs

/-! ### Carriage returns at the end -/

theorem exists_withoutReturns_append (line : List Char) :
    ∃ returns, line = withoutReturns line ++ List.replicate returns '\r' := by
  have hreturns : ∀ c ∈ line.reverse.takeWhile (· == '\r'), c = '\r' := by
    intro c hc
    exact eq_of_beq (List.mem_takeWhile_imp (p := (· == '\r')) hc)
  refine ⟨(line.reverse.takeWhile (· == '\r')).length, ?_⟩
  calc line
      = (line.reverse.takeWhile (· == '\r') ++ line.reverse.dropWhile (· == '\r')).reverse := by
        rw [List.takeWhile_append_dropWhile, List.reverse_reverse]
    _ = withoutReturns line ++ (line.reverse.takeWhile (· == '\r')).reverse := by
        rw [List.reverse_append, withoutReturns]
    _ = withoutReturns line ++
          List.replicate (line.reverse.takeWhile (· == '\r')).length '\r' := by
        rw [← List.reverse_replicate, ← List.eq_replicate_of_mem hreturns]

theorem withoutReturns_append_replicate {cs : List Char} (hlast : cs.getLast? ≠ some '\r')
    (returns : Nat) : withoutReturns (cs ++ List.replicate returns '\r') = cs := by
  rw [withoutReturns, List.reverse_append, List.reverse_replicate,
    List.dropWhile_append_of_pos (fun c hc => beq_iff_eq.mpr (List.eq_of_mem_replicate hc))]
  exact withoutReturns_of_getLast? hlast

theorem Parts.withoutReturns_line (p : Parts) : withoutReturns p.line = p.text := by
  refine withoutReturns_append_replicate (fun hlast => ?_) p.returns
  have hend : p.name ++ p.afterName ≠ [] := List.append_ne_nil_of_left_ne_nil p.name_ne _
  rw [text, List.append_assoc, List.getLast?_append_of_ne_nil _ hend] at hlast
  obtain hname | hgap := List.mem_append.mp (List.mem_of_getLast? hlast)
  · exact notMem_name p.name_chars (by decide +kernel) hname
  · exact ne_return_of_isGap (p.afterName_gap _ hgap) rfl

/-! ### One division into parts -/

theorem Parts.unique {p p' : Parts} (h : p.line = p'.line) : p = p' := by
  have htext : p.text = p'.text := by
    rw [← p.withoutReturns_line, h, p'.withoutReturns_line]
  have hreturns : p.returns = p'.returns := by
    have hlength := congrArg List.length h
    rw [line, line, htext, List.length_append, List.length_append, List.length_replicate,
      List.length_replicate] at hlength
    omega
  have hname : ∀ q : Parts, ∀ c ∈ (q.name ++ q.afterName).head?, isGap c = false := by
    intro q c hc
    rw [List.head?_append_of_ne_nil _ q.name_ne] at hc
    exact isGap_eq_false_of_isNameChar (q.name_chars c (List.mem_of_mem_head? hc))
  have hafter : ∀ q : Parts, ∀ c ∈ q.afterName.head?, isNameChar c = false := by
    intro q c hc
    exact isNameChar_eq_false_of_isGap (q.afterName_gap c (List.mem_of_mem_head? hc))
  simp only [text, start, List.append_assoc] at htext
  obtain ⟨hdashes, htext⟩ := run_unique p.beforeDashes_gap p'.beforeDashes_gap
    (by simp [isGap]) (by simp [isGap]) htext
  obtain ⟨hword, htext⟩ := run_unique p.beforeWord_gap p'.beforeWord_gap
    (by simp [isGap]) (by simp [isGap]) (List.append_cancel_left htext)
  obtain ⟨hcolon, htext⟩ := run_unique p.beforeColon_gap p'.beforeColon_gap
    (by simp [isGap]) (by simp [isGap]) (List.append_cancel_left htext)
  obtain ⟨hgap, htext⟩ := run_unique p.beforeName_gap p'.beforeName_gap
    (hname p) (hname p') (List.append_cancel_left htext)
  obtain ⟨hname, hafter⟩ := run_unique p.name_chars p'.name_chars (hafter p) (hafter p') htext
  cases p
  cases p'
  cases hdashes
  cases hword
  cases hcolon
  cases hgap
  cases hname
  cases hafter
  cases hreturns
  rfl

/-- No longer run of name characters stands where the name stands. -/
theorem Parts.name_longest (p : Parts) {run rest : List Char} (hline : p.line = p.start ++ (run ++ rest))
    (hrun : ∀ c ∈ run, isNameChar c = true) : run <+: p.name := by
  rw [line, text, List.append_assoc, List.append_assoc] at hline
  exact run_isPrefix hrun p.name_chars (p.afterName_gap.stops_name p.returns)
    (List.append_cancel_left hline).symm

theorem Parts.of_mem_line {p : Parts} {c : Char} (hc : c ∈ p.line) :
    isGap c = true ∨ isNameChar c = true ∨ c = ':' ∨ c = '\r' := by
  have hmarks : ∀ d ∈ ['-', '-'] ++ ['n', 'a', 'm', 'e'], isNameChar d = true := by
    simp [isNameChar, Text.isAlphanumeric]
  simp only [line, text, start, List.mem_append, or_assoc] at hc
  rcases hc with h | h | h | h | h | h | h | h | h | h
  · exact .inl (p.beforeDashes_gap c h)
  · exact .inr (.inl (hmarks c (List.mem_append_left _ h)))
  · exact .inl (p.beforeWord_gap c h)
  · exact .inr (.inl (hmarks c (List.mem_append_right _ h)))
  · exact .inl (p.beforeColon_gap c h)
  · exact .inr (.inr (.inl (List.mem_singleton.mp h)))
  · exact .inl (p.beforeName_gap c h)
  · exact .inr (.inl (p.name_chars c h))
  · exact .inl (p.afterName_gap c h)
  · exact .inr (.inr (.inr (List.eq_of_mem_replicate h)))

/-! ### The reader -/

/-- Skipping a gap and taking a mark finds the mark after any gap. -/
theorem isPrefixOf?_dropWhile_isGap_iff {c : Char} (hc : isGap c = false) {mark cs rest : List Char} :
    (c :: mark).isPrefixOf? (cs.dropWhile isGap) = some rest ↔
      ∃ gap, Gap gap ∧ cs = gap ++ (c :: mark ++ rest) := by
  rw [List.isPrefixOf?_eq_some_iff_append_eq]
  constructor
  · intro h
    refine ⟨cs.takeWhile isGap, fun d hd => List.mem_takeWhile_imp hd, ?_⟩
    rw [h, List.takeWhile_append_dropWhile]
  · rintro ⟨gap, hgap, rfl⟩
    have hstop : ∀ d ∈ (c :: mark ++ rest).head?, isGap d = false := by simpa using hc
    exact (takeWhile_append_of_stops hgap hstop).2.symm

/-- Reads a name between gaps up to the end. -/
def readName (cs : List Char) : Option (List Char) :=
  let rest := cs.dropWhile isGap
  let name := rest.takeWhile isNameChar
  if name.isEmpty || !((rest.dropWhile isNameChar).dropWhile isGap).isEmpty then none
  else some name

theorem readName_eq_some_iff {cs name : List Char} :
    readName cs = some name ↔ name ≠ [] ∧ (∀ c ∈ name, isNameChar c = true) ∧
      ∃ before after, Gap before ∧ Gap after ∧ cs = before ++ (name ++ after) := by
  simp only [readName, Option.ite_none_left_eq_some, Option.some.injEq, Bool.or_eq_true, not_or,
    Bool.not_eq_true', Bool.not_eq_false, List.isEmpty_iff, List.dropWhile_eq_nil_iff]
  constructor
  · rintro ⟨⟨hne, hafter⟩, rfl⟩
    refine ⟨hne, fun c hc => List.mem_takeWhile_imp hc, cs.takeWhile isGap,
      (cs.dropWhile isGap).dropWhile isNameChar, fun c hc => List.mem_takeWhile_imp hc, hafter, ?_⟩
    rw [List.takeWhile_append_dropWhile, List.takeWhile_append_dropWhile]
  · rintro ⟨hne, hname, before, after, hbefore, hafter, rfl⟩
    have hnameStop : ∀ c ∈ (name ++ after).head?, isGap c = false := by
      intro c hc
      rw [List.head?_append_of_ne_nil _ hne] at hc
      exact isGap_eq_false_of_isNameChar (hname c (List.mem_of_mem_head? hc))
    have hafterStop : ∀ c ∈ after.head?, isNameChar c = false := by
      intro c hc
      exact isNameChar_eq_false_of_isGap (hafter c (List.mem_of_mem_head? hc))
    obtain ⟨htake, hdrop⟩ := takeWhile_append_of_stops hname hafterStop
    rw [(takeWhile_append_of_stops hbefore hnameStop).2, htake, hdrop]
    exact ⟨⟨hne, hafter⟩, rfl⟩

theorem read_eq_some_iff {line name : List Char} :
    read line = some name ↔ ∃ p : Parts, p.line = line ∧ p.name = name := by
  have hread : read line = some name ↔
      ∃ afterDashes, ['-', '-'].isPrefixOf? ((withoutReturns line).dropWhile isGap) = some afterDashes ∧
      ∃ afterWord, ['n', 'a', 'm', 'e'].isPrefixOf? (afterDashes.dropWhile isGap) = some afterWord ∧
      ∃ afterColon, [':'].isPrefixOf? (afterWord.dropWhile isGap) = some afterColon ∧
        readName afterColon = some name := by
    simp only [read, readName, Option.bind_eq_bind, Option.bind_eq_some_iff]
  simp only [hread, isPrefixOf?_dropWhile_isGap_iff (c := '-') rfl,
    isPrefixOf?_dropWhile_isGap_iff (c := 'n') rfl, isPrefixOf?_dropWhile_isGap_iff (c := ':') rfl,
    readName_eq_some_iff]
  constructor
  · rintro ⟨_, ⟨beforeDashes, hdashes, htext⟩, _, ⟨beforeWord, hword, rfl⟩, _,
      ⟨beforeColon, hcolon, rfl⟩, hne, hname, beforeName, afterName, hbefore, hafter, rfl⟩
    obtain ⟨returns, hreturns⟩ := exists_withoutReturns_append line
    refine ⟨⟨beforeDashes, beforeWord, beforeColon, beforeName, name, afterName, returns, hdashes,
      hword, hcolon, hbefore, hne, hname, hafter⟩, ?_, rfl⟩
    rw [hreturns, htext]
    simp only [Parts.line, Parts.text, Parts.start, List.append_assoc]
  · rintro ⟨p, rfl, rfl⟩
    refine ⟨_, ⟨p.beforeDashes, p.beforeDashes_gap, ?_⟩, _, ⟨p.beforeWord, p.beforeWord_gap, rfl⟩, _,
      ⟨p.beforeColon, p.beforeColon_gap, rfl⟩, p.name_ne, p.name_chars, p.beforeName, p.afterName,
      p.beforeName_gap, p.afterName_gap, rfl⟩
    rw [p.withoutReturns_line]
    simp only [Parts.text, Parts.start, List.append_assoc]

theorem read_eq_none_iff {line : List Char} : read line = none ↔ ∀ p : Parts, p.line ≠ line := by
  rw [Option.eq_none_iff_forall_ne_some]
  simp only [ne_eq, read_eq_some_iff, not_exists, not_and]
  exact ⟨fun h p hp => h p.name p hp rfl, fun h name p hp _ => h p hp⟩

example : read "--name:-- \r\r".toList = some ['-', '-'] ∧ read "-- name: a\r ".toList = none := by
  decide +kernel

/-- A line is the marker of a query just where it has the parts of one. They are the only ones, its name
goes as far as it can, and a line with any other character or order belongs to the SQL text. -/
theorem marker_iff_parts (line : List Char) :
    (∀ name, read line = some name ↔ ∃ p : Parts, p.line = line ∧ p.name = name) ∧
    (∀ p p' : Parts, p.line = line → p'.line = line → p = p') ∧
    (∀ p : Parts, p.line = line → ∀ run rest, line = p.start ++ (run ++ rest) →
      (∀ c ∈ run, isNameChar c = true) → run <+: p.name) ∧
    (∀ c ∈ line, isGap c = false → isNameChar c = false → c ≠ ':' → c ≠ '\r' →
      read line = none) ∧
    ((∀ p : Parts, p.line ≠ line) → ∀ rest, QueryBlock.cut (line :: rest) =
      (line :: (QueryBlock.cut rest).1, (QueryBlock.cut rest).2)) := by
  refine ⟨fun name => read_eq_some_iff, ?_, ?_, ?_, ?_⟩
  · rintro p p' rfl hp'
    exact Parts.unique hp'.symm
  · rintro p rfl run rest hline hrun
    exact p.name_longest hline hrun
  · intro c hc hgap hname hcolon hreturn
    rw [read_eq_none_iff]
    rintro p rfl
    simpa [hgap, hname, hcolon, hreturn] using Parts.of_mem_line hc
  · intro h rest
    have hplain : ∀ l ∈ [line], read l = none :=
      List.forall_mem_singleton.mpr (read_eq_none_iff.mpr h)
    exact QueryBlock.cut_plain_append hplain rest

/-- A line with tabs between its parts. A mark in the name or after it makes it an ordinary line. -/
theorem marker_iff_parts_tabs :
    read "\t-- \tname\t:\té-1 \t\r\r".toList = some ['é', '-', '1'] ∧
      (∀ p : Parts, p.line = "\t-- \tname\t:\té-1 \t\r\r".toList → p.beforeWord = [' ', '\t']) ∧
      read "\t-- \tname\t:\té;1 \t\r\r".toList = none := by
  have hname : ∀ c ∈ ['é', '-', '1'], isNameChar c = true := by
    simp only [List.forall_mem_cons, List.not_mem_nil, false_imp_iff, implies_true, and_true]
    decide +kernel
  let parts : Parts :=
    { beforeDashes := ['\t'], beforeWord := [' ', '\t'], beforeColon := ['\t']
      beforeName := ['\t'], name := ['é', '-', '1'], afterName := [' ', '\t'], returns := 2
      beforeDashes_gap := by simp [Gap, isGap]
      beforeWord_gap := by simp [Gap, isGap]
      beforeColon_gap := by simp [Gap, isGap]
      beforeName_gap := by simp [Gap, isGap]
      name_ne := List.cons_ne_nil _ _
      name_chars := hname
      afterName_gap := by simp [Gap, isGap] }
  have hparts : parts.line = "\t-- \tname\t:\té-1 \t\r\r".toList := rfl
  obtain ⟨hread, hunique, -⟩ := marker_iff_parts "\t-- \tname\t:\té-1 \t\r\r".toList
  obtain ⟨-, -, -, hother, -⟩ := marker_iff_parts "\t-- \tname\t:\té;1 \t\r\r".toList
  refine ⟨(hread _).mpr ⟨parts, hparts, rfl⟩, fun p hp => ?_, ?_⟩
  · rw [hunique p parts hp hparts]
  · exact hother ';' (by decide) (by decide) (by decide +kernel) (by decide) (by decide)

end SqlTemplate.Marker
