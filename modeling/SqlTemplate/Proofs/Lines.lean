import Mathlib.Data.List.TakeWhile
import SqlTemplate.Text.Blank
import SqlTemplate.Text.Line

/-!
The lines of a text, and what is left of them when they are put back together. No character but white
space is lost (`filter_unlines_lines`), and a text without a carriage return before a line feed comes
back whole up to a line feed at its end (`trim_unlines_lines`).
-/

namespace SqlTemplate.Text

/-! ### White space and trimming -/

/-- White space only. -/
def Blank (cs : List Char) : Prop := ∀ c ∈ cs, isBlank c = true

theorem blank_nil : Blank [] := fun _ hc => absurd hc List.not_mem_nil

theorem blank_append {before after : List Char} :
    Blank (before ++ after) ↔ Blank before ∧ Blank after :=
  List.forall_mem_append

theorem Blank.cons {c : Char} {cs : List Char} (hc : isBlank c = true) (hcs : Blank cs) :
    Blank (c :: cs) :=
  List.forall_mem_cons.mpr ⟨hc, hcs⟩

theorem trim_eq_nil_iff {cs : List Char} : trim cs = [] ↔ Blank cs := by
  rw [trim, List.reverse_eq_nil_iff, List.dropWhile_eq_nil_iff]
  simp only [List.mem_reverse]
  constructor
  · intro h c hc
    rw [← List.takeWhile_append_dropWhile (p := isBlank) (l := cs), List.mem_append] at hc
    exact hc.elim List.mem_takeWhile_imp (h c)
  · exact fun h c hc => h c ((List.dropWhile_suffix isBlank).subset hc)

theorem trim_append_of_blank (cs : List Char) {tail : List Char} (htail : Blank tail) :
    trim (cs ++ tail) = trim cs := by
  have hdrop : tail.reverse.dropWhile isBlank = [] := by
    apply List.dropWhile_eq_nil_iff.mpr
    exact fun c hc => htail c (List.mem_reverse.mp hc)
  rw [trim, trim, List.dropWhile_append]
  split
  · next hempty =>
    rw [List.isEmpty_iff.mp hempty, List.dropWhile_eq_nil_iff.mpr htail]
  · rw [List.reverse_append, List.dropWhile_append, hdrop]
    rfl

/-! ### One line after the other -/

@[simp]
theorem lines_nil : lines [] = [] := rfl

theorem lines_append_cons {line : List Char} (hline : '\n' ∉ line) (rest : List Char) :
    lines (line ++ '\n' :: rest) = withoutReturn line :: lines rest := by
  rw [lines, List.splitOn_append_cons_self_of_not_mem hline, lines]
  obtain ⟨piece, pieces, hpieces⟩ := List.exists_cons_of_ne_nil (List.splitOn_ne_nil '\n' rest)
  rw [hpieces]
  rfl

/-- The lines that are ended lose a carriage return, and what is left after them does not. -/
theorem lines_ended_append {ended : List (List Char)} (hended : ∀ line ∈ ended, '\n' ∉ line)
    {last : List Char} (hlast : '\n' ∉ last) :
    lines (ended.flatMap (· ++ ['\n']) ++ last) =
      ended.map withoutReturn ++ if last.isEmpty then [] else [last] := by
  induction ended with
  | nil =>
    rw [List.flatMap_nil, List.nil_append, lines, List.splitOn_eq_singleton hlast]
    rfl
  | cons line ended ih =>
    obtain ⟨hline, hrest⟩ := List.forall_mem_cons.mp hended
    rw [List.flatMap_cons, List.append_assoc, List.append_assoc, List.singleton_append,
      lines_append_cons hline, ih hrest, List.map_cons, List.cons_append]

theorem exists_ended_append (text : List Char) :
    ∃ (ended : List (List Char)) (last : List Char), (∀ line ∈ ended, '\n' ∉ line) ∧ '\n' ∉ last ∧
      text = ended.flatMap (· ++ ['\n']) ++ last := by
  induction text with
  | nil => exact ⟨[], [], by simp, by simp, rfl⟩
  | cons c text ih =>
    obtain ⟨ended, last, hended, hlast, rfl⟩ := ih
    by_cases hc : c = '\n'
    · subst hc
      exact ⟨[] :: ended, last, List.forall_mem_cons.mpr ⟨by simp, hended⟩, hlast, rfl⟩
    · cases ended with
      | nil => exact ⟨[], c :: last, hended, by simpa [Ne.symm hc] using hlast, rfl⟩
      | cons line ended =>
        obtain ⟨hline, hrest⟩ := List.forall_mem_cons.mp hended
        have hlines : '\n' ∉ c :: line := by simpa [Ne.symm hc] using hline
        exact ⟨(c :: line) :: ended, last, List.forall_mem_cons.mpr ⟨hlines, hrest⟩, hlast, rfl⟩

theorem withoutReturn_subset (line : List Char) : withoutReturn line ⊆ line := by
  unfold withoutReturn
  split
  · exact List.dropLast_subset line
  · exact List.Subset.refl line

theorem of_mem_lines {text line : List Char} (h : line ∈ lines text) : '\n' ∉ line ∧ line ⊆ text := by
  obtain ⟨ended, last, hended, hlast, rfl⟩ := exists_ended_append text
  rw [lines_ended_append hended hlast, List.mem_append, List.mem_map] at h
  rcases h with ⟨whole, hwhole, rfl⟩ | h
  · refine ⟨fun hfeed => hended whole hwhole (withoutReturn_subset whole hfeed), fun c hc => ?_⟩
    exact List.mem_append_left _ (List.mem_flatMap.mpr
      ⟨whole, hwhole, List.mem_append_left _ (withoutReturn_subset whole hc)⟩)
  · have hlines : line = last := by
      split at h
      · exact absurd h List.not_mem_nil
      · exact List.mem_singleton.mp h
    subst hlines
    exact ⟨hlast, List.subset_append_right _ _⟩

theorem withoutReturn_of_notMem {line : List Char} (h : '\r' ∉ line) : withoutReturn line = line :=
  if_neg fun hlast => h (List.mem_of_getLast? hlast)

@[simp]
theorem withoutReturn_append_return (line : List Char) : withoutReturn (line ++ ['\r']) = line := by
  rw [withoutReturn, if_pos (by simp), List.dropLast_concat]

/-! ### Back together -/

theorem unlines_cons_cons (line next : List Char) (ls : List (List Char)) :
    unlines (line :: next :: ls) = line ++ '\n' :: unlines (next :: ls) := by
  rw [unlines, List.intercalate_cons_cons, List.append_assoc]
  rfl

theorem unlines_concat (ended : List (List Char)) (last : List Char) :
    unlines (ended ++ [last]) = ended.flatMap (· ++ ['\n']) ++ last := by
  induction ended with
  | nil => simp [unlines]
  | cons line ended ih =>
    obtain ⟨next, ls, hls⟩ := List.exists_cons_of_ne_nil (List.concat_ne_nil last ended)
    rw [List.cons_append, hls, unlines_cons_cons, ← hls, ih]
    simp

theorem blank_unlines {ls : List (List Char)} (h : ∀ line ∈ ls, Blank line) :
    Blank (unlines ls) := by
  induction ls with
  | nil => exact blank_nil
  | cons line ls ih =>
    obtain ⟨hline, hrest⟩ := List.forall_mem_cons.mp h
    cases ls with
    | nil => simpa [unlines] using hline
    | cons next ls =>
      rw [unlines_cons_cons, blank_append]
      exact ⟨hline, (ih hrest).cons (by decide)⟩

/-- Blank lines at the end only add white space. -/
theorem exists_unlines_append {blanks : List (List Char)} (hblanks : ∀ line ∈ blanks, Blank line)
    (ls : List (List Char)) :
    ∃ tail, Blank tail ∧ unlines (ls ++ blanks) = unlines ls ++ tail := by
  induction ls with
  | nil => exact ⟨unlines blanks, blank_unlines hblanks, rfl⟩
  | cons line ls ih =>
    obtain ⟨tail, htail, heq⟩ := ih
    cases ls with
    | nil =>
      cases blanks with
      | nil => exact ⟨[], blank_nil, by simp⟩
      | cons next blanks =>
        refine ⟨'\n' :: tail, htail.cons (by decide), ?_⟩
        rw [List.nil_append] at heq
        rw [List.cons_append, List.nil_append, unlines_cons_cons, heq]
        simp [unlines]
    | cons next ls =>
      refine ⟨tail, htail, ?_⟩
      rw [List.cons_append, List.cons_append, unlines_cons_cons, ← List.cons_append, heq,
        unlines_cons_cons, List.append_assoc, List.cons_append]

variable {keep : Char → Bool}

theorem filter_unlines (hfeed : keep '\n' = false) (ls : List (List Char)) :
    (unlines ls).filter keep = ls.flatMap (List.filter keep) := by
  induction ls with
  | nil => rfl
  | cons line ls ih =>
    cases ls with
    | nil => simp [unlines]
    | cons next ls =>
      rw [unlines_cons_cons, List.filter_append, List.filter_cons_of_neg (by simp [hfeed]), ih]
      rfl

theorem filter_withoutReturn (hreturn : keep '\r' = false) (line : List Char) :
    (withoutReturn line).filter keep = line.filter keep := by
  unfold withoutReturn
  split
  · next hlast =>
    obtain ⟨before, rfl⟩ := List.getLast?_eq_some_iff.mp hlast
    simp [hreturn]
  · rfl

theorem filter_unlines_lines (hfeed : keep '\n' = false) (hreturn : keep '\r' = false)
    (text : List Char) : (unlines (lines text)).filter keep = text.filter keep := by
  obtain ⟨ended, last, hended, hlast, rfl⟩ := exists_ended_append text
  have hlines : (ended.map withoutReturn).flatMap (List.filter keep) =
      ended.flatMap (List.filter keep) := by
    rw [List.flatMap_map]
    exact congrArg (ended.flatMap ·) (funext fun line => filter_withoutReturn hreturn line)
  rw [filter_unlines hfeed, lines_ended_append hended hlast, List.flatMap_append, hlines,
    List.filter_append, List.filter_flatMap]
  congr 1
  · simp [hfeed]
  · split
    · next hempty => simp [List.isEmpty_iff.mp hempty]
    · simp

theorem blank_unlines_lines_iff {text : List Char} : Blank (unlines (lines text)) ↔ Blank text := by
  have hblank : ∀ cs : List Char, Blank cs ↔ cs.filter (fun c => !isBlank c) = [] := by
    intro cs
    simp [Blank, List.filter_eq_nil_iff]
  rw [hblank, hblank, filter_unlines_lines (by decide) (by decide)]

theorem trim_unlines_lines {text : List Char} (h : ¬['\r', '\n'] <:+: text) :
    trim (unlines (lines text)) = trim text := by
  obtain ⟨ended, last, hended, hlast, rfl⟩ := exists_ended_append text
  have hkept : ended.map withoutReturn = ended := by
    rw [List.map_congr_left (g := id), List.map_id]
    intro line hline
    apply if_neg
    intro hreturn
    obtain ⟨before, rfl⟩ := List.getLast?_eq_some_iff.mp hreturn
    obtain ⟨lines, lines', rfl⟩ := List.append_of_mem hline
    exact h ⟨lines.flatMap (· ++ ['\n']) ++ before,
      lines'.flatMap (· ++ ['\n']) ++ last, by simp⟩
  rw [lines_ended_append hended hlast, hkept, ← unlines_concat]
  split
  · next hempty =>
    have hempties : ∀ line ∈ [[]], Blank line := List.forall_mem_singleton.mpr blank_nil
    obtain ⟨tail, htail, heq⟩ := exists_unlines_append hempties ended
    rw [List.isEmpty_iff.mp hempty, heq, trim_append_of_blank _ htail, List.append_nil]
  · rfl

end SqlTemplate.Text
