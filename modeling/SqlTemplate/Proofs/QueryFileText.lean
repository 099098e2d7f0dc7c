import SqlTemplate.Proofs.QueryBlocks

/-!
Files that were written to hold queries, each below a marker line. `splitQueries` takes such a file
apart into the queries that were written, with either line end, with blank lines between the queries,
and whether or not the last line has its end.
-/

namespace SqlTemplate

open QueryBlock

/-! ### Marker lines -/

namespace Marker

variable {cs name : List Char}

def line (name : List Char) : List Char := ['-', '-', ' ', 'n', 'a', 'm', 'e', ':', ' '] ++ name

theorem withoutReturns_of_getLast? (h : cs.getLast? ≠ some '\r') : withoutReturns cs = cs := by
  rcases List.eq_nil_or_concat cs with rfl | ⟨before, c, rfl⟩
  · rfl
  · have hc : c ≠ '\r' := by simpa using h
    simp [withoutReturns, hc]

theorem withoutReturns_withoutReturn (cs : List Char) :
    withoutReturns (Text.withoutReturn cs) = withoutReturns cs := by
  unfold Text.withoutReturn
  split
  · next hlast =>
    obtain ⟨before, rfl⟩ := List.getLast?_eq_some_iff.mp hlast
    simp [withoutReturns]
  · rfl

theorem read_withoutReturn (cs : List Char) : read (Text.withoutReturn cs) = read cs := by
  rw [read, withoutReturns_withoutReturn, read]

theorem notMem_name (hname : ∀ c ∈ name, isNameChar c = true) {c : Char}
    (hc : isNameChar c = false) : c ∉ name := by
  intro hmem
  rw [hname c hmem] at hc
  cases hc

theorem dropWhile_isGap_name (hname : ∀ c ∈ name, isNameChar c = true) :
    name.dropWhile isGap = name := by
  cases name with
  | nil => rfl
  | cons c rest =>
    have hspace : ' ' ∉ c :: rest := notMem_name hname (by decide +kernel)
    have htab : '\t' ∉ c :: rest := notMem_name hname (by decide +kernel)
    apply List.dropWhile_cons_of_neg
    rw [isGap, Bool.or_eq_true, beq_iff_eq, beq_iff_eq]
    rintro (rfl | rfl)
    · exact hspace List.mem_cons_self
    · exact htab List.mem_cons_self

theorem read_line (hne : name ≠ []) (hname : ∀ c ∈ name, isNameChar c = true) :
    read (line name) = some name := by
  have hreturns : withoutReturns (line name) = line name := by
    apply withoutReturns_of_getLast?
    rw [line, List.getLast?_append_of_ne_nil _ hne]
    intro hlast
    exact notMem_name hname (by decide +kernel) (List.mem_of_getLast? hlast)
  have hdashes : ['-', '-'].isPrefixOf? ((line name).dropWhile isGap) =
      some ([' ', 'n', 'a', 'm', 'e', ':', ' '] ++ name) := by
    rfl
  have hword : ['n', 'a', 'm', 'e'].isPrefixOf?
      (([' ', 'n', 'a', 'm', 'e', ':', ' '] ++ name).dropWhile isGap) = some (':' :: ' ' :: name) := by
    rfl
  have hcolon : [':'].isPrefixOf? ((':' :: ' ' :: name).dropWhile isGap) = some (' ' :: name) := by
    rfl
  have hgap : (' ' :: name).dropWhile isGap = name := by
    rw [List.dropWhile_cons_of_pos (by decide), dropWhile_isGap_name hname]
  simp only [read, hreturns, hdashes, hword, hcolon, hgap, Option.bind_eq_bind, Option.bind_some,
    List.takeWhile_eq_self_iff.mpr hname, List.dropWhile_eq_nil_iff.mpr hname]
  simp [hne]

theorem notMem_line (hname : ∀ c ∈ name, isNameChar c = true) {c : Char}
    (hstart : c ∉ line []) (hc : isNameChar c = false) : c ∉ line name := by
  rw [line, List.mem_append, not_or]
  exact ⟨by simpa [line] using hstart, notMem_name hname hc⟩

theorem read_eq_none_of_notMem (h : '-' ∉ cs) : read cs = none := by
  cases hprefix : ['-', '-'].isPrefixOf? ((withoutReturns cs).dropWhile isGap) with
  | none =>
    rw [read, hprefix]
    rfl
  | some rest =>
    rw [List.isPrefixOf?_eq_some_iff_append_eq] at hprefix
    have hmem : '-' ∈ (withoutReturns cs).dropWhile isGap := hprefix ▸ List.mem_cons_self
    have hreturns : '-' ∈ cs.reverse.dropWhile (· == '\r') :=
      List.mem_reverse.mp ((List.dropWhile_suffix isGap).subset hmem)
    exact absurd (List.mem_reverse.mp ((List.dropWhile_suffix _).subset hreturns)) h

theorem read_blank (h : Text.Blank cs) : read cs = none := by
  apply read_eq_none_of_notMem
  intro hdash
  exact absurd (h _ hdash) (by decide)

end Marker

/-! ### Line ends -/

inductive LineEnd where
  | feed
  | returnFeed
deriving DecidableEq, Repr

namespace LineEnd

def chars : LineEnd → List Char
  | .feed => ['\n']
  | .returnFeed => ['\r', '\n']

/-- What is read of a line that was written with this end. -/
def kept : LineEnd → List Char → List Char
  | .feed => Text.withoutReturn
  | .returnFeed => id

variable (e : LineEnd)

theorem kept_of_notMem {line : List Char} (h : '\r' ∉ line) : e.kept line = line := by
  cases e with
  | feed => exact Text.withoutReturn_of_notMem h
  | returnFeed => rfl

theorem kept_subset (line : List Char) : e.kept line ⊆ line := by
  cases e with
  | feed => exact Text.withoutReturn_subset line
  | returnFeed => exact List.Subset.refl line

theorem blank_kept {line : List Char} (h : Text.Blank line) : Text.Blank (e.kept line) :=
  fun c hc => h c (e.kept_subset line hc)

theorem lines_flatMap {ls : List (List Char)} (hls : ∀ line ∈ ls, '\n' ∉ line) :
    Text.lines (ls.flatMap (· ++ e.chars)) = ls.map e.kept := by
  cases e with
  | feed =>
    have hlines := Text.lines_ended_append hls List.not_mem_nil
    rw [List.append_nil] at hlines
    simpa [chars, kept] using hlines
  | returnFeed =>
    have hreturns : ∀ line ∈ ls.map (· ++ ['\r']), '\n' ∉ line := by
      simpa using hls
    have hlines := Text.lines_ended_append hreturns List.not_mem_nil
    rw [List.append_nil] at hlines
    simpa [chars, kept, List.flatMap_map, Function.comp_def] using hlines

theorem lines_append {ended : List (List Char)} (hended : ∀ line ∈ ended, '\n' ∉ line)
    {last : List Char} (hlast : '\n' ∉ last) :
    Text.lines (ended.flatMap (· ++ ['\n']) ++ last ++ e.chars) =
      ended.map Text.withoutReturn ++ [e.kept last] := by
  cases e with
  | feed =>
    have hlines : ∀ line ∈ ended ++ [last], '\n' ∉ line :=
      List.forall_mem_append.mpr ⟨hended, List.forall_mem_singleton.mpr hlast⟩
    simpa [chars, kept] using Text.lines_ended_append hlines List.not_mem_nil
  | returnFeed =>
    have hlines : ∀ line ∈ ended ++ [last ++ ['\r']], '\n' ∉ line :=
      List.forall_mem_append.mpr ⟨hended, List.forall_mem_singleton.mpr (by simpa using hlast)⟩
    simpa [chars, kept] using Text.lines_ended_append hlines List.not_mem_nil

end LineEnd

/-! ### The end of the last line -/

namespace QueryBlock

/-- Below any lines, these lines and those make the same queries. -/
def SameQueries (these those : List (List Char)) : Prop :=
  (∀ above, body (above ++ (cut these).1) = body (above ++ (cut those).1)) ∧
    (cut these).2.map (fun b => (b.name, body b.lines)) =
      (cut those).2.map (fun b => (b.name, body b.lines))

namespace SameQueries

variable {these those : List (List Char)}

theorem append_left (h : SameQueries these those) (above : List (List Char)) :
    SameQueries (above ++ these) (above ++ those) := by
  induction above with
  | nil => exact h
  | cons line above ih =>
    obtain ⟨hleading, hblocks⟩ := ih
    rw [SameQueries, List.cons_append, List.cons_append]
    cases hline : Marker.read line with
    | none =>
      have hcut : ∀ rest, cut (line :: rest) = (line :: (cut rest).1, (cut rest).2) := by
        intro rest
        rw [cut, hline]
      rw [hcut, hcut]
      refine ⟨fun further => ?_, hblocks⟩
      rw [List.append_cons, hleading, ← List.append_cons]
    | some name =>
      have hbody : body (cut (above ++ these)).1 = body (cut (above ++ those)).1 := hleading []
      rw [cut_marker hline, cut_marker hline]
      refine ⟨fun further => rfl, ?_⟩
      rw [List.map_cons, List.map_cons, hblocks, hbody]

theorem of_plain (hthese : ∀ line ∈ these, Marker.read line = none)
    (hthose : ∀ line ∈ those, Marker.read line = none)
    (hbody : ∀ above, body (above ++ these) = body (above ++ those)) : SameQueries these those := by
  have hcut : ∀ {ls : List (List Char)}, (∀ line ∈ ls, Marker.read line = none) →
      cut ls = (ls, []) := by
    intro ls hls
    simpa [cut] using cut_plain_append hls []
  rw [SameQueries, hcut hthese, hcut hthose]
  exact ⟨hbody, rfl⟩

end SameQueries

theorem body_append_of_blank {below : List (List Char)} (hbelow : ∀ line ∈ below, Text.Blank line)
    (ls : List (List Char)) : body (ls ++ below) = body ls := by
  obtain ⟨tail, htail, heq⟩ := Text.exists_unlines_append hbelow ls
  rw [body, heq, Text.trim_append_of_blank _ htail, body]

theorem body_concat_withoutReturn (above : List (List Char)) (line : List Char) :
    body (above ++ [Text.withoutReturn line]) = body (above ++ [line]) := by
  unfold Text.withoutReturn
  split
  · next hlast =>
    obtain ⟨before, rfl⟩ := List.getLast?_eq_some_iff.mp hlast
    have hreturn : Text.Blank ['\r'] := Text.blank_nil.cons (by decide)
    rw [List.dropLast_concat, body, body, Text.unlines_concat, Text.unlines_concat,
      ← List.append_assoc, Text.trim_append_of_blank _ hreturn]
  · rfl

theorem sameQueries_lineEnd (e : LineEnd) (last : List Char) :
    SameQueries (if last.isEmpty then [] else [last]) [e.kept last] := by
  split
  · next hempty =>
    have hkept : e.kept last = [] := by
      rw [List.isEmpty_iff.mp hempty, e.kept_of_notMem List.not_mem_nil]
    have hblank : ∀ line ∈ [e.kept last], Text.Blank line :=
      List.forall_mem_singleton.mpr (hkept ▸ Text.blank_nil)
    apply SameQueries.of_plain
    · exact List.forall_mem_nil _
    · exact fun line hline => Marker.read_blank (hblank line hline)
    · intro above
      rw [body_append_of_blank hblank, List.append_nil]
  · cases e with
    | returnFeed => exact ⟨fun _ => rfl, rfl⟩
    | feed =>
      rw [LineEnd.kept]
      cases hlast : Marker.read last with
      | none =>
        apply SameQueries.of_plain
        · exact List.forall_mem_singleton.mpr hlast
        · exact List.forall_mem_singleton.mpr ((Marker.read_withoutReturn last).trans hlast)
        · exact fun above => (body_concat_withoutReturn above last).symm
      | some name =>
        rw [SameQueries, cut_marker hlast,
          cut_marker ((Marker.read_withoutReturn last).trans hlast)]
        exact ⟨fun _ => rfl, rfl⟩

end QueryBlock

theorem splitQueries_congr {text text' : String}
    (h : SameQueries (Text.lines text.toList) (Text.lines text'.toList)) (path : String) :
    splitQueries text path = splitQueries text' path := by
  obtain ⟨hleading, hblocks⟩ := h
  have hstart : body (cut (Text.lines text.toList)).1 = body (cut (Text.lines text'.toList)).1 :=
    hleading []
  rw [splitQueries, splitQueries]
  generalize cut (Text.lines text.toList) = these at hblocks hstart ⊢
  generalize cut (Text.lines text'.toList) = those at hblocks hstart ⊢
  obtain ⟨leading, blocks⟩ := these
  obtain ⟨leading', blocks'⟩ := those
  have hnames : blocks.map QueryBlock.name = blocks'.map QueryBlock.name := by
    simpa [Function.comp_def] using congrArg (List.map Prod.fst) hblocks
  have hempty : blocks.isEmpty = blocks'.isEmpty := by
    simpa using congrArg List.isEmpty hblocks
  have hpairs : blocks.map (fun b => (String.ofList b.name, String.ofList (body b.lines))) =
      blocks'.map (fun b => (String.ofList b.name, String.ofList (body b.lines))) := by
    simpa [Function.comp_def] using
      congrArg (List.map fun pair => (String.ofList pair.1, String.ofList pair.2)) hblocks
  simp only [hnames, hempty, hpairs, hstart]

/-- A file may lack the end of its last line. -/
theorem splitQueries_append_lineEnd (e : LineEnd) (text path : String) :
    splitQueries (text ++ String.ofList e.chars) path = splitQueries text path := by
  obtain ⟨ended, last, hended, hlast, htext⟩ := Text.exists_ended_append text.toList
  refine (splitQueries_congr ?_ path).symm
  rw [String.toList_append, String.toList_ofList, htext, e.lines_append hended hlast,
    Text.lines_ended_append hended hlast]
  exact (sameQueries_lineEnd e last).append_left _

/-! ### Written files -/

/-- White space that fits on one line. -/
structure BlankLine where
  chars : List Char
  blank : Text.Blank chars
  feed_notMem : '\n' ∉ chars

/-- A query to be written to a file, with the blank lines below it. -/
structure WrittenQuery where
  name : String
  sql : String
  below : List BlankLine
  name_ne : name.toList ≠ []
  name_chars : ∀ c ∈ name.toList, Marker.isNameChar c = true
  sql_trimmed : Text.trim sql.toList = sql.toList
  sql_return : '\r' ∉ sql.toList
  sql_plain : ∀ line ∈ Text.lines sql.toList, Marker.read line = none

/-- The lines of a file with blank lines above its first marker. -/
def writtenLines (above : List BlankLine) (queries : List WrittenQuery) : List (List Char) :=
  above.map BlankLine.chars ++ queries.flatMap fun q =>
    Marker.line q.name.toList :: (Text.lines q.sql.toList ++ q.below.map BlankLine.chars)

def writtenText (e : LineEnd) (above : List BlankLine) (queries : List WrittenQuery) : String :=
  String.ofList ((writtenLines above queries).flatMap (· ++ e.chars))

section Written

variable (e : LineEnd) (above : List BlankLine) (queries : List WrittenQuery)

theorem feed_notMem_writtenLines : ∀ line ∈ writtenLines above queries, '\n' ∉ line := by
  have hblank : ∀ blanks : List BlankLine, ∀ line ∈ blanks.map BlankLine.chars, '\n' ∉ line := by
    intro blanks
    exact List.forall_mem_map.mpr fun b _ => b.feed_notMem
  rw [writtenLines, List.forall_mem_append]
  refine ⟨hblank above, fun line hline => ?_⟩
  obtain ⟨q, -, hq⟩ := List.mem_flatMap.mp hline
  rw [List.mem_cons, List.mem_append] at hq
  rcases hq with rfl | hsql | hbelow
  · exact Marker.notMem_line q.name_chars (by decide) (by decide +kernel)
  · exact (Text.of_mem_lines hsql).1
  · exact hblank q.below line hbelow

theorem lines_writtenText : Text.lines (writtenText e above queries).toList =
    (above.map fun b => e.kept b.chars) ++ queries.flatMap fun q =>
      Marker.line q.name.toList ::
        (Text.lines q.sql.toList ++ q.below.map fun b => e.kept b.chars) := by
  have hquery : ∀ q : WrittenQuery,
      (Marker.line q.name.toList ::
          (Text.lines q.sql.toList ++ q.below.map BlankLine.chars)).map e.kept =
        Marker.line q.name.toList ::
          (Text.lines q.sql.toList ++ q.below.map fun b => e.kept b.chars) := by
    intro q
    have hmarker : '\r' ∉ Marker.line q.name.toList :=
      Marker.notMem_line q.name_chars (by decide) (by decide +kernel)
    have hsql : (Text.lines q.sql.toList).map e.kept = Text.lines q.sql.toList := by
      rw [List.map_congr_left (g := id), List.map_id]
      intro line hline
      exact e.kept_of_notMem fun hreturn => q.sql_return ((Text.of_mem_lines hline).2 hreturn)
    rw [List.map_cons, List.map_append, hsql, List.map_map, e.kept_of_notMem hmarker]
    rfl
  rw [writtenText, String.toList_ofList, e.lines_flatMap (feed_notMem_writtenLines above queries),
    writtenLines, List.map_append, List.map_map, List.map_flatMap]
  simp only [hquery]
  rfl

theorem blank_kept_below (blanks : List BlankLine) :
    ∀ line ∈ blanks.map fun b => e.kept b.chars, Text.Blank line :=
  List.forall_mem_map.mpr fun b _ => e.blank_kept b.blank

/-- The lines of the file as its markers divide them. -/
def writtenDivision : Division (Text.lines (writtenText e above queries).toList) where
  leading := above.map fun b => e.kept b.chars
  blocks := queries.map fun q =>
    (Marker.line q.name.toList,
      ⟨q.name.toList, Text.lines q.sql.toList ++ q.below.map fun b => e.kept b.chars⟩)
  lines_eq := by rw [lines_writtenText, List.flatMap_map]
  leading_plain line hline := Marker.read_blank (blank_kept_below e above line hline)
  marker b hb := by
    obtain ⟨q, -, rfl⟩ := List.mem_map.mp hb
    exact Marker.read_line q.name_ne q.name_chars
  block_plain b hb := by
    obtain ⟨q, -, rfl⟩ := List.mem_map.mp hb
    rw [List.forall_mem_append]
    exact ⟨q.sql_plain, fun line hline => Marker.read_blank (blank_kept_below e q.below line hline)⟩

theorem pairs_writtenDivision :
    (writtenDivision e above queries).pairs = queries.map fun q => (q.name, q.sql) := by
  rw [Division.pairs, writtenDivision, List.map_map]
  apply List.map_congr_left
  intro q _
  have hreturn : ¬['\r', '\n'] <:+: q.sql.toList :=
    fun h => q.sql_return (h.subset List.mem_cons_self)
  have hbody : body (Text.lines q.sql.toList ++ q.below.map fun b => e.kept b.chars) =
      q.sql.toList := by
    calc body (Text.lines q.sql.toList ++ q.below.map fun b => e.kept b.chars)
        = body (Text.lines q.sql.toList) := body_append_of_blank (blank_kept_below e q.below) _
      _ = Text.trim q.sql.toList := Text.trim_unlines_lines hreturn
      _ = q.sql.toList := q.sql_trimmed
  simp only [Function.comp_apply, hbody, String.ofList_toList]

variable {queries}

theorem splitQueries_writtenText (hnames : (queries.map WrittenQuery.name).Nodup) (path : String) :
    splitQueries (writtenText e above queries) path =
      .ok (queries.map fun q => (q.name, q.sql)) := by
  have hnodup : (writtenDivision e above queries).names.Nodup := by
    have hmap : (writtenDivision e above queries).names =
        (queries.map WrittenQuery.name).map String.toList := by
      simp [Division.names, writtenDivision]
    rw [hmap]
    exact hnames.map fun _ _ => String.toList_injective
  cases queries with
  | nil =>
    have hblank : Text.Blank (Text.unlines (Text.lines (writtenText e above []).toList)) := by
      rw [lines_writtenText, List.flatMap_nil, List.append_nil]
      exact Text.blank_unlines (blank_kept_below e above)
    rw [splitQueries_of_no_marker (writtenDivision e above []) rfl,
      if_pos (body_isEmpty_iff.mpr hblank), List.map_nil]
  | cons q queries =>
    have hstart : (writtenDivision e above (q :: queries)).StartsBlank :=
      Text.blank_unlines (blank_kept_below e above)
    rw [splitQueries_of_markers _ hnodup (List.cons_ne_nil _ _) hstart, pairs_writtenDivision]

/-- A written file is split into the queries that were written. -/
theorem splitQueries_written (hnames : (queries.map WrittenQuery.name).Nodup) {text : String}
    (htext : text = writtenText e above queries ∨
      text ++ String.ofList e.chars = writtenText e above queries) (path : String) :
    splitQueries text path = .ok (queries.map fun q => (q.name, q.sql)) := by
  rcases htext with rfl | htext
  · exact splitQueries_writtenText e above hnames path
  · rw [← splitQueries_append_lineEnd e, htext, splitQueries_writtenText e above hnames]

end Written

/-- An inner blank line, an indented line, and a query without text. -/
def twoQueries : List WrittenQuery :=
  [{ name := "by_id"
     sql := "SELECT 1\n\n  FROM t"
     below := [⟨[' '], Text.blank_nil.cons (by decide), by decide⟩]
     name_ne := by decide
     name_chars := List.all_eq_true.mp (by decide +kernel)
     sql_trimmed := by decide +kernel
     sql_return := by decide
     sql_plain := by decide +kernel },
   { name := "b-2"
     sql := ""
     below := []
     name_ne := by decide
     name_chars := List.all_eq_true.mp (by decide +kernel)
     sql_trimmed := by decide
     sql_return := by decide
     sql_plain := by decide }]

theorem splitQueries_two :
    (twoQueries.map WrittenQuery.name).Nodup ∧
    splitQueries "\r\n-- name: by_id\r\nSELECT 1\r\n\r\n  FROM t\r\n \r\n-- name: b-2" "x.sql" =
      .ok [("by_id", "SELECT 1\n\n  FROM t"), ("b-2", "")] := by
  have hnames : (twoQueries.map WrittenQuery.name).Nodup := by decide
  exact ⟨hnames, splitQueries_written .returnFeed [⟨[], Text.blank_nil, List.not_mem_nil⟩] hnames
    (.inr (by decide +kernel)) "x.sql"⟩

end SqlTemplate
