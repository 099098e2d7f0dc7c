import Mathlib.Data.List.Nodup
import SqlTemplate.Proofs.Lines
import SqlTemplate.Proofs.Outcome
import SqlTemplate.QueryFile

/-!
The queries of a file. Its marker lines divide the lines of the file, and the division alone settles
what `splitQueries` gives: the first name that stands on two markers, or else the path of a file that
mixes the two kinds, or else the queries in the order of the file. A file that was read has each name
once, so a name finds its own query.
-/

namespace SqlTemplate

namespace QueryBlock

/-- The lines of a file divided by its markers: the lines before the first marker, then each marker
line with its block. -/
structure Division (ls : List (List Char)) where
  leading : List (List Char)
  blocks : List (List Char × QueryBlock)
  lines_eq : ls = leading ++ blocks.flatMap fun b => b.1 :: b.2.lines
  leading_plain : ∀ line ∈ leading, Marker.read line = none
  marker : ∀ b ∈ blocks, Marker.read b.1 = some b.2.name
  block_plain : ∀ b ∈ blocks, ∀ line ∈ b.2.lines, Marker.read line = none

theorem cut_plain_append {plain : List (List Char)}
    (hplain : ∀ line ∈ plain, Marker.read line = none) (rest : List (List Char)) :
    cut (plain ++ rest) = (plain ++ (cut rest).1, (cut rest).2) := by
  induction plain with
  | nil => rfl
  | cons line plain ih =>
    obtain ⟨hline, hrest⟩ := List.forall_mem_cons.mp hplain
    rw [List.cons_append, cut, ih hrest, hline]
    rfl

theorem cut_marker {line name : List Char} (hline : Marker.read line = some name)
    (rest : List (List Char)) :
    cut (line :: rest) = ([], ⟨name, (cut rest).1⟩ :: (cut rest).2) := by
  rw [cut, hline]

namespace Division

variable {ls : List (List Char)}

theorem nonempty (ls : List (List Char)) : Nonempty (Division ls) := by
  induction ls with
  | nil => exact ⟨⟨[], [], rfl, by simp, by simp, by simp⟩⟩
  | cons line ls ih =>
    obtain ⟨d⟩ := ih
    cases hline : Marker.read line with
    | none =>
      have hlines : line :: ls = line :: d.leading ++ d.blocks.flatMap fun b => b.1 :: b.2.lines :=
        congrArg (line :: ·) d.lines_eq
      exact ⟨⟨line :: d.leading, d.blocks, hlines,
        List.forall_mem_cons.mpr ⟨hline, d.leading_plain⟩, d.marker, d.block_plain⟩⟩
    | some name =>
      have hlines : line :: ls = [] ++
          ((line, ⟨name, d.leading⟩) :: d.blocks).flatMap fun b => b.1 :: b.2.lines :=
        congrArg (line :: ·) d.lines_eq
      exact ⟨⟨[], (line, ⟨name, d.leading⟩) :: d.blocks, hlines, by simp,
        List.forall_mem_cons.mpr ⟨hline, d.marker⟩,
        List.forall_mem_cons.mpr ⟨d.leading_plain, d.block_plain⟩⟩⟩

theorem cut_blocks {blocks : List (List Char × QueryBlock)}
    (hmarker : ∀ b ∈ blocks, Marker.read b.1 = some b.2.name)
    (hplain : ∀ b ∈ blocks, ∀ line ∈ b.2.lines, Marker.read line = none) :
    cut (blocks.flatMap fun b => b.1 :: b.2.lines) = ([], blocks.map Prod.snd) := by
  induction blocks with
  | nil => rfl
  | cons b blocks ih =>
    obtain ⟨hmarker, hmarkers⟩ := List.forall_mem_cons.mp hmarker
    obtain ⟨hplain, hplains⟩ := List.forall_mem_cons.mp hplain
    rw [List.flatMap_cons, List.cons_append, cut_marker hmarker, cut_plain_append hplain,
      ih hmarkers hplains, List.append_nil, List.map_cons]

theorem cut_eq (d : Division ls) : cut ls = (d.leading, d.blocks.map Prod.snd) := by
  conv_lhs => rw [d.lines_eq]
  rw [cut_plain_append d.leading_plain, cut_blocks d.marker d.block_plain, List.append_nil]

/-- The names on the markers, in the order of the file. -/
def names (d : Division ls) : List (List Char) := d.blocks.map fun b => b.2.name

/-- The names with the SQL text of their blocks. -/
def pairs (d : Division ls) : List (String × String) :=
  d.blocks.map fun b => (String.ofList b.2.name, String.ofList (body b.2.lines))

/-- The first marker that repeats the name of an earlier one has this name. -/
def FirstRepeated (d : Division ls) (name : List Char) : Prop :=
  ∃ before after, d.names = before ++ name :: after ∧ before.Nodup ∧ name ∈ before

/-- Nothing but white space stands before the first marker. -/
def StartsBlank (d : Division ls) : Prop := Text.Blank (Text.unlines d.leading)

end Division

/-! ### The first name that is repeated -/

theorem firstRepeated_eq_some_iff {names : List (List Char)} {name : List Char} :
    ∀ {seen : List (List Char)}, seen.Nodup →
      (firstRepeated seen names = some name ↔ ∃ before after, names = before ++ name :: after ∧
        (before.reverse ++ seen).Nodup ∧ name ∈ before.reverse ++ seen) := by
  induction names with
  | nil => simp [firstRepeated]
  | cons first names ih =>
    intro seen hseen
    by_cases hfirst : first ∈ seen
    · rw [firstRepeated, if_pos hfirst, Option.some.injEq]
      constructor
      · rintro rfl
        exact ⟨[], names, rfl, hseen, hfirst⟩
      · rintro ⟨before, after, heq, hnodup, -⟩
        cases before with
        | nil => exact (List.cons.inj heq).1
        | cons head before =>
          obtain ⟨rfl, -⟩ := List.cons.inj heq
          rw [List.reverse_cons, List.append_assoc, List.singleton_append] at hnodup
          exact absurd hfirst (List.nodup_cons.mp hnodup.of_append_right).1
    · rw [firstRepeated, if_neg hfirst, ih (List.nodup_cons.mpr ⟨hfirst, hseen⟩)]
      constructor
      · rintro ⟨before, after, rfl, hnodup, hname⟩
        exact ⟨first :: before, after, rfl, by simpa using hnodup, by simpa using hname⟩
      · rintro ⟨before, after, heq, hnodup, hname⟩
        cases before with
        | nil =>
          obtain ⟨rfl, -⟩ := List.cons.inj heq
          exact absurd hname hfirst
        | cons head before =>
          obtain ⟨rfl, rfl⟩ := List.cons.inj heq
          exact ⟨before, after, rfl, by simpa using hnodup, by simpa using hname⟩

theorem firstRepeated_eq_none_iff {names : List (List Char)} :
    ∀ {seen : List (List Char)}, seen.Nodup →
      (firstRepeated seen names = none ↔ (names.reverse ++ seen).Nodup) := by
  induction names with
  | nil => simp [firstRepeated]
  | cons first names ih =>
    intro seen hseen
    rw [List.reverse_cons, List.append_assoc, List.singleton_append]
    by_cases hfirst : first ∈ seen
    · rw [firstRepeated, if_pos hfirst]
      constructor
      · intro h
        cases h
      · intro hnodup
        exact absurd hfirst (List.nodup_cons.mp hnodup.of_append_right).1
    · rw [firstRepeated, if_neg hfirst, ih (List.nodup_cons.mpr ⟨hfirst, hseen⟩)]

theorem body_isEmpty_iff {ls : List (List Char)} :
    (body ls).isEmpty = true ↔ Text.Blank (Text.unlines ls) := by
  rw [List.isEmpty_iff, body, Text.trim_eq_nil_iff]

end QueryBlock

open QueryBlock

/-! ### The outcomes of a division -/

section Outcomes

variable {text path : String} (d : Division (Text.lines text.toList))

include d

theorem splitQueries_of_firstRepeated {name : List Char} (h : d.FirstRepeated name) :
    splitQueries text path = .error (.duplicateQuery (String.ofList name)) := by
  have hrepeated : firstRepeated [] d.names = some name := by
    rw [firstRepeated_eq_some_iff List.nodup_nil]
    simpa [Division.FirstRepeated] using h
  rw [splitQueries, d.cut_eq]
  simp only [List.map_map, Function.comp_def]
  rw [← Division.names, hrepeated]

theorem splitQueries_of_nodup (h : d.names.Nodup) :
    splitQueries text path =
      if d.blocks.isEmpty then
        .ok (if (body d.leading).isEmpty then []
          else [(defaultQueryName path, String.ofList (body d.leading))])
      else if !(body d.leading).isEmpty then .error (.mixedFile path)
      else .ok d.pairs := by
  have hnone : firstRepeated [] d.names = none := by
    rw [firstRepeated_eq_none_iff List.nodup_nil]
    simpa using h
  rw [splitQueries, d.cut_eq]
  simp only [List.map_map, Function.comp_def, List.isEmpty_map]
  rw [← Division.names, hnone]
  rfl

theorem names_nodup_or_firstRepeated : d.names.Nodup ∨ ∃ name, d.FirstRepeated name := by
  cases hfirst : firstRepeated [] d.names with
  | none =>
    left
    simpa using (firstRepeated_eq_none_iff List.nodup_nil).mp hfirst
  | some name =>
    right
    exact ⟨name, by simpa [Division.FirstRepeated] using
      (firstRepeated_eq_some_iff List.nodup_nil).mp hfirst⟩

theorem splitQueries_eq_duplicate_iff (name : String) :
    splitQueries text path = .error (.duplicateQuery name) ↔ d.FirstRepeated name.toList := by
  constructor
  · intro h
    rcases names_nodup_or_firstRepeated d with hnodup | ⟨other, hother⟩
    · rw [splitQueries_of_nodup d hnodup] at h
      split_ifs at h
      cases h
    · rw [splitQueries_of_firstRepeated d hother] at h
      cases h
      rwa [String.toList_ofList]
  · intro h
    rw [splitQueries_of_firstRepeated d h, String.ofList_toList]

theorem splitQueries_eq_mixed_iff (file : String) :
    splitQueries text path = .error (.mixedFile file) ↔
      file = path ∧ d.names.Nodup ∧ d.blocks ≠ [] ∧ ¬d.StartsBlank := by
  rw [Division.StartsBlank, ← body_isEmpty_iff, ne_eq, ← List.isEmpty_iff]
  constructor
  · intro h
    rcases names_nodup_or_firstRepeated d with hnodup | ⟨other, hother⟩
    · rw [splitQueries_of_nodup d hnodup] at h
      split_ifs at h with hblocks hleading
      cases h
      exact ⟨rfl, hnodup, hblocks, by simpa using hleading⟩
    · rw [splitQueries_of_firstRepeated d hother] at h
      cases h
  · rintro ⟨rfl, hnodup, hblocks, hleading⟩
    rw [splitQueries_of_nodup d hnodup, if_neg hblocks, if_pos (by simpa using hleading)]

theorem splitQueries_of_markers (hnodup : d.names.Nodup) (hblocks : d.blocks ≠ [])
    (hleading : d.StartsBlank) : splitQueries text path = .ok d.pairs := by
  rw [Division.StartsBlank, ← body_isEmpty_iff] at hleading
  rw [splitQueries_of_nodup d hnodup, if_neg (by simpa using hblocks), if_neg (by simpa using hleading)]

theorem splitQueries_of_no_marker (hblocks : d.blocks = []) :
    splitQueries text path =
      .ok (if (body (Text.lines text.toList)).isEmpty then []
        else [(defaultQueryName path, String.ofList (body (Text.lines text.toList)))]) := by
  have hleading : d.leading = Text.lines text.toList := by
    simpa [hblocks] using d.lines_eq.symm
  have hnodup : d.names.Nodup := by
    simp [Division.names, hblocks]
  rw [splitQueries_of_nodup d hnodup, if_pos (by simpa using hblocks), hleading]

end Outcomes

/-- What the text of a file gives, in terms of the division of its lines. -/
structure QueryBlock.Division.Decides {text : String} (d : Division (Text.lines text.toList))
    (path : String) : Prop where
  duplicate (name : String) :
    splitQueries text path = .error (.duplicateQuery name) ↔ d.FirstRepeated name.toList
  mixed (file : String) :
    splitQueries text path = .error (.mixedFile file) ↔
      file = path ∧ d.names.Nodup ∧ d.blocks ≠ [] ∧ ¬d.StartsBlank
  named :
    d.names.Nodup → d.blocks ≠ [] → d.StartsBlank → splitQueries text path = .ok d.pairs
  blank : d.blocks = [] → Text.Blank text.toList → splitQueries text path = .ok []
  unnamed :
    d.blocks = [] → ¬Text.Blank text.toList →
      splitQueries text path =
        .ok [(defaultQueryName path, String.ofList (body (Text.lines text.toList)))]
  /-- Only a carriage return before a line feed keeps the query from being the trimmed text. -/
  verbatim :
    ¬['\r', '\n'] <:+: text.toList → body (Text.lines text.toList) = Text.trim text.toList

theorem QueryBlock.Division.decides {text : String} (d : Division (Text.lines text.toList))
    (path : String) : d.Decides path where
  duplicate := splitQueries_eq_duplicate_iff d
  mixed := splitQueries_eq_mixed_iff d
  named := splitQueries_of_markers d
  blank hblocks hblank := by
    rw [splitQueries_of_no_marker d hblocks,
      if_pos (body_isEmpty_iff.mpr (Text.blank_unlines_lines_iff.mpr hblank))]
  unnamed hblocks hblank := by
    rw [splitQueries_of_no_marker d hblocks,
      if_neg (fun h => hblank (Text.blank_unlines_lines_iff.mp (body_isEmpty_iff.mp h)))]
  verbatim := Text.trim_unlines_lines

/-! ### Finding a query by its name -/

namespace QueryFile

variable {pairs : List (String × String)} {name sql : String}

def ofPairs (pairs : List (String × String)) : QueryFile :=
  ⟨pairs.map fun pair => Query.named pair.1 pair.2⟩

theorem ofText_eq_ok_iff {text path : String} {file : QueryFile} :
    ofText text path = .ok file ↔
      ∃ pairs, splitQueries text path = .ok pairs ∧ ofPairs pairs = file := by
  rw [ofText, bind_eq_ok_iff]
  exact exists_congr fun pairs => and_congr_right fun _ => ⟨Except.ok.inj, congrArg Except.ok⟩

theorem names_ofPairs (pairs : List (String × String)) :
    (ofPairs pairs).names = pairs.map Prod.fst := by
  rw [names, ofPairs, List.filterMap_map, ← List.filterMap_eq_map]
  rfl

theorem get?_ofPairs (pairs : List (String × String)) (name : String) :
    (ofPairs pairs).get? name =
      (pairs.find? (·.1 == name)).map fun pair => Query.named pair.1 pair.2 := by
  rw [get?, ofPairs, List.find?_map]
  rfl

theorem require_of_mem (hnodup : (pairs.map Prod.fst).Nodup) (hmem : (name, sql) ∈ pairs) :
    (ofPairs pairs).require name = .ok (Query.named name sql) := by
  have hfind : pairs.find? (·.1 == name) = some (name, sql) := by
    obtain ⟨before, after, rfl⟩ := List.append_of_mem hmem
    rw [List.find?_eq_some_iff_append]
    refine ⟨beq_self_eq_true name, before, after, rfl, fun other hother => ?_⟩
    have hne : other.1 ≠ name := by
      intro heq
      have hbefore : name ∈ before.map Prod.fst := List.mem_map.mpr ⟨other, hother, heq⟩
      rw [List.map_append, List.map_cons, List.nodup_middle] at hnodup
      exact (List.nodup_cons.mp hnodup).1 (List.mem_append_left _ hbefore)
    simpa using hne
  rw [require, get?_ofPairs, hfind]
  rfl

theorem require_of_notMem (hname : name ∉ pairs.map Prod.fst) :
    (ofPairs pairs).require name = .error (.unknownQuery name) := by
  have hfind : pairs.find? (·.1 == name) = none := by
    rw [List.find?_eq_none]
    intro pair hpair heq
    exact hname (List.mem_map.mpr ⟨pair, hpair, eq_of_beq heq⟩)
  rw [require, get?_ofPairs, hfind]
  rfl

/-- The file holds these queries in this order, each under a name of its own. -/
structure Holds (file : QueryFile) (pairs : List (String × String)) : Prop where
  names_eq : file.names = pairs.map Prod.fst
  nodup : file.names.Nodup
  require_found (name sql : String) :
    (name, sql) ∈ pairs → file.require name = .ok (Query.named name sql)
  require_unknown (name : String) :
    name ∉ file.names → file.require name = .error (.unknownQuery name)

theorem ofPairs_holds (hnodup : (pairs.map Prod.fst).Nodup) : (ofPairs pairs).Holds pairs where
  names_eq := names_ofPairs pairs
  nodup := by rwa [names_ofPairs]
  require_found _ _ := require_of_mem hnodup
  require_unknown name hname := by
    rw [names_ofPairs] at hname
    exact require_of_notMem hname

end QueryFile

theorem nodup_of_splitQueries {text path : String} {pairs : List (String × String)}
    (h : splitQueries text path = .ok pairs) : (pairs.map Prod.fst).Nodup := by
  obtain ⟨d⟩ := Division.nonempty (Text.lines text.toList)
  rcases names_nodup_or_firstRepeated d with hnodup | ⟨name, hname⟩
  · have hpairs : (d.pairs.map Prod.fst).Nodup := by
      have hmap : d.pairs.map Prod.fst = d.names.map String.ofList := by
        simp [Division.pairs, Division.names]
      rw [hmap]
      exact hnodup.map fun _ _ => String.ofList_injective
    rw [splitQueries_of_nodup d hnodup] at h
    split_ifs at h
    all_goals cases h
    · exact List.nodup_nil
    · exact List.nodup_singleton _
    · exact hpairs
  · rw [splitQueries_of_firstRepeated d hname] at h
    cases h

/-- The markers of a file settle how it is split, and the file that is read from it finds each of its
queries by name. -/
theorem splitQueries_by_markers (text path : String) :
    ∃ d : Division (Text.lines text.toList), d.Decides path ∧
      ∀ file, QueryFile.ofText text path = .ok file →
        ∃ pairs, splitQueries text path = .ok pairs ∧ file.Holds pairs := by
  obtain ⟨d⟩ := Division.nonempty (Text.lines text.toList)
  refine ⟨d, d.decides path, fun file hfile => ?_⟩
  obtain ⟨pairs, hpairs, rfl⟩ := QueryFile.ofText_eq_ok_iff.mp hfile
  exact ⟨pairs, hpairs, QueryFile.ofPairs_holds (nodup_of_splitQueries hpairs)⟩

/-- A carriage return that ends a line inside the query is not kept. -/
theorem splitQueries_unnamed_not_verbatim :
    ¬∀ text path : String, (∀ line ∈ Text.lines text.toList, Marker.read line = none) →
      ¬Text.Blank text.toList →
        splitQueries text path = .ok [(defaultQueryName path, String.ofList (Text.trim text.toList))] := by
  intro h
  have hmarkers : ∀ line ∈ Text.lines "SELECT 1\r\nFROM t\r\n".toList, Marker.read line = none := by
    decide +kernel
  have hblank : ¬Text.Blank "SELECT 1\r\nFROM t\r\n".toList :=
    fun hblank => absurd (hblank 'S' (by decide)) (by decide)
  have hkept := congrArg Except.toOption (h _ "dir/user.sql" hmarkers hblank)
  have hsplit : (splitQueries "SELECT 1\r\nFROM t\r\n" "dir/user.sql").toOption =
      some [("user", "SELECT 1\nFROM t")] := by
    decide +kernel
  rw [hsplit] at hkept
  exact absurd hkept (by decide +kernel)

end SqlTemplate
