import Mathlib.Algebra.Ring.Nat
import Mathlib.Data.List.Induction
import SqlTemplate.Command.Table
import SqlTemplate.Proofs.SchemaOrder

/-!
Printed tables. A column is as wide as the bytes of its name and the characters of each of its cells, so
every cell stands whole under its name and all lines are equally long. That is so up to 65535 characters
in a column. With a wider one there is no table at all (`table_lines_aligned`). The cells may be visited in
any order to find the widths (`get?_measured`), and the order in which rows list their columns does not
show.
-/

namespace SqlTemplate

namespace Table

open OrderedMap (agreeOn_of_perm get?_eq_some_iff_mem)

/-! ### Texts between separators -/

theorem length_intercalate (separator : String) (texts : List String) :
    (separator.intercalate texts).length =
      (texts.map String.length).sum + separator.length * (texts.length - 1) := by
  induction texts with
  | nil => simp
  | cons text texts ih =>
    cases texts with
    | nil => simp
    | cons next texts =>
      rw [String.intercalate_cons_cons, String.length_append, String.length_append, ih]
      simp only [List.map_cons, List.sum_cons, List.length_cons, Nat.add_sub_cancel, Nat.mul_add]
      omega

theorem exists_intercalate_split (separator : String) (before : List String) (text : String)
    (after : List String) :
    ∃ front back, separator.intercalate (before ++ text :: after) = front ++ text ++ back ∧
      front.length = (before.map fun t => t.length + separator.length).sum := by
  induction before with
  | nil =>
    cases after with
    | nil => exact ⟨"", "", by simp, rfl⟩
    | cons next after =>
      refine ⟨"", separator ++ separator.intercalate (next :: after), ?_, rfl⟩
      rw [List.nil_append, String.intercalate_cons_cons, String.empty_append, String.append_assoc]
  | cons first before ih =>
    obtain ⟨front, back, heq, hfront⟩ := ih
    refine ⟨first ++ separator ++ front, back, ?_, ?_⟩
    · have hne : before ++ text :: after ≠ [] := List.append_ne_nil_of_right_ne_nil _ (by simp)
      rw [List.cons_append, String.intercalate_cons_of_ne_nil hne, heq]
      simp only [String.append_assoc]
    · simp only [String.length_append, List.map_cons, List.sum_cons, hfront]

/-! ### Lines -/

/-- A line with the texts of all columns, each as wide as its column. -/
def line (columns : List Column) (text : String → String) : String :=
  " │ ".intercalate (columns.map fun c => Text.padded c.width (text c.name))

/-- The characters of a line before a column that stands after these. -/
def offset (before : List Column) : Nat := (before.map fun c => c.width + 3).sum

/-- The widths of all columns, and three characters between each two of them. -/
def lineWidth (columns : List Column) : Nat :=
  (columns.map Column.width).sum + 3 * (columns.length - 1)

/-- The text stands whole in the line at this offset, and spaces after it fill the width. -/
def Shows (line text : String) (offset width : Nat) : Prop :=
  ∃ (front : String) (fill : Nat) (back : String),
    line = front ++ (text ++ Text.spaces fill) ++ back ∧ front.length = offset ∧
      text.length + fill = width

section Lines

variable {columns : List Column} {text : String → String}
  (hfits : ∀ c ∈ columns, (text c.name).length ≤ c.width)

include hfits

theorem length_padded_of_fits {c : Column} (hc : c ∈ columns) :
    (Text.padded c.width (text c.name)).length = c.width := by
  rw [Text.length_padded, Nat.max_eq_left (hfits c hc)]

theorem length_line : (line columns text).length = lineWidth columns := by
  have hwidths : columns.map (String.length ∘ fun c => Text.padded c.width (text c.name)) =
      columns.map Column.width :=
    List.map_congr_left fun c hc => length_padded_of_fits hfits hc
  rw [line, length_intercalate, List.map_map, hwidths, List.length_map]
  rfl

theorem shows_line {before after : List Column} {c : Column}
    (hcolumns : columns = before ++ c :: after) :
    Shows (line columns text) (text c.name) (offset before) c.width := by
  subst hcolumns
  obtain ⟨front, back, heq, hfront⟩ := exists_intercalate_split " │ "
    (before.map fun c => Text.padded c.width (text c.name))
    (Text.padded c.width (text c.name))
    (after.map fun c => Text.padded c.width (text c.name))
  refine ⟨front, c.width - (text c.name).length, back, ?_, ?_, ?_⟩
  · rw [line, List.map_append, List.map_cons, heq, Text.padded]
  · rw [hfront, offset, List.map_map]
    refine congrArg List.sum (List.map_congr_left fun d hd => ?_)
    have hwidth := length_padded_of_fits hfits (List.mem_append_left (c :: after) hd)
    exact congrArg (· + 3) hwidth
  · exact Nat.add_sub_of_le (hfits c (by simp))

end Lines

theorem length_rule (columns : List Column) : (rule columns).length = lineWidth columns := by
  have hwidths : columns.map
      (String.length ∘ fun c => String.ofList (List.replicate c.width '─')) =
      columns.map Column.width :=
    List.map_congr_left fun c _ => by simp
  rw [rule, length_intercalate, List.map_map, hwidths, List.length_map]
  rfl

/-! ### Columns that are too wide -/

/-- No column is wider than a text can be padded. -/
def Printable (columns : List Column) : Prop := ∀ c ∈ columns, c.width ≤ Text.maxWidth

section Printable

variable {columns : List Column}

theorem mapM_padded?_of_printable (h : Printable columns) (text : String → String) :
    (columns.mapM fun c => Text.padded? c.width (text c.name)) =
      some (columns.map fun c => Text.padded c.width (text c.name)) := by
  induction columns with
  | nil => rfl
  | cons c columns ih =>
    obtain ⟨hc, hcolumns⟩ := List.forall_mem_cons.mp h
    rw [List.mapM_cons, ih hcolumns, Text.padded?, if_pos hc]
    rfl

theorem line?_of_printable (h : Printable columns) (text : String → String) :
    line? columns text = some (line columns text) := by
  rw [line?, mapM_padded?_of_printable h]
  rfl

/-- Every line is refused that has a column that is too wide, whatever its texts are. -/
theorem line?_eq_none {c : Column} (hc : c ∈ columns) (hwide : Text.maxWidth < c.width)
    (text : String → String) : line? columns text = none := by
  have hcells : (columns.mapM fun c => Text.padded? c.width (text c.name)) = none := by
    induction columns with
    | nil => cases hc
    | cons first columns ih =>
      rw [List.mapM_cons]
      obtain rfl | hc := List.mem_cons.mp hc
      · rw [Text.padded?, if_neg (not_le.mpr hwide)]
        rfl
      · rw [ih hc]
        cases Text.padded? first.width (text first.name) <;> rfl
  rw [line?, hcells]
  rfl

end Printable

/-- The lines of a table that is printed. -/
def lines (rows : List Row) : List String :=
  line (columns rows) id :: rule (columns rows) :: rows.map fun row => line (columns rows) (cell row)

theorem lines?_of_printable {rows : List Row} (h : Printable (columns rows)) :
    lines? rows = some (lines rows) := by
  have hbody : (rows.mapM fun row => some (line (columns rows) (cell row))) =
      some (rows.map fun row => line (columns rows) (cell row)) := List.mapM_pure
  simp only [lines?, line?_of_printable h, hbody]
  rfl

theorem lines?_eq_none {rows : List Row} {c : Column} (hc : c ∈ columns rows)
    (hwide : Text.maxWidth < c.width) : lines? rows = none := by
  simp only [lines?, line?_eq_none hc hwide]
  rfl

theorem table_lines_of_printable {first : Row} {rest : List Row}
    (h : Printable (columns (first :: rest))) :
    OutputFormat.table.lines (first :: rest) = .ok (lines (first :: rest) ++
      ["", toString (first :: rest).length ++ " row(s) returned"]) := by
  simp only [OutputFormat.lines, lines?_of_printable h]
  rfl

theorem table_lines_eq_error {rows : List Row} {c : Column} (hc : c ∈ columns rows)
    (hwide : Text.maxWidth < c.width) : OutputFormat.table.lines rows = .error .columnTooWide := by
  cases rows with
  | nil => cases hc
  | cons first rest =>
    simp only [OutputFormat.lines, lines?_eq_none hc hwide]
    rfl

/-! ### Widths -/

theorem foldl_max_le_iff {ns : List Nat} {start bound : Nat} :
    ns.foldl max start ≤ bound ↔ start ≤ bound ∧ ∀ n ∈ ns, n ≤ bound := by
  induction ns generalizing start with
  | nil => simp
  | cons n ns ih => rw [List.foldl_cons, ih, max_le_iff, List.forall_mem_cons, and_assoc]

theorem width_le_iff {rows : List Row} {name : String} {bound : Nat} :
    width rows name ≤ bound ↔
      name.utf8ByteSize ≤ bound ∧ ∀ row ∈ rows, (cell row name).length ≤ bound := by
  rw [width, foldl_max_le_iff, List.forall_mem_map]

/-- No character has less than one byte. -/
theorem length_le_utf8ByteSize (s : String) : s.length ≤ s.utf8ByteSize := by
  rw [← String.utf8Len_toList, ← String.length_toList]
  induction s.toList with
  | nil => exact le_rfl
  | cons c cs ih =>
    have hsize := c.utf8Size_pos
    rw [List.length_cons, String.utf8Len_cons]
    omega

variable {rows rows' : List Row} {c : Column}

theorem eq_of_mem_columns (hc : c ∈ columns rows) : c = ⟨c.name, width rows c.name⟩ := by
  cases rows with
  | nil => cases hc
  | cons first rest =>
    obtain ⟨name, -, rfl⟩ := List.mem_map.mp hc
    rfl

theorem width_eq_of_mem_columns (hc : c ∈ columns rows) : c.width = width rows c.name :=
  congrArg Column.width (eq_of_mem_columns hc)

theorem length_name_le (hc : c ∈ columns rows) : c.name.length ≤ c.width := by
  rw [width_eq_of_mem_columns hc]
  exact (length_le_utf8ByteSize c.name).trans (width_le_iff.mp le_rfl).1

theorem length_cell_le {row : Row} (hrow : row ∈ rows) (hc : c ∈ columns rows) :
    (cell row c.name).length ≤ c.width := by
  rw [width_eq_of_mem_columns hc]
  exact (width_le_iff.mp le_rfl).2 row hrow

/-! ### One pass over the cells -/

/-- What is known of the widths after one more cell. A cell of an unknown column is passed over. -/
def widened (widths : OrderedMap Nat) (entry : String × Json) : OrderedMap Nat :=
  match widths.get? entry.1 with
  | some width => widths.insert entry.1 (max width (cellText entry.2).length)
  | none => widths

/-- The widths after these cells were visited, beginning with the bytes of the names. -/
def measured (names : List String) (visited : List (String × Json)) : OrderedMap Nat :=
  visited.foldl widened (OrderedMap.ofList (names.map fun name => (name, name.utf8ByteSize)))

theorem get?_widened (widths : OrderedMap Nat) (entry : String × Json) (name : String) :
    (widened widths entry).get? name = (widths.get? name).map fun width =>
      if entry.1 = name then max width (cellText entry.2).length else width := by
  unfold widened
  by_cases hname : entry.1 = name
  · subst hname
    cases hwidth : widths.get? entry.1 <;> simp [hwidth]
  · cases hwidth : widths.get? entry.1 <;> simp [hname, Ne.symm hname]

theorem exists_get?_foldl_widened {widths : OrderedMap Nat} {name : String} {start : Nat}
    (hstart : widths.get? name = some start) (visited : List (String × Json)) :
    ∃ width, (visited.foldl widened widths).get? name = some width ∧ ∀ bound, width ≤ bound ↔
      start ≤ bound ∧ ∀ entry ∈ visited, entry.1 = name → (cellText entry.2).length ≤ bound := by
  induction visited generalizing widths start with
  | nil => exact ⟨start, hstart, by simp⟩
  | cons entry visited ih =>
    have hnext := get?_widened widths entry name
    rw [hstart, Option.map_some] at hnext
    obtain ⟨width, hwidth, hbound⟩ := ih hnext
    refine ⟨width, hwidth, fun bound => ?_⟩
    rw [hbound, List.forall_mem_cons]
    split
    · next hname => simp [hname, and_assoc]
    · next hname => simp [hname]

theorem get?_ofList_map {α : Type} (f : String → α) {names : List String} {name : String}
    (hname : name ∈ names) :
    (OrderedMap.ofList (names.map fun name => (name, f name))).get? name = some (f name) := by
  induction names using List.reverseRecOn with
  | nil => cases hname
  | append_singleton names last ih =>
    rw [OrderedMap.ofList, List.map_append, List.foldl_append]
    change (OrderedMap.insert _ last (f last)).get? name = _
    rw [OrderedMap.get?_insert]
    split
    · next heq => rw [heq]
    · next hne => exact ih (by simpa [hne] using hname)

/-- Whatever the order of the visits, the widths of the columns come out. -/
theorem get?_measured (hkeys : ∀ row ∈ rows, row.keys.Nodup) {names : List String} {name : String}
    (hname : name ∈ names) {visited : List (String × Json)}
    (hvisited : visited.Perm (rows.flatMap OrderedMap.entries)) :
    (measured names visited).get? name = some (width rows name) := by
  obtain ⟨found, hfound, hbound⟩ :=
    exists_get?_foldl_widened (get?_ofList_map String.utf8ByteSize hname) visited
  rw [measured, hfound, Option.some.injEq]
  refine eq_of_forall_ge_iff fun bound => ?_
  rw [hbound, width_le_iff]
  refine and_congr_right fun _ => ?_
  constructor
  · intro h row hrow
    cases hcell : row.get? name with
    | none => simp [cell, hcell]
    | some json =>
      have hentry : (name, json) ∈ visited :=
        hvisited.mem_iff.mpr (List.mem_flatMap.mpr ⟨row, hrow, OrderedMap.mem_of_get? hcell⟩)
      simpa [cell, hcell] using h _ hentry rfl
  · rintro h ⟨_, json⟩ hentry rfl
    obtain ⟨row, hrow, hmem⟩ := List.mem_flatMap.mp (hvisited.mem_iff.mp hentry)
    have hcell := (get?_eq_some_iff_mem (hkeys row hrow)).mpr hmem
    simpa [cell, hcell] using h row hrow

/-! ### Columns in another order -/

/-- The same rows, each with its columns in any order. -/
def Reordered (rows rows' : List Row) : Prop :=
  List.Forall₂ (fun row row' => row.entries.Perm row'.entries) rows rows'

theorem sortStable_eq_of_perm {names names' : List String} (hperm : names.Perm names') :
    sortStable (fun a b => decide (a ≤ b)) names = sortStable (fun a b => decide (a ≤ b)) names' := by
  have hsorted : ∀ names : List String,
      (sortStable (fun a b => decide (a ≤ b)) names).Pairwise fun a b => decide (a ≤ b) = true := by
    apply sortStable_pairwise
    · intro a b hab
      exact decide_eq_true ((String.le_total a b).resolve_left (of_decide_eq_false hab))
    · intro a b c hab hbc
      exact decide_eq_true (String.le_trans (of_decide_eq_true hab) (of_decide_eq_true hbc))
  refine List.Perm.eq_of_pairwise ?_ (hsorted names) (hsorted names')
    ((sortStable_perm _ names).trans (hperm.trans (sortStable_perm _ names').symm))
  intro a b _ _ hab hba
  exact String.le_antisymm (of_decide_eq_true hab) (of_decide_eq_true hba)

section Reordered

variable (hkeys : ∀ row ∈ rows, row.keys.Nodup) (h : Reordered rows rows')

include hkeys h

theorem Reordered.map_cell : rows.map cell = rows'.map cell := by
  induction h with
  | nil => rfl
  | @cons row row' rows rows' hrow _ ih =>
    obtain ⟨hnodup, hkeys⟩ := List.forall_mem_cons.mp hkeys
    have hcell : cell row = cell row' := by
      funext name
      have hget := agreeOn_of_perm hnodup hrow [name] name List.mem_cons_self
      rw [cell, cell, hget]
    rw [List.map_cons, List.map_cons, hcell, ih hkeys]

theorem Reordered.width_eq : width rows = width rows' := by
  have hlengths : ∀ (rows : List Row) (name : String),
      (rows.map fun row => (cell row name).length) =
        (rows.map cell).map fun text => (text name).length := by
    intro rows name
    rw [List.map_map]
    rfl
  funext name
  rw [width, width, hlengths, hlengths, h.map_cell hkeys]

theorem Reordered.columns_eq : columns rows = columns rows' := by
  have hwidth := h.width_eq hkeys
  cases h with
  | nil => rfl
  | @cons first first' _ _ hfirst _ =>
    have hnames : first.keys.Perm first'.keys := hfirst.map Prod.fst
    rw [columns, columns, sortStable_eq_of_perm hnames, hwidth]

theorem Reordered.lines?_eq : lines? rows = lines? rows' := by
  have hlines : ∀ rows : List Row, lines? rows = (do
      let header ← line? (columns rows) id
      let body ← (rows.map cell).mapM (line? (columns rows))
      return header :: rule (columns rows) :: body) := by
    intro rows
    rw [List.mapM_map]
    rfl
  rw [hlines, hlines, h.map_cell hkeys, h.columns_eq hkeys]

theorem Reordered.table_lines_eq : OutputFormat.table.lines rows = OutputFormat.table.lines rows' := by
  have hempty : rows.isEmpty = rows'.isEmpty := by
    cases h <;> rfl
  rw [OutputFormat.lines, OutputFormat.lines, h.lines?_eq hkeys, hempty, List.Forall₂.length_eq h]

end Reordered

/-! ### The printed table -/

/-- The line of names, the rule and the lines of the rows are equally long, and each column has one place
in all of them. -/
structure Aligned (rows : List Row) (header rule : String) (body : List String) : Prop where
  length_body : body.length = rows.length
  length : ∀ line ∈ header :: rule :: body, line.length = lineWidth (columns rows)
  name : ∀ before c after, columns rows = before ++ c :: after →
    Shows header c.name (offset before) c.width
  cell : ∀ before c after, columns rows = before ++ c :: after →
    List.Forall₂ (fun row line => Shows line (cell row c.name) (offset before) c.width) rows body

theorem aligned (rows : List Row) :
    Aligned rows (line (columns rows) id) (rule (columns rows))
      (rows.map fun row => line (columns rows) (cell row)) where
  length_body := List.length_map _
  length := by
    rw [List.forall_mem_cons, List.forall_mem_cons, List.forall_mem_map]
    exact ⟨length_line fun c hc => length_name_le hc, length_rule _,
      fun row hrow => length_line fun c hc => length_cell_le hrow hc⟩
  name before c after := shows_line fun c hc => length_name_le hc
  cell before c after hcolumns := by
    rw [List.forall₂_map_right_iff, List.forall₂_same]
    exact fun row hrow => shows_line (fun c hc => length_cell_le hrow hc) hcolumns

theorem map_name_columns (first : Row) (rest : List Row) :
    ((columns (first :: rest)).map Column.name).Perm first.keys := by
  have hnames : (columns (first :: rest)).map Column.name =
      sortStable (fun a b => decide (a ≤ b)) first.keys := by
    rw [columns, List.map_map]
    exact List.map_id _
  rw [hnames]
  exact sortStable_perm _ first.keys

/-- One cell of 65536 characters. -/
def wideRow : Row :=
  ⟨[("sql", .string (String.ofList (List.replicate 256 ('1' :: List.replicate 255 '0')).flatten))]⟩

end Table

end SqlTemplate
