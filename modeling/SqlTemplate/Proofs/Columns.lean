import Mathlib.Algebra.BigOperators.Group.List.Basic
import Mathlib.Algebra.Ring.Nat
import SqlTemplate.Proofs.Sequences

/-!
How many columns a record takes up in SQL text. A field's value is written as it would be on its own, so
a sequence with a sequence among its items is a bare list of tuples there as well, and each tuple
counts as a column (`Value.width`). All other values take up one column each, and a record of such
values is read back as one element for each field (`text_record_columns`).
-/

namespace SqlTemplate

/-- The number of elements in the text of a value. -/
def Value.width : Value → Nat
  | .sequence items => if items.any Value.isSequence then items.length else 1
  | _ => 1

theorem Value.width_pos (v : Value) : 0 < v.width := by
  cases v with
  | scalar _ | record _ | condition _ => exact Nat.one_pos
  | sequence items =>
    rw [width]
    split
    · next hany =>
      obtain ⟨item, hitem, -⟩ := List.any_eq_true.mp hany
      exact List.length_pos_of_mem hitem
    · exact Nat.one_pos

namespace Dialect

/-! ### Lists of lists -/

section Groups

variable {groups : List (List (List Char))}

theorem joined_append {texts texts' : List (List Char)} (h : texts ≠ []) (h' : texts' ≠ []) :
    joined (texts ++ texts') = joined texts ++ ',' :: ' ' :: joined texts' := by
  induction texts with
  | nil => exact absurd rfl h
  | cons cs texts ih =>
    cases texts with
    | nil =>
      obtain ⟨ds, texts', rfl⟩ := List.exists_cons_of_ne_nil h'
      simp [joined]
    | cons ds texts =>
      rw [List.cons_append, List.cons_append, joined_cons_cons, joined_cons_cons,
        ← List.cons_append, ih (List.cons_ne_nil ds texts)]
      simp

theorem joined_map_joined (hne : ∀ group ∈ groups, group ≠ []) :
    joined (groups.map joined) = joined groups.flatten := by
  induction groups with
  | nil => rfl
  | cons group groups ih =>
    obtain ⟨hgroup, hgroups⟩ := List.forall_mem_cons.mp hne
    cases groups with
    | nil => simp [joined]
    | cons group' groups =>
      have hrest : (group' :: groups).flatten ≠ [] := by
        rw [List.flatten_cons]
        exact List.append_ne_nil_of_left_ne_nil (hgroups group' List.mem_cons_self) _
      calc joined ((group :: group' :: groups).map joined)
          = joined group ++ ',' :: ' ' :: joined ((group' :: groups).map joined) :=
            joined_cons_cons _ _ _
        _ = joined group ++ ',' :: ' ' :: joined (group' :: groups).flatten := by rw [ih hgroups]
        _ = joined (group ++ (group' :: groups).flatten) := (joined_append hgroup hrest).symm

theorem eq_one_of_sum_eq_length {ns : List Nat} (hpos : ∀ n ∈ ns, 0 < n)
    (hsum : ns.sum = ns.length) : ∀ n ∈ ns, n = 1 := by
  induction ns with
  | nil => simp
  | cons n ns ih =>
    obtain ⟨hn, hns⟩ := List.forall_mem_cons.mp hpos
    have hle := List.length_le_sum_of_one_le ns hns
    rw [List.sum_cons, List.length_cons] at hsum
    exact List.forall_mem_cons.mpr ⟨by omega, ih hns (by omega)⟩

/-- Lists are the elements of a list of them only where each has just one. -/
theorem flatten_eq_map_joined_iff (hpos : ∀ n ∈ groups.map List.length, 0 < n) :
    groups.flatten = groups.map joined ↔ ∀ n ∈ groups.map List.length, n = 1 := by
  constructor
  · intro heq
    apply eq_one_of_sum_eq_length hpos
    calc (groups.map List.length).sum
        = groups.flatten.length := List.length_flatten.symm
      _ = (groups.map List.length).length := by rw [heq, List.length_map, List.length_map]
  · intro hsingle
    clear hpos
    induction groups with
    | nil => rfl
    | cons group groups ih =>
      obtain ⟨hgroup, hgroups⟩ := List.forall_mem_cons.mp hsingle
      obtain ⟨cs, rfl⟩ := List.length_eq_one_iff.mp hgroup
      have hjoined : joined [cs] = cs := by simp [joined]
      rw [List.flatten_cons, List.map_cons, ih hgroups, hjoined, List.singleton_append]

end Groups

/-! ### The text of a field -/

/-- The text is a list of elements, as many as the value has columns. -/
structure Fits (d : Dialect) (v : Value) (text : String) (group : List (List Char)) : Prop where
  elements : ∀ cs ∈ group, d.IsElement cs
  joined_eq : joined group = text.toList
  length_eq : group.length = v.width

variable {d : Dialect} {key text : String} {v : Value}

theorem exists_fits_staticText (h : d.adapter.staticText key v = .ok text) :
    ∃ group, d.Fits v text group := by
  cases v with
  | scalar s =>
    obtain rfl : d.literal s = text := Except.ok.inj h
    refine ⟨[(d.literal s).toList], ?_, by simp [joined], rfl⟩
    exact List.forall_mem_singleton.mpr (d.isElement_literal s)
  | record fields => cases h
  | condition c => cases h
  | sequence items =>
    obtain ⟨texts, htexts, rfl⟩ := Adapter.staticText_sequence_eq_ok_iff.mp h
    have helements := isElement_of_mapM htexts fun _ _ _ => isElement_itemText
    split
    · next hany =>
      refine ⟨texts.map String.toList, helements, (toList_commaList texts).symm, ?_⟩
      have hlength := (mapM_eq_ok_iff.mp htexts).length_eq
      rw [Value.width, if_pos hany, List.length_map, hlength]
    · next hany =>
      refine ⟨[(Adapter.parenthesized (Adapter.commaList texts)).toList], ?_, by simp [joined], ?_⟩
      · rw [List.forall_mem_singleton, toList_parenthesized, toList_commaList]
        exact isElement_parenthesized helements
      · rw [Value.width, if_neg hany, List.length_singleton]

/-- A field in a record: its text, after its column's name for an update. -/
def columnText (d : Dialect) (p : Placeholder) (field text : String) : String :=
  if p.modifier = .update then d.identifier field ++ " = " ++ text else text

theorem IsElement.assigned {cs : List Char} (name : String) (h : d.IsElement cs) :
    d.IsElement ((d.identifier name ++ " = ").toList ++ cs) where
  keeps depth := by
    have hsign : d.Keeps depth (' ' :: '=' :: ' ' :: cs) := by
      intro rest hrest
      have hequals : ∀ ds, d.read depth ('=' :: ds) = (d.read depth ds).prepend ['='] := fun ds =>
        read_single (.inr (by decide)) (by decide) (.inl (by decide))
      rw [List.cons_append, List.cons_append, List.cons_append, read_space, hequals, read_space,
        h.keeps depth rest hrest, Reading.prepend_prepend, Reading.prepend_prepend,
        Reading.prepend_prepend]
      rfl
    have hname := ((d.isElement_identifier name).keeps depth).append hsign (ends_cons (by decide))
    simpa using hname
  starts := by
    obtain ⟨c, hhead, hc⟩ := (d.isElement_identifier name).starts
    exact ⟨c, by simp [hhead], hc⟩

theorem Fits.columnText {group : List (List Char)} (h : d.Fits v text group) (p : Placeholder)
    (field : String) : ∃ group, d.Fits v (d.columnText p field text) group := by
  unfold Dialect.columnText
  split
  · cases group with
    | nil =>
      have hlength : 0 = v.width := h.length_eq
      exact absurd hlength v.width_pos.ne
    | cons cs group =>
      obtain ⟨hcs, hgroup⟩ := List.forall_mem_cons.mp h.elements
      refine ⟨((d.identifier field ++ " = ").toList ++ cs) :: group, ?_, ?_, h.length_eq⟩
      · exact List.forall_mem_cons.mpr ⟨hcs.assigned field, hgroup⟩
      · have happend : (d.identifier field ++ " = " ++ text).toList =
            (d.identifier field ++ " = ").toList ++ text.toList := String.toList_append
        rw [happend, ← h.joined_eq]
        cases group <;> simp [joined, List.intercalate_cons_cons]
  · exact ⟨group, h⟩

/-! ### Records -/

variable {p : Placeholder} {fields : Record} {columns : List String} {values : List Value}

theorem fieldText_eq {field : String} (hvalue : fields.get? field = some v)
    (htext : d.adapter.staticText p.key v = .ok text) :
    d.adapter.fieldText p fields field = .ok (d.columnText p field text) := by
  simp only [Adapter.fieldText, hvalue, htext, columnText]
  split <;> rfl

/-- The texts of the fields of a record, each a list of elements. -/
theorem exists_columnTexts (hvalues : columns.mapM fields.get? = some values)
    (hstatic : ∀ v ∈ values, v.Static) :
    ∃ (written : List String) (groups : List (List (List Char))),
      values.mapM (d.adapter.staticText p.key) = .ok written ∧
      columns.mapM (d.adapter.fieldText p fields) =
        .ok (List.zipWith (d.columnText p) columns written) ∧
      groups.map joined = (List.zipWith (d.columnText p) columns written).map String.toList ∧
      (∀ group ∈ groups, ∀ cs ∈ group, d.IsElement cs) ∧
      groups.map List.length = values.map Value.width := by
  induction columns generalizing values with
  | nil =>
    obtain rfl : [] = values := by simpa using hvalues
    exact ⟨[], [], rfl, rfl, rfl, by simp, rfl⟩
  | cons field columns ih =>
    rw [List.mapM_cons] at hvalues
    obtain ⟨v, hvalue, hvalues⟩ := Option.bind_eq_some_iff.mp hvalues
    obtain ⟨values, hrest, hcons⟩ := Option.bind_eq_some_iff.mp hvalues
    obtain rfl : v :: values = _ := Option.some.inj hcons
    obtain ⟨hv, hstatic⟩ := List.forall_mem_cons.mp hstatic
    obtain ⟨text, htext⟩ := (d.adapter.exists_staticText_iff p.key v).mpr hv
    obtain ⟨group, hfits⟩ := exists_fits_staticText htext
    obtain ⟨group, hfits⟩ := hfits.columnText p field
    obtain ⟨written, groups, hwritten, htexts, hjoined, helements, hlengths⟩ := ih hrest hstatic
    refine ⟨text :: written, group :: groups, ?_, ?_, ?_, ?_, ?_⟩
    · rw [List.mapM_cons, htext, hwritten]
      rfl
    · rw [List.mapM_cons, fieldText_eq hvalue htext, htexts]
      rfl
    · rw [List.map_cons, hfits.joined_eq, hjoined]
      rfl
    · exact List.forall_mem_cons.mpr ⟨hfits.elements, helements⟩
    · rw [List.map_cons, List.map_cons, hfits.length_eq, hlengths]

theorem text_record {a : Adapter} {texts : List String} (hobject : p.modifier.isObject = true)
    (htexts : (p.fields?.getD fields.keys).mapM (a.fieldText p fields) = .ok texts) :
    a.text (some (.record fields)) p = .ok (if p.modifier = .update then Adapter.commaList texts
      else Adapter.parenthesized (Adapter.commaList texts)) := by
  have hrecord : a.recordText p fields = .ok (if p.modifier = .update then Adapter.commaList texts
      else Adapter.parenthesized (Adapter.commaList texts)) := by
    rw [Adapter.recordText, htexts]
    rfl
  rw [← hrecord]
  cases hmodifier : p.modifier with
  | insert | update =>
    simp only [Adapter.text, Adapter.filler, Adapter.valueText, hmodifier, Adapter.objectText]
  | plain | raw | condition | optional =>
    rw [hmodifier] at hobject
    cases hobject

/-- A record of scalars and sequences is written for an insert as a tuple and for an update as a bare
list. The elements that it is read back as are one for each field, in order, if no value is wider than
one column, and else they are more. -/
theorem text_record_columns (d : Dialect) {p : Placeholder} {fields : Record} {values : List Value}
    (hobject : p.modifier.isObject = true)
    (hvalues : (p.fields?.getD fields.keys).mapM fields.get? = some values)
    (hstatic : ∀ v ∈ values, v.Static) :
    ∃ text written elements, d.adapter.text (some (.record fields)) p = .ok text ∧
      values.mapM (d.adapter.staticText p.key) = .ok written ∧
      (if p.modifier = .update then d.elements? text.toList else d.tuple? text.toList) =
        some elements ∧
      elements.length = (values.map Value.width).sum ∧
      (elements =
          (List.zipWith (d.columnText p) (p.fields?.getD fields.keys) written).map String.toList ↔
        ∀ v ∈ values, v.width = 1) := by
  obtain ⟨written, groups, hwritten, htexts, hjoined, helements, hlengths⟩ :=
    exists_columnTexts (d := d) (p := p) hvalues hstatic
  have hflat : ∀ cs ∈ groups.flatten, d.IsElement cs := by
    intro cs hcs
    obtain ⟨group, hgroup, hmem⟩ := List.mem_flatten.mp hcs
    exact helements group hgroup cs hmem
  have hpos : ∀ n ∈ groups.map List.length, 0 < n := by
    rw [hlengths, List.forall_mem_map]
    exact fun v _ => v.width_pos
  have hlist : (Adapter.commaList
      (List.zipWith (d.columnText p) (p.fields?.getD fields.keys) written)).toList =
        joined groups.flatten := by
    rw [toList_commaList, ← hjoined]
    apply joined_map_joined
    intro group hgroup
    exact List.ne_nil_of_length_pos (hpos _ (List.mem_map_of_mem hgroup))
  refine ⟨_, written, groups.flatten, text_record hobject htexts, hwritten, ?_, ?_, ?_⟩
  · split
    · rw [hlist]
      exact elements?_joined hflat
    · rw [toList_parenthesized, hlist]
      exact tuple?_parenthesized hflat
  · rw [List.length_flatten, hlengths]
  · rw [← hjoined, flatten_eq_map_joined_iff hpos, hlengths, List.forall_mem_map]

theorem text_record_columns_nested_field :
    ∃ text elements, Dialect.mysql.adapter.text
        (some (.record (.ofList [("a", .sequence [.scalar (.int 1), .sequence []]),
          ("b", .scalar (.text "x', y"))]))) (.ofParts .update ['r'] none) = .ok text ∧
      Dialect.mysql.elements? text.toList = some elements ∧ elements.length = 3 := by
  have hobject : (Placeholder.ofParts .update ['r'] none).modifier.isObject = true := rfl
  have hvalues : ((Placeholder.ofParts .update ['r'] none).fields?.getD
      (OrderedMap.ofList [("a", Value.sequence [.scalar (.int 1), .sequence []]),
        ("b", .scalar (.text "x', y"))]).keys).mapM
      (OrderedMap.ofList [("a", Value.sequence [.scalar (.int 1), .sequence []]),
        ("b", .scalar (.text "x', y"))]).get? =
      some [.sequence [.scalar (.int 1), .sequence []], .scalar (.text "x', y")] := rfl
  have hstatic : ∀ v ∈ [Value.sequence [.scalar (.int 1), .sequence []], .scalar (.text "x', y")],
      v.Static := by
    simp [Value.static_sequence_iff, Value.Static.scalar]
  obtain ⟨text, written, elements, htext, -, hread, hlength, -⟩ :=
    text_record_columns .mysql hobject hvalues hstatic
  exact ⟨text, elements, htext, hread, hlength⟩

/-- A list of tuples in a field gives a row more values than it has fields. -/
theorem insert_list_of_tuples :
    Dialect.postgres.adapter.resolve (Template.ofText "INSERT INTO t (a, b) VALUES :$r\x7ba,b\x7d")
        (.ofList [("$r", .record (.ofList
          [("a", .sequence [.sequence [.scalar (.int 1)], .sequence [.scalar (.int 2)]]),
            ("b", .scalar (.int 3))]))]) =
      .ok "INSERT INTO t (a, b) VALUES ((1), (2), 3)" ∧
      Dialect.postgres.tuple? "((1), (2), 3)".toList =
        some ["(1)".toList, "(2)".toList, "3".toList] := by
  decide +kernel

end Dialect

end SqlTemplate
