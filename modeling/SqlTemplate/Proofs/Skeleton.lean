import SqlTemplate.Proofs.Rendering
import SqlTemplate.Proofs.Resolution

/-!
The skeleton of a value has NULL for every scalar. Two values with one skeleton are built alike from
sequences, records and conditions, and a resolution that fails with one of them fails with the other
in the same way (`resolve_same_skeleton`). What may differ as well is the adapter, as long as it names
the same columns.
-/

namespace SqlTemplate

open Template (ofText)

/-! ### Values and what they hold -/

/-- All values that parameters hold. -/
def ParamsOf.values {α : Type} (params : ParamsOf α) : List α :=
  params.named.entries.map Prod.snd ++ params.positional.toList

theorem ParamsOf.mem_values_of_get? {α : Type} {params : ParamsOf α} {key : String} {value : α}
    (h : params.get? key = some value) : value ∈ params.values := by
  unfold ParamsOf.get? at h
  apply List.mem_append.mpr
  split at h
  · exact .inr (Option.mem_toList.mpr h)
  · exact .inl (List.mem_map.mpr ⟨_, OrderedMap.mem_of_get? h, rfl⟩)

theorem Value.sizeOf_lt_condition {c : Condition} {part : String × Params} {v : Value}
    (hpart : part ∈ c.parts) (hv : v ∈ part.2.values) : sizeOf v < sizeOf (Value.condition c) := by
  obtain ⟨operator, parts⟩ := c
  obtain ⟨sql, ⟨⟨entries⟩, positional⟩⟩ := part
  have hparts := List.sizeOf_lt_of_mem hpart
  simp only [Value.condition.sizeOf_spec, ConditionOf.mk.sizeOf_spec, Prod.mk.sizeOf_spec,
    ParamsOf.mk.sizeOf_spec, OrderedMap.mk.sizeOf_spec] at hparts ⊢
  obtain hv | hv := List.mem_append.mp hv
  · obtain ⟨⟨name, value⟩, hentry, rfl⟩ := List.mem_map.mp hv
    have hentries := List.sizeOf_lt_of_mem hentry
    simp only [Prod.mk.sizeOf_spec] at hentries ⊢
    omega
  · obtain rfl : positional = some v := Option.mem_toList.mp hv
    simp only [Option.some.sizeOf_spec] at hparts
    omega

@[elab_as_elim]
theorem Value.induction {motive : Value → Prop} (scalar : ∀ s, motive (.scalar s))
    (sequence : ∀ items, (∀ v ∈ items, motive v) → motive (.sequence items))
    (record : ∀ fields : Record, (∀ entry ∈ fields.entries, motive entry.2) →
      motive (.record fields))
    (condition : ∀ c : Condition, (∀ part ∈ c.parts, ∀ v ∈ part.2.values, motive v) →
      motive (.condition c))
    (v : Value) : motive v := by
  cases v with
  | scalar s => exact scalar s
  | sequence items =>
    exact sequence items fun v _hv => Value.induction scalar sequence record condition v
  | record fields =>
    exact record fields fun entry _hentry =>
      Value.induction scalar sequence record condition entry.2
  | condition c =>
    exact condition c fun _ _hpart v _hv => Value.induction scalar sequence record condition v
termination_by sizeOf v
decreasing_by
  · have hitems := List.sizeOf_lt_of_mem _hv
    simp only [Value.sequence.sizeOf_spec]
    omega
  · obtain ⟨entries⟩ := fields
    obtain ⟨name, value⟩ := entry
    have hentries := List.sizeOf_lt_of_mem _hentry
    simp only [Value.record.sizeOf_spec, OrderedMap.mk.sizeOf_spec, Prod.mk.sizeOf_spec]
      at hentries ⊢
    omega
  · exact Value.sizeOf_lt_condition _hpart _hv

namespace OrderedMap

variable {α β : Type}

def mapValues (f : α → β) (m : OrderedMap α) : OrderedMap β :=
  ⟨m.entries.map fun entry => (entry.1, f entry.2)⟩

theorem get?_mapValues (f : α → β) (m : OrderedMap α) (key : String) :
    (m.mapValues f).get? key = (m.get? key).map f := by
  obtain ⟨entries⟩ := m
  simp only [mapValues, get?]
  induction entries with
  | nil => rfl
  | cons entry entries ih =>
    rw [List.map_cons, List.lookup_cons, List.lookup_cons, ih]
    cases key == entry.1 <;> rfl

theorem keys_mapValues (f : α → β) (m : OrderedMap α) : (m.mapValues f).keys = m.keys := by
  rw [keys, mapValues, List.map_map]
  rfl

end OrderedMap

/-! ### Skeletons -/

mutual

/-- The value with NULL for every scalar in it. -/
def Value.skeleton : Value → Value
  | .scalar _ => .scalar .null
  | .sequence items => .sequence (Value.skeletons items)
  | .record ⟨fields⟩ => .record ⟨Value.fieldSkeletons fields⟩
  | .condition ⟨operator, parts⟩ => .condition ⟨operator, ParamsOf.partSkeletons parts⟩

def Value.skeletons : List Value → List Value
  | [] => []
  | item :: items => item.skeleton :: Value.skeletons items

def Value.fieldSkeletons : List (String × Value) → List (String × Value)
  | [] => []
  | (name, value) :: fields => (name, value.skeleton) :: Value.fieldSkeletons fields

def ParamsOf.skeleton : Params → Params
  | ⟨⟨entries⟩, none⟩ => ⟨⟨Value.fieldSkeletons entries⟩, none⟩
  | ⟨⟨entries⟩, some value⟩ => ⟨⟨Value.fieldSkeletons entries⟩, some value.skeleton⟩

def ParamsOf.partSkeletons : List (String × Params) → List (String × Params)
  | [] => []
  | (sql, params) :: parts => (sql, params.skeleton) :: ParamsOf.partSkeletons parts

end

namespace Value

theorem skeletons_eq_map (items : List Value) : skeletons items = items.map skeleton := by
  induction items with
  | nil => simp [skeletons]
  | cons item items ih => simp [skeletons, ih]

theorem fieldSkeletons_eq_map (fields : List (String × Value)) :
    fieldSkeletons fields = fields.map fun entry => (entry.1, entry.2.skeleton) := by
  induction fields with
  | nil => simp [fieldSkeletons]
  | cons entry fields ih => simp [fieldSkeletons, ih]

theorem partSkeletons_eq_map (parts : List (String × Params)) :
    ParamsOf.partSkeletons parts = parts.map fun part => (part.1, part.2.skeleton) := by
  induction parts with
  | nil => simp [ParamsOf.partSkeletons]
  | cons part parts ih => simp [ParamsOf.partSkeletons, ih]

@[simp]
theorem skeleton_scalar (s : Scalar) : (Value.scalar s).skeleton = .scalar .null := by
  rw [skeleton]

@[simp]
theorem skeleton_sequence (items : List Value) :
    (Value.sequence items).skeleton = .sequence (items.map skeleton) := by
  rw [skeleton, skeletons_eq_map]

@[simp]
theorem skeleton_record (fields : Record) :
    (Value.record fields).skeleton = .record (fields.mapValues skeleton) := by
  rw [skeleton, fieldSkeletons_eq_map]
  rfl

@[simp]
theorem skeleton_condition (c : Condition) :
    (Value.condition c).skeleton =
      .condition ⟨c.operator, c.parts.map fun part => (part.1, part.2.skeleton)⟩ := by
  rw [skeleton, partSkeletons_eq_map]

theorem records_skeleton (v : Value) :
    v.skeleton.records = v.records.map (OrderedMap.mapValues skeleton) := by
  cases v with
  | scalar _ | record _ | condition _ => simp [records]
  | sequence items =>
    rw [skeleton_sequence, records, records, List.filterMap_map, List.map_filterMap]
    congr 1
    funext item
    cases item <;> simp [record?]

end Value

namespace ParamsOf

theorem skeleton_eq (params : Params) :
    params.skeleton =
      ⟨params.named.mapValues Value.skeleton, params.positional.map Value.skeleton⟩ := by
  obtain ⟨⟨entries⟩, _ | value⟩ := params
  all_goals
    rw [skeleton, Value.fieldSkeletons_eq_map]
    rfl

theorem get?_skeleton (params : Params) (key : String) :
    params.skeleton.get? key = (params.get? key).map Value.skeleton := by
  rw [skeleton_eq]
  unfold get?
  split
  · rfl
  · exact OrderedMap.get?_mapValues _ _ _

end ParamsOf

/-! ### Writing -/

namespace Adapter

variable {a a' : Adapter}

theorem itemTexts_eq_mapM (a : Adapter) (key : String) (items : List Value) :
    a.itemTexts key items = items.mapM (a.itemText key) := by
  induction items with
  | nil => simp [itemTexts, pure, Except.pure]
  | cons item items ih => simp [itemTexts, ih]

theorem verdict_itemText (key : String) (v : Value) :
    verdict (a.itemText key v) = verdict (a'.itemText key v.skeleton) := by
  induction v using Value.induction with
  | scalar _ | record _ _ | condition _ _ => simp [itemText]
  | sequence items ih =>
    rw [Value.skeleton_sequence, itemText, itemText, itemTexts_eq_mapM, itemTexts_eq_mapM]
    exact verdict_bind_congr (verdict_mapM_congr _ ih) fun _ _ => rfl

theorem verdict_staticText (key : String) (v : Value) :
    verdict (a.staticText key v) = verdict (a'.staticText key v.skeleton) := by
  cases v with
  | scalar _ | record _ | condition _ => simp [staticText]
  | sequence items =>
    rw [Value.skeleton_sequence, staticText, staticText, itemTexts_eq_mapM, itemTexts_eq_mapM]
    have hitem : ∀ item ∈ items, verdict (a.itemText key item) =
        verdict (a'.itemText key item.skeleton) := fun item _ => verdict_itemText key item
    exact verdict_bind_congr (verdict_mapM_congr _ hitem) fun _ _ => rfl

theorem verdict_rawText (key : String) (v : Value) :
    verdict (rawText key v) = verdict (rawText key v.skeleton) := by
  cases v <;> simp [rawText]

theorem verdict_fragmentText (p : Placeholder) (v : Value) :
    verdict (a.fragmentText p v) = verdict (a'.fragmentText p v.skeleton) := by
  unfold fragmentText
  cases p.schema with
  | none => rfl
  | some fragment =>
    dsimp only
    split
    · rfl
    · split
      · exact verdict_bind_congr (verdict_rawText p.key v) fun _ _ => rfl
      · exact verdict_bind_congr (verdict_staticText p.key v) fun _ _ => rfl

-- Only assignments name columns.
variable {p : Placeholder} (hnames : p.modifier = .update →
  ∀ name, (a.identifier name).isSome = (a'.identifier name).isSome)

include hnames

theorem verdict_fieldText (fields : Record) (field : String) :
    verdict (a.fieldText p fields field) =
      verdict (a'.fieldText p (fields.mapValues Value.skeleton) field) := by
  unfold fieldText
  rw [OrderedMap.get?_mapValues]
  cases fields.get? field with
  | none => rfl
  | some value =>
    apply verdict_bind_congr (verdict_staticText p.key value)
    intro text text'
    split
    · next hupdate =>
      have hname := hnames hupdate field
      cases hcolumn : a.identifier field <;> cases hcolumn' : a'.identifier field
      · rfl
      · simp [hcolumn, hcolumn'] at hname
      · simp [hcolumn, hcolumn'] at hname
      · rfl
    · rfl

theorem verdict_recordText (fields : Record) :
    verdict (a.recordText p fields) =
      verdict (a'.recordText p (fields.mapValues Value.skeleton)) := by
  unfold recordText
  rw [OrderedMap.keys_mapValues]
  have hfields := verdict_mapM_congr id fun field (_ : field ∈ p.fields?.getD fields.keys) =>
    verdict_fieldText hnames fields field
  rw [List.map_id] at hfields
  exact verdict_bind_congr hfields fun _ _ => rfl

theorem verdict_objectText (v : Value) :
    verdict (a.objectText p v) = verdict (a'.objectText p v.skeleton) := by
  have hrecord := verdict_recordText hnames
  cases v with
  | scalar _ | condition _ => simp [objectText, Value.kind]
  | record fields =>
    rw [Value.skeleton_record]
    exact hrecord fields
  | sequence items =>
    have hitem : ∀ item ∈ items, verdict (a.objectItemText p item) =
        verdict (a'.objectItemText p item.skeleton) := by
      intro item _
      cases item with
      | scalar _ | sequence _ | condition _ => simp [objectItemText, Value.kind]
      | record fields =>
        rw [Value.skeleton_record]
        exact hrecord fields
    rw [Value.skeleton_sequence, objectText, objectText]
    split
    · rfl
    · exact verdict_bind_congr (verdict_mapM_congr _ hitem) fun _ _ => rfl

theorem verdict_valueText (v : Value) :
    verdict (a.valueText p v) = verdict (a'.valueText p v.skeleton) := by
  unfold valueText
  split
  · exact verdict_staticText p.key v
  · exact verdict_rawText p.key v
  · rfl
  · exact verdict_objectText hnames v
  · exact verdict_objectText hnames v
  · exact verdict_fragmentText p v

end Adapter

/-! ### Validation -/

namespace Validation

theorem verdict_recordsOf (key : String) (v : Value) :
    verdict (recordsOf key v) = verdict (recordsOf key v.skeleton) := by
  cases v with
  | scalar _ | record _ | condition _ => simp [recordsOf, Value.kind]
  | sequence items =>
    rw [Value.skeleton_sequence, recordsOf, recordsOf]
    apply verdict_mapM_congr
    intro item _
    cases item <;> simp [Value.kind]

theorem checkShape_skeleton (params : Params) (p : Placeholder) :
    checkShape params.skeleton p = checkShape params p := by
  have hvalue : checkValue params.skeleton p = checkValue params p := by
    unfold checkValue
    rw [ParamsOf.get?_skeleton]
    cases params.get? p.key with
    | none => rfl
    | some value =>
      cases p.modifier.isObject with
      | false => rfl
      | true =>
        cases p.fields? with
        | none => rfl
        | some fields => exact (verdict_recordsOf p.key value).symm
  unfold checkShape
  rw [hvalue]

theorem openEntries_skeleton (params : Params) (p : Placeholder) :
    openEntries params.skeleton p = openEntries params p := by
  unfold openEntries
  rw [ParamsOf.get?_skeleton]
  cases params.get? p.key with
  | none => rfl
  | some value =>
    simp only [Option.map_some, Value.records_skeleton, List.flatMap_map,
      OrderedMap.get?_mapValues, Option.isNone_map]

theorem erasedEntries_skeleton (params : Params) (p : Placeholder) :
    erasedEntries params.skeleton p = erasedEntries params p := by
  unfold erasedEntries
  rw [ParamsOf.get?_skeleton, Option.isNone_map]

end Validation

namespace Template

theorem positionalMatch_skeleton (t : Template) (params : Params) :
    t.positionalMatch params.skeleton = t.positionalMatch params := by
  rw [ParamsOf.skeleton_eq]
  unfold positionalMatch
  obtain _ | _ | items | _ | _ := params.positional <;> simp

theorem report_skeleton (t : Template) (params : Params) :
    t.report params.skeleton = t.report params := by
  have hopen : Validation.openEntries params.skeleton = Validation.openEntries params :=
    funext (Validation.openEntries_skeleton params)
  have herased : Validation.erasedEntries params.skeleton = Validation.erasedEntries params :=
    funext (Validation.erasedEntries_skeleton params)
  rw [report, report, positionalEntries, positionalEntries, positionalMatch_skeleton, hopen, herased]

theorem verdict_positionalTexts (t : Template) (a a' : Adapter) (params : Params) :
    verdict (t.positionalTexts a params) = verdict (t.positionalTexts a' params.skeleton) := by
  rw [ParamsOf.skeleton_eq]
  unfold positionalTexts
  split
  · rfl
  · cases params.positional with
    | none => rfl
    | some value =>
      cases value with
      | scalar _ | record _ | condition _ => simp
      | sequence items =>
        rw [Option.map_some, Value.skeleton_sequence]
        exact verdict_mapM_congr _ fun item _ => Adapter.verdict_staticText _ item

end Template

/-! ### The order of the keys -/

section Sorting

variable {α β : Type} {le : α → α → Bool} {le' : β → β → Bool} {f : α → β}

theorem map_insertSorted (hle : ∀ x y, le x y = le' (f x) (f y)) (x : α) (xs : List α) :
    (insertSorted le x xs).map f = insertSorted le' (f x) (xs.map f) := by
  induction xs with
  | nil => rfl
  | cons y ys ih =>
    rw [insertSorted, List.map_cons, insertSorted, ← hle]
    split
    · rfl
    · rw [List.map_cons, ih]

theorem map_sortStable (hle : ∀ x y, le x y = le' (f x) (f y)) (xs : List α) :
    (sortStable le xs).map f = sortStable le' (xs.map f) := by
  induction xs with
  | nil => rfl
  | cons x xs ih => rw [sortStable, map_insertSorted hle, ih, List.map_cons, sortStable]

end Sorting

/-- Longer keys before shorter ones, keys of the same length in the order in which they came. -/
def longestKeysFirst (keys : List String) : List String :=
  sortStable (fun x y => decide (y.utf8ByteSize ≤ x.utf8ByteSize)) keys

theorem Adapter.forM_checkKey_longestFirst (a : Adapter) (t : Template) (params : Params) :
    ((Template.longestFirst (a.fillers params.named.entries)).forM fun entry =>
        a.checkKey t params entry.1) =
      (longestKeysFirst params.named.keys).forM (a.checkKey t params) := by
  have hkeys : (Template.longestFirst (a.fillers params.named.entries)).map Prod.fst =
      longestKeysFirst params.named.keys := by
    rw [Template.longestFirst, longestKeysFirst, OrderedMap.keys, ← a.map_fst_fillers]
    apply map_sortStable
    intro x y
    rfl
  rw [← hkeys, List.forM_eq_forM, List.forM_eq_forM, List.forM_map]

/-! ### Resolution -/

namespace Adapter

variable {a a' : Adapter} {params params' : Params}

/-- Resolutions are checked alike if validation finds the same in both, and if each value that fails
in one of them fails in the other in the same way. -/
theorem check_eq_of_verdict {t : Template} (hshapes : ∀ p ∈ t.namedPlaceholders,
      Validation.checkShape params p = Validation.checkShape params' p)
    (hreport : t.report params = t.report params')
    (hkeys : params.named.keys = params'.named.keys)
    (hpositional : verdict (t.positionalTexts a params) = verdict (t.positionalTexts a' params'))
    (htexts : ∀ p ∈ t.namedPlaceholders,
      verdict (a.text (params.get? p.key) p) = verdict (a'.text (params'.get? p.key) p)) :
    a.check t params = a'.check t params' := by
  have hkey : a.checkKey t params = a'.checkKey t params' := by
    funext key
    have hfilled : (t.namedPlaceholders.filter (·.key == key)).forM (a.checkText params) =
        (t.namedPlaceholders.filter (·.key == key)).forM (a'.checkText params') :=
      forM_congr fun p hp => htexts p (List.mem_filter.mp hp).1
    rw [checkKey, checkKey, hfilled]
  unfold verdict at hpositional
  rw [check, check, forM_congr hshapes, hreport, hpositional, forM_checkKey_longestFirst,
    forM_checkKey_longestFirst, hkeys, hkey]

/-- If each value fails like its skeleton, then so does a resolution. -/
theorem check_skeleton
    (hfiller : ∀ v ∈ params.values, ∀ p, verdict (a.filler v p) = verdict (a'.filler v.skeleton p))
    (t : Template) : a.check t params = a'.check t params.skeleton := by
  apply check_eq_of_verdict
  · exact fun p _ => (Validation.checkShape_skeleton params p).symm
  · exact (t.report_skeleton params).symm
  · rw [ParamsOf.skeleton_eq]
    exact (OrderedMap.keys_mapValues _ _).symm
  · exact t.verdict_positionalTexts a a' params
  · intro p _
    rw [ParamsOf.get?_skeleton]
    cases hvalue : params.get? p.key with
    | none => rfl
    | some value => exact hfiller value (ParamsOf.mem_values_of_get? hvalue) p

theorem verdict_resolve (a : Adapter) (text : String) (params : Params) :
    verdict (a.resolve (ofText text) params) = a.check (ofText text) params :=
  (a.resolve_checkedBy text params).verdict_eq

theorem verdict_filler (hnames : ∀ name, (a.identifier name).isSome = (a'.identifier name).isSome)
    (v : Value) : ∀ p, verdict (a.filler v p) = verdict (a'.filler v.skeleton p) := by
  have hvalue : ∀ p v, verdict (a.valueText p v) = verdict (a'.valueText p v.skeleton) :=
    fun p => verdict_valueText fun _ => hnames
  induction v using Value.induction with
  | scalar s =>
    intro p
    simpa [filler] using hvalue p (.scalar s)
  | sequence items _ =>
    intro p
    simpa [filler] using hvalue p (.sequence items)
  | record fields _ =>
    intro p
    simpa [filler] using hvalue p (.record fields)
  | condition c ih =>
    intro p
    have hwritten := hvalue p (.condition c)
    have hparts : verdict (a.partTexts c.parts) =
        verdict (a'.partTexts (c.parts.map fun part => (part.1, part.2.skeleton))) := by
      rw [partTexts_eq_mapM, partTexts_eq_mapM]
      apply verdict_mapM_congr
      intro part hpart
      rw [verdict_resolve, verdict_resolve]
      exact check_skeleton (ih part hpart) _
    rw [Value.skeleton_condition] at hwritten ⊢
    simp only [filler]
    split
    · rw [conditionText, conditionText]
      exact verdict_bind_congr hparts fun _ _ => rfl
    · exact hwritten

theorem verdict_resolve_skeleton (a : Adapter) (text : String) (params : Params) :
    verdict (a.resolve (ofText text) params) = verdict (a.resolve (ofText text) params.skeleton) := by
  rw [verdict_resolve, verdict_resolve]
  apply check_skeleton
  intro v _
  exact verdict_filler (fun _ => rfl) v

/-- With parameters that differ in scalars only, a template resolves for both or fails for both, and
then with one and the same error. -/
theorem resolve_same_skeleton (a : Adapter) (text : String) {params params' : Params}
    (h : params.skeleton = params'.skeleton) :
    ((∃ sql, a.resolve (ofText text) params = .ok sql) ↔
        ∃ sql, a.resolve (ofText text) params' = .ok sql) ∧
      ∀ e, a.resolve (ofText text) params = .error e ↔
        a.resolve (ofText text) params' = .error e := by
  have hverdict : verdict (a.resolve (ofText text) params) =
      verdict (a.resolve (ofText text) params') := by
    calc verdict (a.resolve (ofText text) params)
        = verdict (a.resolve (ofText text) params.skeleton) :=
          a.verdict_resolve_skeleton text params
      _ = verdict (a.resolve (ofText text) params'.skeleton) := by rw [h]
      _ = verdict (a.resolve (ofText text) params') := (a.verdict_resolve_skeleton text params').symm
  exact ⟨exists_ok_iff_of_verdict_eq hverdict, fun _ => error_iff_of_verdict_eq hverdict⟩

theorem resolve_hidden_text :
    (ParamsOf.ofList [("a", .scalar (.text "secret")), ("~w", .condition ⟨"OR",
        [("b = :!b", .ofList [("!b", .sequence [.scalar (.int 1)])])]⟩)] : Params).skeleton =
      (ParamsOf.ofList [("a", .scalar .null), ("~w", .condition ⟨"OR",
        [("b = :!b", .ofList [("!b", .sequence [.scalar (.text "secret")])])]⟩)] :
          Params).skeleton ∧
      Dialect.mysql.adapter.resolve (ofText ":a :~w")
        (.ofList [("a", .scalar .null), ("~w", .condition ⟨"OR",
          [("b = :!b", .ofList [("!b", .sequence [.scalar (.text "secret")])])]⟩)]) =
        .error (.invalid "!b" .scalar) := by
  have hskeleton : (ParamsOf.ofList [("a", .scalar (.text "secret")), ("~w", .condition ⟨"OR",
        [("b = :!b", .ofList [("!b", .sequence [.scalar (.int 1)])])]⟩)] : Params).skeleton =
      (ParamsOf.ofList [("a", .scalar .null), ("~w", .condition ⟨"OR",
        [("b = :!b", .ofList [("!b", .sequence [.scalar (.text "secret")])])]⟩)] :
          Params).skeleton := by rfl
  have hresolve : Dialect.mysql.adapter.resolve (ofText ":a :~w")
      (.ofList [("a", .scalar (.text "secret")), ("~w", .condition ⟨"OR",
        [("b = :!b", .ofList [("!b", .sequence [.scalar (.int 1)])])]⟩)]) =
        .error (.invalid "!b" .scalar) := by decide +kernel
  exact ⟨hskeleton, ((resolve_same_skeleton _ _ hskeleton).2 _).mp hresolve⟩

end Adapter

end SqlTemplate
