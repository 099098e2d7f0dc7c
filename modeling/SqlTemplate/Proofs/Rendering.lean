import SqlTemplate.Proofs.Outcome
import SqlTemplate.Proofs.Validation
import SqlTemplate.Rendering

/-!
What can go wrong when a value is written for a placeholder. Most faults that writing knows have been
found by validation before: a value whose shape was checked and that lacks nothing can only be of the
wrong kind, or the adapter has no names for columns (`WritingFault`). What is written depends on the
modifier and the schema of the placeholder, and its key only shows in faults (`toOption_valueText`).
-/

namespace SqlTemplate

/-- A value of another kind than can be written where it stands. -/
inductive KindFault (key : String) : Error → Prop where
  | scalar : KindFault key (.invalid key .scalar)
  | scalarOrSequence : KindFault key (.invalid key .scalarOrSequence)
  | nestedScalars : KindFault key (.invalid key .nestedScalars)

theorem KindFault.exists_invalid {key : String} {e : Error} (h : KindFault key e) :
    ∃ expected, expected ≠ .condition ∧ e = .invalid key expected := by
  cases h with
  | scalar => exact ⟨.scalar, by decide, rfl⟩
  | scalarOrSequence => exact ⟨.scalarOrSequence, by decide, rfl⟩
  | nestedScalars => exact ⟨.nestedScalars, by decide, rfl⟩

/-- The faults of writing that validation does not look for. -/
inductive WritingFault (p : Placeholder) : Error → Prop where
  | invalid (expected : Expected) (hcondition : expected = .condition → p.modifier = .condition) :
      WritingFault p (.invalid p.key expected)
  | lacking (hupdate : p.modifier = .update) : WritingFault p (.lacking .identifiers)
  | object (hobject : p.modifier.isObject = true) (hschema : p.schema = none)
      (fault : ObjectFault) : WritingFault p (.invalidObject p.key fault)

theorem KindFault.writingFault {p : Placeholder} {e : Error} (h : KindFault p.key e) :
    WritingFault p e := by
  obtain ⟨expected, hne, rfl⟩ := h.exists_invalid
  exact .invalid expected fun hcondition => absurd hcondition hne

namespace Adapter

variable (a : Adapter)

mutual

theorem itemText_faultsOnly (key : String) : ∀ value : Value,
    FaultsOnly (KindFault key) (a.itemText key value)
  | .scalar s => .ok (a.literal s)
  | .sequence items => by
    rw [itemText]
    exact (itemTexts_faultsOnly key items).bind fun texts _ => .ok _
  | .record _ | .condition _ => .error .nestedScalars

theorem itemTexts_faultsOnly (key : String) : ∀ items : List Value,
    FaultsOnly (KindFault key) (a.itemTexts key items)
  | [] => .ok []
  | item :: items => by
    rw [itemTexts]
    refine (itemText_faultsOnly key item).bind fun text _ => ?_
    exact (itemTexts_faultsOnly key items).bind fun texts _ => .ok _

end

theorem staticText_faultsOnly (key : String) (value : Value) :
    FaultsOnly (KindFault key) (a.staticText key value) := by
  cases value with
  | scalar s => exact .ok (a.literal s)
  | sequence items =>
    rw [staticText]
    exact (a.itemTexts_faultsOnly key items).bind fun texts _ => .ok _
  | record _ | condition _ => exact .error .scalarOrSequence

theorem rawText_faultsOnly (key : String) (value : Value) :
    FaultsOnly (KindFault key) (rawText key value) := by
  cases value with
  | scalar s => exact .ok s.display
  | sequence _ | record _ | condition _ => exact .error .scalar

variable {p : Placeholder}

/-! ### Records -/

theorem fieldText_faultsOnly {fields : Record} {field : String}
    (hfield : (fields.get? field).isSome = true) :
    FaultsOnly (WritingFault p) (a.fieldText p fields field) := by
  obtain ⟨value, hvalue⟩ := Option.isSome_iff_exists.mp hfield
  have htext := (a.staticText_faultsOnly p.key value).imp fun _ => KindFault.writingFault
  simp only [fieldText, hvalue]
  refine htext.bind fun text _ => ?_
  by_cases hupdate : p.modifier = .update
  · rw [if_pos hupdate]
    cases a.identifier field with
    | none => exact .error (.lacking hupdate)
    | some column => exact .ok _
  · rw [if_neg hupdate]
    exact .ok text

theorem recordText_faultsOnly {fields : Record}
    (hfields : ∀ field ∈ p.fields?.getD fields.keys, (fields.get? field).isSome = true) :
    FaultsOnly (WritingFault p) (a.recordText p fields) := by
  have htexts : FaultsOnly (WritingFault p)
      ((p.fields?.getD fields.keys).mapM (a.fieldText p fields)) :=
    .mapM fun field hfield => a.fieldText_faultsOnly (hfields field hfield)
  exact htexts.bind fun texts _ => .ok _

/-- If the placeholder has a schema, the value is made of records that have all its fields. -/
def Supplies (p : Placeholder) (value : Value) : Prop :=
  ∀ schema, p.fields? = some schema → ∃ records, Validation.recordsOf p.key value = .ok records ∧
    ∀ r ∈ records, ∀ field ∈ schema, (r.get? field).isSome = true

theorem recordText_faultsOnly_of_supplies {value : Value} {fields : Record}
    (h : Supplies p value) (hfields : fields ∈ value.records) :
    FaultsOnly (WritingFault p) (a.recordText p fields) := by
  apply recordText_faultsOnly
  intro field hfield
  cases hschema : p.fields? with
  | none =>
    rw [hschema, Option.getD_none, OrderedMap.keys] at hfield
    obtain ⟨entry, hentry, rfl⟩ := List.mem_map.mp hfield
    exact List.lookup_isSome_iff.mpr ⟨entry, hentry, BEq.rfl⟩
  | some schema =>
    obtain ⟨records, hrecords, hall⟩ := h schema hschema
    rw [hschema, Option.getD_some] at hfield
    rw [Validation.records_of_recordsOf hrecords] at hfields
    exact hall fields hfields field hfield

theorem Supplies.writingFault {value : Value} (h : Supplies p value)
    (hobject : p.modifier.isObject = true)
    (hno : ∀ records, Validation.recordsOf p.key value ≠ .ok records) (fault : ObjectFault) :
    WritingFault p (.invalidObject p.key fault) := by
  have hschema : p.schema = none := by
    by_contra hsome
    obtain ⟨schema, hschema⟩ := Option.ne_none_iff_exists'.mp hsome
    have hfields : p.fields? = some (Placeholder.schemaFields schema) := by
      rw [Placeholder.fields?, hschema, Option.map_some]
    obtain ⟨records, hrecords, -⟩ := h _ hfields
    exact hno records hrecords
  exact .object hobject hschema fault

theorem objectItemText_faultsOnly {items : List Value} {item : Value}
    (hobject : p.modifier.isObject = true) (h : Supplies p (.sequence items)) (hitem : item ∈ items) :
    FaultsOnly (WritingFault p) (a.objectItemText p item) := by
  cases item with
  | record fields =>
    have hmem : fields ∈ (Value.sequence items).records :=
      List.mem_filterMap.mpr ⟨.record fields, hitem, rfl⟩
    exact a.recordText_faultsOnly_of_supplies h hmem
  | scalar _ | sequence _ | condition _ =>
    refine .error (h.writingFault hobject ?_ _)
    intro records hrecords
    obtain ⟨r, hr⟩ := exists_mapM_eq_ok_iff.mp ⟨records, hrecords⟩ _ hitem
    cases hr

theorem objectText_faultsOnly {value : Value} (hobject : p.modifier.isObject = true)
    (h : Supplies p value) : FaultsOnly (WritingFault p) (a.objectText p value) := by
  cases value with
  | record fields => exact a.recordText_faultsOnly_of_supplies h (List.mem_singleton_self fields)
  | scalar _ | condition _ =>
    refine .error (h.writingFault hobject ?_ _)
    intro records hrecords
    cases hrecords
  | sequence items =>
    rw [objectText]
    split
    · next hbare =>
      have hschema : p.schema = none := by
        rw [Bool.and_eq_true, Option.isNone_iff_eq_none] at hbare
        exact hbare.1
      exact .error (.object hobject hschema _)
    · have htexts : FaultsOnly (WritingFault p) (items.mapM (a.objectItemText p)) :=
        .mapM fun item hitem => a.objectItemText_faultsOnly hobject h hitem
      exact htexts.bind fun texts _ => .ok _

/-! ### Fragments -/

theorem exists_marker_of_checkFragment (h : Validation.checkFragment p = .ok ()) :
    ∃ fragment, p.schema = some fragment ∧ '*' ∈ fragment.toList := by
  unfold Validation.checkFragment at h
  cases hschema : p.schema with
  | none =>
    rw [hschema] at h
    cases h
  | some fragment =>
    rw [hschema] at h
    by_cases hcount : fragment.toList.count '*' = 1
    · have hpos : 0 < fragment.toList.count '*' := by omega
      exact ⟨fragment, rfl, List.count_pos_iff.mp hpos⟩
    · simp [hcount] at h

theorem fragmentText_faultsOnly (value : Value) (h : Validation.checkFragment p = .ok ()) :
    FaultsOnly (WritingFault p) (a.fragmentText p value) := by
  obtain ⟨fragment, hschema, hmarker⟩ := exists_marker_of_checkFragment h
  have hraw := (rawText_faultsOnly p.key value).imp fun _ => KindFault.writingFault
  have htext := (a.staticText_faultsOnly p.key value).imp fun _ => KindFault.writingFault
  simp only [fragmentText, hschema]
  split
  · next hnil =>
    -- Without a marker nothing would be left.
    have hall := List.dropWhile_eq_nil_iff.mp hnil '*' hmarker
    simp at hall
  · split
    · exact hraw.bind fun text _ => .ok _
    · exact htext.bind fun text _ => .ok _

/-! ### Any placeholder -/

/-- A value that passed validation is written, or is at fault in a way that validation does not look
for. -/
theorem valueText_faultsOnly {value : Value} (hsupplies : p.modifier.isObject = true → Supplies p value)
    (hfragment : p.modifier = .optional → Validation.checkFragment p = .ok ()) :
    FaultsOnly (WritingFault p) (a.valueText p value) := by
  have htext := (a.staticText_faultsOnly p.key value).imp fun _ => KindFault.writingFault
  have hraw := (rawText_faultsOnly p.key value).imp fun _ => KindFault.writingFault
  unfold valueText
  split
  · exact htext
  · exact hraw
  · next hmodifier => exact .error (.invalid .condition fun _ => hmodifier)
  · next hmodifier =>
    have hobject : p.modifier.isObject = true := by rw [hmodifier]; rfl
    exact a.objectText_faultsOnly hobject (hsupplies hobject)
  · next hmodifier =>
    have hobject : p.modifier.isObject = true := by rw [hmodifier]; rfl
    exact a.objectText_faultsOnly hobject (hsupplies hobject)
  · next hmodifier => exact a.fragmentText_faultsOnly value (hfragment hmodifier)

/-! ### What a text depends on -/

mutual

theorem toOption_itemText (key key' : String) : ∀ value : Value,
    (a.itemText key value).toOption = (a.itemText key' value).toOption
  | .scalar _ | .record _ | .condition _ => rfl
  | .sequence items => by
    rw [itemText, itemText, toOption_bind, toOption_bind, toOption_itemTexts key key' items]

theorem toOption_itemTexts (key key' : String) : ∀ items : List Value,
    (a.itemTexts key items).toOption = (a.itemTexts key' items).toOption
  | [] => rfl
  | item :: items => by
    rw [itemTexts, itemTexts, toOption_bind, toOption_bind, toOption_itemText key key' item]
    simp only [toOption_bind, toOption_itemTexts key key' items]

end

theorem toOption_staticText (key key' : String) (value : Value) :
    (a.staticText key value).toOption = (a.staticText key' value).toOption := by
  cases value with
  | scalar _ | record _ | condition _ => rfl
  | sequence items =>
    rw [staticText, staticText, toOption_bind, toOption_bind, a.toOption_itemTexts key key' items]

theorem toOption_rawText (key key' : String) (value : Value) :
    (rawText key value).toOption = (rawText key' value).toOption := by
  cases value <;> rfl

section Alike

variable {p q : Placeholder}

theorem toOption_fieldText (hmodifier : p.modifier = q.modifier) (fields : Record) (field : String) :
    (a.fieldText p fields field).toOption = (a.fieldText q fields field).toOption := by
  unfold fieldText
  cases fields.get? field with
  | none => rfl
  | some value =>
    simp only [toOption_bind, hmodifier, a.toOption_staticText p.key q.key value]

variable (hmodifier : p.modifier = q.modifier) (hschema : p.schema = q.schema)

include hmodifier hschema

theorem toOption_recordText (fields : Record) :
    (a.recordText p fields).toOption = (a.recordText q fields).toOption := by
  have hfields : p.fields? = q.fields? := by rw [Placeholder.fields?, hschema, Placeholder.fields?]
  unfold recordText
  rw [toOption_bind, toOption_bind, toOption_mapM, toOption_mapM, hfields]
  simp only [a.toOption_fieldText hmodifier, hmodifier]

theorem toOption_objectText (value : Value) :
    (a.objectText p value).toOption = (a.objectText q value).toOption := by
  have hrecord := a.toOption_recordText hmodifier hschema
  have hitem : ∀ item, (a.objectItemText p item).toOption = (a.objectItemText q item).toOption := by
    intro item
    cases item with
    | record fields => exact hrecord fields
    | scalar _ | sequence _ | condition _ => rfl
  cases value with
  | record fields => exact hrecord fields
  | scalar _ | condition _ => rfl
  | sequence items =>
    rw [objectText, objectText, hschema, hmodifier]
    split
    · rfl
    · rw [toOption_bind, toOption_bind, toOption_mapM, toOption_mapM]
      simp only [hitem]

omit hmodifier in
theorem toOption_fragmentText (value : Value) :
    (a.fragmentText p value).toOption = (a.fragmentText q value).toOption := by
  unfold fragmentText
  rw [hschema]
  cases q.schema with
  | none => rfl
  | some fragment =>
    dsimp only
    split
    · rfl
    · split
      · simp only [toOption_bind, toOption_rawText p.key q.key]
      · simp only [toOption_bind, a.toOption_staticText p.key q.key]

theorem toOption_valueText (value : Value) :
    (a.valueText p value).toOption = (a.valueText q value).toOption := by
  unfold valueText
  rw [hmodifier]
  split
  · exact a.toOption_staticText p.key q.key value
  · exact toOption_rawText p.key q.key value
  · rfl
  · exact a.toOption_objectText hmodifier hschema value
  · exact a.toOption_objectText hmodifier hschema value
  · exact a.toOption_fragmentText hschema value

end Alike

end Adapter

end SqlTemplate
