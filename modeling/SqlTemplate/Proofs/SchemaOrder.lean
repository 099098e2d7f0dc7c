import SqlTemplate.Proofs.Skeleton

/-!
Records under a schema. A placeholder with a schema asks for the fields that it lists and for no
others, and writes them in the order of the list (`Row`). So if every placeholder of a key has a schema,
neither the order in which the records under that key were filled nor what else they hold can show in
a resolution (`resolve_agreeing_records`).
-/

namespace SqlTemplate

open Template (ofText)

/-! ### Agreement -/

namespace OrderedMap

variable {α : Type} {m m' : OrderedMap α} {keys : List String}

/-- Both maps hold the same under the listed keys. -/
def AgreeOn (keys : List String) (m m' : OrderedMap α) : Prop :=
  ∀ key ∈ keys, m.get? key = m'.get? key

theorem AgreeOn.symm (h : AgreeOn keys m m') : AgreeOn keys m' m := by
  intro key hkey
  exact (h key hkey).symm

theorem AgreeOn.trans {m'' : OrderedMap α} (h : AgreeOn keys m m') (h' : AgreeOn keys m' m'') :
    AgreeOn keys m m'' := by
  intro key hkey
  exact (h key hkey).trans (h' key hkey)

theorem agreeOn_insert {key : String} (hkey : key ∉ keys) (m : OrderedMap α) (value : α) :
    AgreeOn keys m (m.insert key value) := by
  intro other hother
  have hne : other ≠ key := by
    rintro rfl
    exact hkey hother
  rw [get?_insert, if_neg hne]

theorem get?_eq_some_iff_mem (hnodup : m.keys.Nodup) {key : String} {value : α} :
    m.get? key = some value ↔ (key, value) ∈ m.entries := by
  refine ⟨mem_of_get?, fun hmem => ?_⟩
  obtain ⟨before, after, hentries⟩ := List.append_of_mem hmem
  have hbefore : ∀ entry ∈ before, (key == entry.1) = false := by
    intro entry hentry
    rw [keys, hentries, List.map_append, List.map_cons, List.nodup_append] at hnodup
    obtain ⟨-, -, hdisjoint⟩ := hnodup
    have hne := hdisjoint entry.1 (List.mem_map_of_mem hentry) key List.mem_cons_self
    exact beq_false_of_ne hne.symm
  exact List.lookup_eq_some_iff.mpr ⟨before, after, hentries, by simpa using hbefore⟩

/-- Maps with the same entries in another order hold the same under all keys. -/
theorem agreeOn_of_perm (hnodup : m.keys.Nodup) (hperm : m.entries.Perm m'.entries)
    (keys : List String) : AgreeOn keys m m' := by
  intro key _
  have hnodup' : m'.keys.Nodup := (hperm.map Prod.fst).nodup_iff.mp hnodup
  apply Option.ext
  intro value
  rw [get?_eq_some_iff_mem hnodup, get?_eq_some_iff_mem hnodup', hperm.mem_iff]

end OrderedMap

/-- Two records, or two sequences of equally many records, that hold the same in the listed fields. -/
inductive Value.AgreeOn (fields : List String) : Value → Value → Prop where
  | record {r r' : Record} (h : r.AgreeOn fields r') : AgreeOn fields (.record r) (.record r')
  | sequence {rs rs' : List Record} (h : List.Forall₂ (OrderedMap.AgreeOn fields) rs rs') :
      AgreeOn fields (.sequence (rs.map .record)) (.sequence (rs'.map .record))

namespace Value

variable {fields : List String} {v v' : Value}

theorem AgreeOn.symm (h : v.AgreeOn fields v') : v'.AgreeOn fields v := by
  cases h with
  | record h => exact .record h.symm
  | sequence h => exact .sequence (h.flip.imp fun _ _ hr => OrderedMap.AgreeOn.symm hr)

theorem AgreeOn.mono {fields' : List String} (h : v.AgreeOn fields v') (hsub : fields' ⊆ fields) :
    v.AgreeOn fields' v' := by
  cases h with
  | record h => exact .record fun field hfield => h field (hsub hfield)
  | sequence h => exact .sequence (h.imp fun _ _ hr field hfield => hr field (hsub hfield))

theorem records_sequence_map (rs : List Record) : (sequence (rs.map record)).records = rs := by
  rw [records, List.filterMap_map]
  exact List.filterMap_some

theorem AgreeOn.records (h : v.AgreeOn fields v') :
    List.Forall₂ (OrderedMap.AgreeOn fields) v.records v'.records := by
  cases h with
  | record h => exact .cons h .nil
  | sequence h => simpa only [records_sequence_map] using h

theorem AgreeOn.exists_recordsOf (h : v.AgreeOn fields v') (key : String) :
    ∃ records, Validation.recordsOf key v = .ok records := by
  cases h with
  | record _ => exact ⟨_, rfl⟩
  | @sequence rs rs' _ =>
    rw [Validation.recordsOf, exists_mapM_eq_ok_iff, List.forall_mem_map]
    exact fun r _ => ⟨r, rfl⟩

end Value

/-- Both parameters hold the same under all keys but one, and their keys are filled in one order. -/
structure ParamsOf.SameExcept (key : String) (params params' : Params) : Prop where
  keys : params.named.keys = params'.named.keys
  positional : params.positional = params'.positional
  get?_eq : ∀ other, other ≠ key → params.get? other = params'.get? other

theorem ParamsOf.sameExcept_insert {key : String} (hkey : key ≠ positionalKey) (params : Params)
    (value value' : Value) :
    SameExcept key (params.insert key value) (params.insert key value') where
  keys := by simp [ParamsOf.insert, hkey, OrderedMap.keys_insert]
  positional := by simp [ParamsOf.insert, hkey]
  get?_eq other hother := by simp [hother]

/-! ### What a resolution takes from its parameters -/

variable {a : Adapter} {params params' : Params} {p : Placeholder}

/-- For the placeholder, both parameters are checked, reported and written alike. -/
structure Adapter.TakesAlike (a : Adapter) (params params' : Params) (p : Placeholder) : Prop where
  shape : Validation.checkShape params p = Validation.checkShape params' p
  openEntries : Validation.openEntries params p = Validation.openEntries params' p
  erasedEntries : Validation.erasedEntries params p = Validation.erasedEntries params' p
  text : a.text (params.get? p.key) p = a.text (params'.get? p.key) p

theorem Adapter.takesAlike_of_get?_eq (a : Adapter) (h : params.get? p.key = params'.get? p.key) :
    a.TakesAlike params params' p where
  shape := by simp only [Validation.checkShape, Validation.checkValue, h]
  openEntries := by simp only [Validation.openEntries, h]
  erasedEntries := by simp only [Validation.erasedEntries, h]
  text := by rw [h]

namespace Template

variable {t : Template}

theorem positionalTexts_congr (hpositional : params.positional = params'.positional) :
    t.positionalTexts a params = t.positionalTexts a params' := by
  rw [positionalTexts, positionalTexts, hpositional]

theorem report_congr (hpositional : params.positional = params'.positional)
    (h : ∀ p ∈ t.namedPlaceholders, a.TakesAlike params params' p) :
    t.report params = t.report params' := by
  have hopen := List.flatMap_congr fun p hp => (h p hp).openEntries
  have herased := List.flatMap_congr fun p hp => (h p hp).erasedEntries
  rw [report, report, hopen, herased, positionalEntries, positionalEntries, positionalMatch,
    positionalMatch, hpositional]

end Template

namespace Adapter

theorem check_congr {t : Template} (hkeys : params.named.keys = params'.named.keys)
    (hpositional : params.positional = params'.positional)
    (h : ∀ p ∈ t.namedPlaceholders, a.TakesAlike params params' p) :
    a.check t params = a.check t params' := by
  apply check_eq_of_verdict _ (Template.report_congr hpositional h) hkeys
  · rw [Template.positionalTexts_congr hpositional]
  · intro p hp
    rw [(h p hp).text]
  · exact fun p hp => (h p hp).shape

theorem Renders.congr {text sql : String} (hsql : a.Renders text params sql)
    (hpositional : params.positional = params'.positional)
    (h : ∀ p ∈ (ofText text).namedPlaceholders, a.TakesAlike params params' p) :
    a.Renders text params' sql := by
  obtain ⟨texts, hfills, rfl⟩ := hsql
  have hitems : params.items = params'.items := by rw [ParamsOf.items, ParamsOf.items, hpositional]
  refine ⟨texts, ?_, rfl⟩
  rw [← hitems]
  apply hfills.congr
  intro p hp hnamed
  exact (h p (List.mem_filter.mpr ⟨hp, by rw [hnamed]; rfl⟩)).text

/-- A resolution takes nothing else from its parameters. -/
theorem resolve_eq_of_takesAlike {text : String} (hkeys : params.named.keys = params'.named.keys)
    (hpositional : params.positional = params'.positional)
    (h : ∀ p ∈ (ofText text).namedPlaceholders, a.TakesAlike params params' p) :
    a.resolve (ofText text) params = a.resolve (ofText text) params' := by
  have hrun := a.resolve_checkedBy text params
  rw [check_congr hkeys hpositional h] at hrun
  refine hrun.eq_of_unique (a.resolve_checkedBy text params') fun s s' hs hs' => ?_
  exact (hs.congr hpositional h).unique hs'

end Adapter

/-! ### Records of one schema -/

section Schema

variable {fields : List String} {v v' : Value} (hobject : p.modifier.isObject = true)
  (hfields : p.fields? = some fields)

namespace Adapter

include hobject in
theorem text_of_isObject (a : Adapter) (v : Value) : a.text (some v) p = a.objectText p v := by
  have hvalue : a.valueText p v = a.objectText p v := by
    unfold valueText
    cases hmodifier : p.modifier with
    | insert | update => rfl
    | plain | raw | condition | optional =>
      rw [hmodifier] at hobject
      cases hobject
  have hcondition : p.modifier ≠ .condition := by
    intro hcondition
    rw [hcondition] at hobject
    cases hobject
  rw [a.text_eq_valueText fun h => absurd h hcondition, hvalue]

include hfields in
theorem recordText_congr {r r' : Record} (h : r.AgreeOn fields r') :
    a.recordText p r = a.recordText p r' := by
  have htexts : fields.mapM (a.fieldText p r) = fields.mapM (a.fieldText p r') := by
    apply mapM_congr
    intro field hfield
    rw [fieldText, fieldText, h field hfield]
  rw [recordText, recordText, hfields, Option.getD_some, Option.getD_some, htexts]

include hfields in
theorem objectText_congr (h : v.AgreeOn fields v') : a.objectText p v = a.objectText p v' := by
  cases h with
  | record h => exact recordText_congr hfields h
  | @sequence rs rs' h =>
    have hitems : List.Forall₂ (fun item item' => a.objectItemText p item = a.objectItemText p item')
        (rs.map .record) (rs'.map .record) := by
      rw [List.forall₂_map_left_iff, List.forall₂_map_right_iff]
      exact h.imp fun _ _ hr => recordText_congr hfields hr
    rw [objectText, objectText, mapM_congr_forall₂ hitems]

end Adapter

namespace Validation

theorem checkValue_eq_ok (hvalue : params.get? p.key = some v) (h : v.AgreeOn fields v') :
    checkValue params p = .ok () := by
  obtain ⟨records, hrecords⟩ := h.exists_recordsOf p.key
  rw [checkValue, hvalue]
  split
  · next hsome _ _ =>
    cases hsome
    rw [hrecords]
    rfl
  · rfl

theorem lackedFields_congr {rs rs' : List Record} (key : String)
    (h : List.Forall₂ (OrderedMap.AgreeOn fields) rs rs') :
    lackedFields key fields rs = lackedFields key fields rs' := by
  induction h with
  | nil => rfl
  | @cons r r' _ _ hr _ ih =>
    have hlacked : (fields.filter fun field => !r.contains field) =
        fields.filter fun field => !r'.contains field := by
      apply List.filter_congr
      intro field hfield
      rw [OrderedMap.contains, OrderedMap.contains, hr field hfield]
    rw [lackedFields, List.flatMap_cons, hlacked]
    exact congrArg _ ih

include hobject hfields in
theorem openEntries_of_get? (hvalue : params.get? p.key = some v) :
    openEntries params p = lackedFields p.key fields v.records := by
  simp [openEntries, lackedFields, OrderedMap.contains, hvalue, hobject, hfields]

end Validation

include hobject hfields in
theorem Adapter.takesAlike_of_agreeOn (a : Adapter) (hvalue : params.get? p.key = some v)
    (hvalue' : params'.get? p.key = some v') (h : v.AgreeOn fields v') :
    a.TakesAlike params params' p where
  shape := by
    rw [Validation.checkShape, Validation.checkShape, Validation.checkValue_eq_ok hvalue h,
      Validation.checkValue_eq_ok hvalue' h.symm]
  openEntries := by
    rw [Validation.openEntries_of_get? hobject hfields hvalue,
      Validation.openEntries_of_get? hobject hfields hvalue',
      Validation.lackedFields_congr p.key h.records]
  erasedEntries := by
    rw [Validation.erasedEntries, Validation.erasedEntries, hvalue, hvalue']
    rfl
  text := by
    rw [hvalue, hvalue', text_of_isObject hobject, text_of_isObject hobject,
      objectText_congr hfields h]

/-! ### The order of the columns -/

theorem Modifier.eq_insert_of_isObject {modifier : Modifier} (h : modifier.isObject = true)
    (hne : modifier ≠ .update) : modifier = .insert := by
  cases modifier with
  | insert => rfl
  | update => exact absurd rfl hne
  | plain | raw | condition | optional => cases h

namespace Adapter

/-- The text of a field of a record: its value, and in an update its column's name before it. -/
inductive Column (a : Adapter) (p : Placeholder) (r : Record) (field : String) :
    String → Prop where
  | value {value : Value} {text : String} (hinsert : p.modifier = .insert)
      (hvalue : r.get? field = some value) (htext : a.staticText p.key value = .ok text) :
      Column a p r field text
  | assignment {value : Value} {text name : String} (hupdate : p.modifier = .update)
      (hvalue : r.get? field = some value) (htext : a.staticText p.key value = .ok text)
      (hname : a.identifier field = some name) : Column a p r field (name ++ " = " ++ text)

/-- The text of a record: a tuple, or in an update a list, with a column for each of the fields in
their order. -/
inductive Row (a : Adapter) (p : Placeholder) (fields : List String) (r : Record) :
    String → Prop where
  | tuple {columns : List String} (hinsert : p.modifier = .insert)
      (hcolumns : List.Forall₂ (a.Column p r) fields columns) :
      Row a p fields r (parenthesized (commaList columns))
  | assignments {columns : List String} (hupdate : p.modifier = .update)
      (hcolumns : List.Forall₂ (a.Column p r) fields columns) :
      Row a p fields r (commaList columns)

include hobject

theorem column_of_fieldText {r : Record} {field s : String} (h : a.fieldText p r field = .ok s) :
    a.Column p r field s := by
  unfold fieldText at h
  cases hvalue : r.get? field with
  | none =>
    rw [hvalue] at h
    cases h
  | some value =>
    rw [hvalue] at h
    obtain ⟨text, htext, h⟩ := bind_eq_ok_iff.mp h
    split at h
    · next hupdate =>
      cases hname : a.identifier field with
      | none =>
        rw [hname] at h
        cases h
      | some name =>
        rw [hname] at h
        cases h
        exact .assignment hupdate hvalue htext hname
    · next hupdate =>
      cases h
      exact .value (Modifier.eq_insert_of_isObject hobject hupdate) hvalue htext

include hfields

theorem row_of_recordText {r : Record} {s : String} (h : a.recordText p r = .ok s) :
    a.Row p fields r s := by
  rw [recordText, hfields, Option.getD_some] at h
  obtain ⟨columns, hcolumns, h⟩ := bind_eq_ok_iff.mp h
  cases h
  have hcolumns := (mapM_eq_ok_iff.mp hcolumns).imp fun _ _ => column_of_fieldText hobject
  split
  · next hupdate => exact .assignments hupdate hcolumns
  · next hupdate => exact .tuple (Modifier.eq_insert_of_isObject hobject hupdate) hcolumns

theorem rows_of_items {items : List Value} {rows : List String}
    (h : List.Forall₂ (fun item row => a.objectItemText p item = .ok row) items rows) :
    ∃ records, Validation.recordsOf p.key (.sequence items) = .ok records ∧
      List.Forall₂ (a.Row p fields) records rows := by
  induction h with
  | nil => exact ⟨[], rfl, .nil⟩
  | @cons item row items rows hrow _ ih =>
    obtain ⟨records, hrecords, hrows⟩ := ih
    cases item with
    | scalar _ | sequence _ | condition _ => cases hrow
    | record r =>
      refine ⟨r :: records, ?_, .cons (row_of_recordText hobject hfields hrow) hrows⟩
      rw [Validation.recordsOf] at hrecords ⊢
      rw [List.mapM_cons, hrecords]
      rfl

/-- What is written under a schema is a row for each record. -/
theorem rows_of_text {value : Option Value} {s : String} (h : a.text value p = .ok s) :
    ∃ v records rows, value = some v ∧ Validation.recordsOf p.key v = .ok records ∧
      List.Forall₂ (a.Row p fields) records rows ∧ s = commaList rows := by
  cases value with
  | none =>
    have hoptional : p.modifier ≠ .optional := by
      intro hoptional
      rw [hoptional] at hobject
      cases hobject
    rw [text, if_neg hoptional] at h
    cases h
  | some v =>
    rw [text_of_isObject hobject] at h
    cases v with
    | scalar _ | condition _ => cases h
    | record r =>
      have hrow : a.Row p fields r s := row_of_recordText hobject hfields h
      exact ⟨_, [r], [s], rfl, rfl, .cons hrow .nil, by simp [commaList]⟩
    | sequence items =>
      have hschema : p.schema.isNone = false := by
        obtain ⟨schema, hschema, -⟩ := Option.map_eq_some_iff.mp hfields
        rw [hschema]
        rfl
      rw [objectText, hschema, Bool.false_and, if_neg Bool.false_ne_true] at h
      obtain ⟨rows, hrows, h⟩ := bind_eq_ok_iff.mp h
      cases h
      obtain ⟨records, hrecords, hrows⟩ := rows_of_items hobject hfields (mapM_eq_ok_iff.mp hrows)
      exact ⟨_, records, rows, rfl, hrecords, hrows, rfl⟩

end Adapter

end Schema

/-! ### Resolution -/

theorem Modifier.readModifier_symbol_append {modifier : Modifier} (h : modifier.isObject = true)
    (cs : List Char) : Placeholder.readModifier (modifier.symbol.toList ++ cs) = (modifier, cs) := by
  cases modifier with
  | insert | update => rfl
  | plain | raw | condition | optional => cases h

/-- The first character of a key tells that its placeholders are filled with records. -/
theorem Placeholder.isObject_of_key_eq {modifier : Modifier} {name : String}
    (hname : IsName p.name.toList) (hobject : modifier.isObject = true)
    (hkey : p.key = modifier.symbol ++ name) : p.modifier.isObject = true := by
  have hread := hname.readModifier_append p.modifier
  rw [← toList_key, hkey, String.toList_append,
    Modifier.readModifier_symbol_append hobject] at hread
  obtain ⟨rfl, -⟩ := Prod.mk.inj hread
  exact hobject

/-- The fields that the schemas of a key list. -/
def Template.listedFields (t : Template) (key : String) : List String :=
  (t.namedPlaceholders.filter (·.key == key)).flatMap fun p => p.fields?.getD []

theorem Template.subset_listedFields {t : Template} {fields : List String}
    (hp : p ∈ t.namedPlaceholders) (hfields : p.fields? = some fields) :
    fields ⊆ t.listedFields p.key := by
  intro field hfield
  refine List.mem_flatMap.mpr ⟨p, List.mem_filter.mpr ⟨hp, beq_self_eq_true p.key⟩, ?_⟩
  rw [hfields]
  exact hfield

namespace Adapter

/-- Where all placeholders of a key have schemas, the records under it are only known by the listed
fields, and every record under a schema is written in the order of the schema. -/
theorem resolve_agreeing_records (a : Adapter) (text : String) {modifier : Modifier}
    {key name : String} {v v' : Value} (hobject : modifier.isObject = true)
    (hkey : key = modifier.symbol ++ name)
    (hschema : ∀ p ∈ (ofText text).namedPlaceholders, p.key = key → p.schema.isSome = true)
    (hsame : params.SameExcept key params') (hvalue : params.get? key = some v)
    (hvalue' : params'.get? key = some v')
    (hagree : v.AgreeOn ((ofText text).listedFields key) v') :
    a.resolve (ofText text) params = a.resolve (ofText text) params' ∧
      ∀ sql, a.resolve (ofText text) params = .ok sql → ∃ texts,
        texts.length = (ofText text).placeholders.length ∧
        sql = interleave text 0 ((ofText text).tokens.zip texts) ∧
        ∀ p s fields, (p, s) ∈ (ofText text).placeholders.zip texts →
          p.modifier.isObject = true → p.fields? = some fields →
          ∃ value records rows, params.get? p.key = some value ∧
            Validation.recordsOf p.key value = .ok records ∧
            List.Forall₂ (a.Row p fields) records rows ∧ s = commaList rows := by
  constructor
  · refine resolve_eq_of_takesAlike hsame.keys hsame.positional fun p hp => ?_
    by_cases hpkey : p.key = key
    · have hmodifier : p.modifier.isObject = true :=
        Placeholder.isObject_of_key_eq (Template.isName_of_mem_named hp) hobject (hpkey.trans hkey)
      obtain ⟨schema, hschema⟩ := Option.isSome_iff_exists.mp (hschema p hp hpkey)
      have hfields : p.fields? = some (Placeholder.schemaFields schema) := by
        rw [Placeholder.fields?, hschema]
        rfl
      rw [← hpkey] at hvalue hvalue' hagree
      exact takesAlike_of_agreeOn hmodifier hfields a hvalue hvalue'
        (hagree.mono (Template.subset_listedFields hp hfields))
    · exact a.takesAlike_of_get?_eq (hsame.get?_eq p.key hpkey)
  · intro sql hsql
    obtain ⟨-, texts, hfills, rfl⟩ := (a.resolve_checkedBy text params).check_eq_ok hsql
    refine ⟨texts, hfills.length_eq, rfl, fun p s fields hmem hobject hfields => ?_⟩
    have hnamed : p.isPositional = false := by
      obtain ⟨_, _, hreads⟩ := Template.exists_reads_of_mem (List.of_mem_zip hmem).1
      obtain rfl | hname := hreads.eq_positional_or_isName
      · cases hobject
      · exact hname.isPositional_eq_false
    exact rows_of_text hobject hfields (hfills.text_eq_of_mem_zip hmem hnamed)

theorem resolve_reordered_record :
    Dialect.postgres.adapter.resolve (ofText ":$r\x7ba,b\x7d :@s :$r\x7bb\x7d")
        ((ParamsOf.ofList [("@s", .record (.ofList [("z", .scalar .null)]))]).insert "$r"
          (.sequence [.record (.ofList [("c", .scalar .null), ("b", .scalar (.int 2)),
            ("a", .scalar (.text "x"))])])) =
      .ok "('x', 2) z = NULL (2)" := by
  have hplaceholders : (ofText ":$r\x7ba,b\x7d :@s :$r\x7bb\x7d").namedPlaceholders =
      [⟨":$r\x7ba,b\x7d", .insert, "r", some "a,b"⟩, ⟨":@s", .update, "s", none⟩,
        ⟨":$r\x7bb\x7d", .insert, "r", some "b"⟩] := by decide +kernel
  have hschema : ∀ p ∈ (ofText ":$r\x7ba,b\x7d :@s :$r\x7bb\x7d").namedPlaceholders,
      p.key = "$r" → p.schema.isSome = true := by
    rw [hplaceholders]
    decide
  have hlisted : (ofText ":$r\x7ba,b\x7d :@s :$r\x7bb\x7d").listedFields "$r" = ["a", "b", "b"] := by
    rw [Template.listedFields, hplaceholders]
    decide
  have hinsert : OrderedMap.AgreeOn ["a", "b", "b"]
      (.ofList [("a", Value.scalar (.text "x")), ("b", .scalar (.int 2))])
      (.ofList [("a", .scalar (.text "x")), ("b", .scalar (.int 2)), ("c", .scalar .null)]) :=
    OrderedMap.agreeOn_insert (by decide) _ _
  have hperm : OrderedMap.AgreeOn ["a", "b", "b"]
      (.ofList [("a", Value.scalar (.text "x")), ("b", .scalar (.int 2)), ("c", .scalar .null)])
      (.ofList [("c", .scalar .null), ("b", .scalar (.int 2)), ("a", .scalar (.text "x"))]) :=
    OrderedMap.agreeOn_of_perm (by decide) (List.reverse_perm _).symm _
  have hagree := Value.AgreeOn.sequence (.cons (hinsert.trans hperm) .nil)
  rw [← hlisted] at hagree
  have hsame := @ParamsOf.sameExcept_insert "$r" (by decide)
    (.ofList [("@s", .record (.ofList [("z", .scalar .null)]))])
    (.sequence [.record (.ofList [("a", .scalar (.text "x")), ("b", .scalar (.int 2))])])
    (.sequence [.record (.ofList [("c", .scalar .null), ("b", .scalar (.int 2)),
      ("a", .scalar (.text "x"))])])
  have hobject : Modifier.insert.isObject = true := rfl
  have hkey : "$r" = Modifier.insert.symbol ++ "r" := rfl
  rw [← (resolve_agreeing_records Dialect.postgres.adapter _ hobject hkey hschema hsame rfl rfl
    hagree).1]
  decide +kernel

end Adapter

end SqlTemplate
