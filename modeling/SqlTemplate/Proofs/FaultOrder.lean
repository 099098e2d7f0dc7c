import SqlTemplate.Proofs.Skeleton

/-!
Which fault a resolution reports when there are several. Each stage of a resolution takes its elements
in some order and stops at the first one at fault: placeholders and positional values in the order of
the template, keys by their length. `Adapter.Fault` says which fault comes first without running any
stage, and `resolve_eq_error_iff` that a resolution fails with just that one.
-/

namespace SqlTemplate

open Template (ofText)

/-! ### Keys by their length -/

section Ranked

variable {ε α : Type} {fault : α → ε → Prop} {rank : α → Nat} {l : List α} {e : ε}

/-- Elements of a higher rank come first, those of the same rank in the order of the list. -/
def descending (rank : α → Nat) (x y : α) : Bool := decide (rank y ≤ rank x)

/-- The fault is that of the first element that has one, where elements of a higher rank come before
those of a lower one. -/
def FirstRankedFault (rank : α → Nat) (fault : α → ε → Prop) (l : List α) (e : ε) : Prop :=
  ∃ before a after, l = before ++ a :: after ∧
    (∀ b ∈ before, rank a ≤ rank b → ∀ e', ¬fault b e') ∧
    (∀ c ∈ after, rank a < rank c → ∀ e', ¬fault c e') ∧ fault a e

/-- Where a new element lands in front of another one, it outranks that one or something before it. -/
theorem insertSorted_split (rank : α → Nat) (x a : α) (pre post : List α) :
    ∃ pre' post', insertSorted (descending rank) x (pre ++ a :: post) = pre' ++ a :: post' ∧
      ∀ b ∈ pre', b ∈ pre ∨ b = x ∧ (rank a ≤ rank x ∨ ∃ y ∈ pre, rank y ≤ rank x) := by
  induction pre with
  | nil =>
    rw [List.nil_append, insertSorted]
    by_cases hxa : rank a ≤ rank x
    · exact ⟨[x], post, by simp [descending, hxa], by simp [hxa]⟩
    · exact ⟨[], insertSorted (descending rank) x post, by simp [descending, hxa], by simp⟩
  | cons y pre ih =>
    rw [List.cons_append, insertSorted]
    by_cases hxy : rank y ≤ rank x
    · refine ⟨x :: y :: pre, post, by simp [descending, hxy], ?_⟩
      intro b hb
      obtain rfl | hb := List.mem_cons.mp hb
      · exact .inr ⟨rfl, .inr ⟨y, List.mem_cons_self, hxy⟩⟩
      · exact .inl hb
    · obtain ⟨pre', post', heq, hpre'⟩ := ih
      refine ⟨y :: pre', post', by simp [descending, hxy, heq], ?_⟩
      intro b hb
      obtain rfl | hb := List.mem_cons.mp hb
      · exact .inl List.mem_cons_self
      · obtain hb | ⟨rfl, hx | ⟨z, hz, hx⟩⟩ := hpre' b hb
        · exact .inl (List.mem_cons_of_mem y hb)
        · exact .inr ⟨rfl, .inl hx⟩
        · exact .inr ⟨rfl, .inr ⟨z, List.mem_cons_of_mem y hz, hx⟩⟩

/-- After the sorting, an element has before it only what was before it and is of no lower rank, or
what was after it and is of a higher rank. -/
theorem sortStable_split (rank : α → Nat) (before after : List α) (a : α) :
    ∃ pre post, sortStable (descending rank) (before ++ a :: after) = pre ++ a :: post ∧
      ∀ b ∈ pre, b ∈ before ∧ rank a ≤ rank b ∨ b ∈ after ∧ rank a < rank b := by
  induction before with
  | nil =>
    rw [List.nil_append, sortStable]
    have hafter : ∀ {b}, b ∈ sortStable (descending rank) after → b ∈ after :=
      (sortStable_perm _ after).mem_iff.mp
    generalize sortStable (descending rank) after = sorted at hafter
    induction sorted with
    | nil => exact ⟨[], [], rfl, by simp⟩
    | cons y sorted ih =>
      rw [insertSorted]
      by_cases hay : rank y ≤ rank a
      · exact ⟨[], y :: sorted, by simp [descending, hay], by simp⟩
      · obtain ⟨pre, post, heq, hpre⟩ := ih fun hb => hafter (List.mem_cons_of_mem y hb)
        refine ⟨y :: pre, post, by simp [descending, hay, heq], ?_⟩
        refine List.forall_mem_cons.mpr ⟨.inr ⟨hafter List.mem_cons_self, by omega⟩, hpre⟩
  | cons x before ih =>
    obtain ⟨pre, post, heq, hpre⟩ := ih
    have hrank : ∀ b ∈ pre, rank a ≤ rank b := by
      intro b hb
      obtain ⟨-, h⟩ | ⟨-, h⟩ := hpre b hb <;> omega
    obtain ⟨pre', post', heq', hpre'⟩ := insertSorted_split rank x a pre post
    refine ⟨pre', post', by rw [List.cons_append, sortStable, heq, heq'], ?_⟩
    intro b hb
    obtain hb | ⟨rfl, hx⟩ := hpre' b hb
    · obtain ⟨hmem, h⟩ | hafter := hpre b hb
      · exact .inl ⟨List.mem_cons_of_mem x hmem, h⟩
      · exact .inr hafter
    · have hle : rank a ≤ rank b := by
        obtain h | ⟨y, hy, h⟩ := hx
        · exact h
        · exact (hrank y hy).trans h
      exact .inl ⟨List.mem_cons_self, hle⟩

theorem FirstRankedFault.congr {fault' : α → ε → Prop} (h : ∀ a ∈ l, ∀ e, fault a e ↔ fault' a e)
    (hfirst : FirstRankedFault rank fault l e) : FirstRankedFault rank fault' l e := by
  obtain ⟨before, a, after, rfl, hbefore, hafter, ha⟩ := hfirst
  refine ⟨before, a, after, rfl, fun b hb hrank e' hb' => ?_, fun c hc hrank e' hc' => ?_,
    (h a (by simp) e).mp ha⟩
  · exact hbefore b hb hrank e' ((h b (by simp [hb]) e').mpr hb')
  · exact hafter c hc hrank e' ((h c (by simp [hc]) e').mpr hc')

theorem FirstRankedFault.exists_mem (h : FirstRankedFault rank fault l e) : ∃ a ∈ l, fault a e := by
  obtain ⟨before, a, after, rfl, -, -, ha⟩ := h
  exact ⟨a, by simp, ha⟩

theorem exists_firstRankedFault {a : α} (ha : a ∈ l) (hfault : fault a e) :
    ∃ e', FirstRankedFault rank fault l e' := by
  induction l generalizing a e with
  | nil => cases ha
  | cons x l ih =>
    by_cases hrest : ∃ b ∈ l, ∃ e', fault b e'
    · obtain ⟨b, hb, e', hb'⟩ := hrest
      obtain ⟨e'', before, c, after, rfl, hbefore, hafter, hc⟩ := ih hb hb'
      by_cases hx : rank c ≤ rank x ∧ ∃ e', fault x e'
      · -- The new element takes precedence, and so over everything that `c` took precedence over.
        obtain ⟨hcx, e', hx⟩ := hx
        refine ⟨e', [], x, before ++ c :: after, rfl, by simp, ?_, hx⟩
        intro d hd hxd
        obtain hd | hd := List.mem_append.mp hd
        · exact hbefore d hd (by omega)
        · obtain rfl | hd := List.mem_cons.mp hd
          · omega
          · exact hafter d hd (by omega)
      · refine ⟨e'', x :: before, c, after, rfl, ?_, hafter, hc⟩
        exact List.forall_mem_cons.mpr ⟨fun hcx e' hx' => hx ⟨hcx, e', hx'⟩, hbefore⟩
    · obtain rfl | ha := List.mem_cons.mp ha
      · refine ⟨e, [], a, l, rfl, by simp, ?_, hfault⟩
        exact fun c hc _ e' hc' => hrest ⟨c, hc, e', hc'⟩
      · exact absurd ⟨a, ha, e, hfault⟩ hrest

theorem FirstRankedFault.firstFault (h : FirstRankedFault rank fault l e) :
    FirstFault fault (sortStable (descending rank) l) e := by
  obtain ⟨before, a, after, rfl, hbefore, hafter, ha⟩ := h
  obtain ⟨pre, post, heq, hpre⟩ := sortStable_split rank before after a
  refine ⟨pre, a, post, heq, fun b hb => ?_, ha⟩
  obtain ⟨hmem, hrank⟩ | ⟨hmem, hrank⟩ := hpre b hb
  · exact hbefore b hmem hrank
  · exact hafter b hmem hrank

theorem firstFault_sortStable_iff (hunique : ∀ a e e', fault a e → fault a e' → e = e') :
    FirstFault fault (sortStable (descending rank) l) e ↔ FirstRankedFault rank fault l e := by
  constructor
  · intro h
    obtain ⟨before, a, after, heq, -, ha⟩ := id h
    have hmem : a ∈ l := (sortStable_perm _ l).mem_iff.mp (by rw [heq]; simp)
    obtain ⟨e', he'⟩ : ∃ e', FirstRankedFault rank fault l e' := exists_firstRankedFault hmem ha
    rw [h.unique hunique he'.firstFault]
    exact he'
  · exact FirstRankedFault.firstFault

end Ranked

/-! ### Shapes -/

namespace Value

def IsRecord (value : Value) : Prop := ∃ fields : Record, value = .record fields

def IsSequence (value : Value) : Prop := ∃ items, value = .sequence items

end Value

namespace Validation

variable {params : Params} {p : Placeholder} {e : Error}

/-- The value is neither a record nor a sequence of records. -/
inductive NotRecords (key : String) : Value → Error → Prop where
  | value {value : Value} (hrecord : ¬value.IsRecord) (hsequence : ¬value.IsSequence) :
      NotRecords key value (.invalidObject key (.notRecords value.kind))
  /-- The first item that is no record is named. -/
  | item {items : List Value} {e : Error}
      (hfirst : FirstFault (fun item e => ¬item.IsRecord ∧
        e = .invalidObject key (.itemNotRecord item.kind)) items e) :
      NotRecords key (.sequence items) e

/-- The fragment of an optional placeholder does not have exactly one marker, or the value of an object
placeholder with a schema is not made of records. -/
inductive Misshapen (params : Params) (p : Placeholder) : Error → Prop where
  | noFragment (hoptional : p.modifier = .optional) (hschema : p.schema = none) :
      Misshapen params p (.malformed p.raw .absent)
  | markers {fragment : String} (hoptional : p.modifier = .optional)
      (hschema : p.schema = some fragment) (hcount : fragment.toList.count '*' ≠ 1) :
      Misshapen params p (.malformed p.raw .notOneMarker)
  | records {schema : String} {value : Value} {e : Error} (hobject : p.modifier.isObject = true)
      (hschema : p.schema = some schema) (hvalue : params.get? p.key = some value)
      (hno : NotRecords p.key value e) : Misshapen params p e

theorem recordsOf_sequence_eq_error_iff {key : String} {items : List Value} :
    recordsOf key (.sequence items) = .error e ↔
      FirstFault (fun item e => ¬item.IsRecord ∧
        e = .invalidObject key (.itemNotRecord item.kind)) items e := by
  rw [recordsOf, mapM_eq_error_iff]
  apply FirstFault.congr
  intro item _ e
  cases item <;> simp [Value.IsRecord, @eq_comm _ e]

theorem recordsOf_eq_error_iff {key : String} {value : Value} :
    recordsOf key value = .error e ↔ NotRecords key value e := by
  constructor
  · intro h
    cases value with
    | record fields => cases h
    | scalar s => cases h; exact .value (by simp [Value.IsRecord]) (by simp [Value.IsSequence])
    | condition c => cases h; exact .value (by simp [Value.IsRecord]) (by simp [Value.IsSequence])
    | sequence items => exact .item (recordsOf_sequence_eq_error_iff.mp h)
  · intro h
    cases h with
    | value hrecord hsequence =>
      cases value with
      | record fields => exact absurd ⟨fields, rfl⟩ hrecord
      | sequence items => exact absurd ⟨items, rfl⟩ hsequence
      | scalar s => rfl
      | condition c => rfl
    | item hfirst => exact recordsOf_sequence_eq_error_iff.mpr hfirst

theorem checkFragment_eq_error_iff :
    checkFragment p = .error e ↔ p.schema = none ∧ e = .malformed p.raw .absent ∨
      ∃ fragment, p.schema = some fragment ∧ fragment.toList.count '*' ≠ 1 ∧
        e = .malformed p.raw .notOneMarker := by
  unfold checkFragment
  cases p.schema with
  | none => simp [eq_comm]
  | some fragment => by_cases hcount : fragment.toList.count '*' = 1 <;> simp [hcount, @eq_comm _ e]

theorem checkValue_eq_error_iff :
    checkValue params p = .error e ↔ p.modifier.isObject = true ∧ (∃ schema, p.schema = some schema) ∧
      ∃ value, params.get? p.key = some value ∧ NotRecords p.key value e := by
  unfold checkValue Placeholder.fields?
  cases params.get? p.key with
  | none => simp
  | some value =>
    cases p.modifier.isObject with
    | false => simp
    | true =>
      cases p.schema with
      | none => simp
      | some schema => simp [map_eq_error_iff, recordsOf_eq_error_iff]

theorem checkShape_eq_error_iff : checkShape params p = .error e ↔ Misshapen params p e := by
  by_cases hoptional : p.modifier = .optional
  · have hvalue : checkValue params p = .ok () := by simp [checkValue, hoptional, Modifier.isObject]
    rw [checkShape, if_pos hoptional, hvalue, bind_eq_error_iff, checkFragment_eq_error_iff]
    constructor
    · rintro ((⟨hschema, rfl⟩ | ⟨fragment, hschema, hcount, rfl⟩) | ⟨_, -, h⟩)
      · exact .noFragment hoptional hschema
      · exact .markers hoptional hschema hcount
      · cases h
    · intro h
      cases h with
      | noFragment _ hschema => exact .inl (.inl ⟨hschema, rfl⟩)
      | markers _ hschema hcount => exact .inl (.inr ⟨_, hschema, hcount, rfl⟩)
      | records hobject =>
        rw [hoptional] at hobject
        cases hobject
  · rw [checkShape, if_neg hoptional]
    change checkValue params p = .error e ↔ _
    rw [checkValue_eq_error_iff]
    constructor
    · rintro ⟨hobject, ⟨schema, hschema⟩, value, hvalue, hno⟩
      exact .records hobject hschema hvalue hno
    · intro h
      cases h with
      | noFragment hoptional' | markers hoptional' => exact absurd hoptional' hoptional
      | records hobject hschema hvalue hno => exact ⟨hobject, ⟨_, hschema⟩, _, hvalue, hno⟩

end Validation

/-! ### Values -/

variable {a : Adapter} {t : Template} {params : Params} {e : Error}

/-- The fault of a value for a placeholder. That of a condition is the fault of the first of its parts
that does not resolve. -/
inductive Adapter.TextFault (a : Adapter) (p : Placeholder) : Value → Error → Prop where
  | parts {c : Condition} {e : Error} (hmodifier : p.modifier = .condition)
      (hfirst : FirstFault (fun part e => a.resolve (ofText part.1) part.2 = .error e) c.parts e) :
      TextFault a p (.condition c) e
  | value {value : Value} {e : Error}
      (hno : p.modifier = .condition → ∀ c, value ≠ .condition c)
      (hvalue : a.valueText p value = .error e) : TextFault a p value e

theorem Adapter.text_eq_error_iff {p : Placeholder} {value : Value} :
    a.text (some value) p = .error e ↔ a.TextFault p value e := by
  have hvalue : (p.modifier = .condition → ∀ c, value ≠ .condition c) →
      (a.text (some value) p = .error e ↔ a.TextFault p value e) := by
    intro hno
    rw [text_eq_valueText hno]
    constructor
    · exact .value hno
    · intro h
      cases h with
      | parts hmodifier => exact absurd rfl (hno hmodifier _)
      | value _ hvalue => exact hvalue
  by_cases hmodifier : p.modifier = .condition
  · cases value with
    | scalar _ | sequence _ | record _ => exact hvalue fun _ c => by simp
    | condition c =>
      rw [text_condition, if_pos hmodifier, conditionText, partTexts_eq_mapM, bind_eq_error_iff,
        mapM_eq_error_iff]
      constructor
      · rintro (hfirst | ⟨_, -, h⟩)
        · exact .parts hmodifier hfirst
        · cases h
      · intro h
        cases h with
        | parts _ hfirst => exact .inl hfirst
        | value hno => exact absurd rfl (hno hmodifier c)
  · exact hvalue fun h => absurd h hmodifier

/-- The fault of a key: no placeholder has it, or else the first of its placeholders that its value
does not fit. -/
inductive Adapter.KeyFault (a : Adapter) (t : Template) (params : Params) (key : String) :
    Error → Prop where
  | unexpected (hno : ∀ p ∈ t.namedPlaceholders, p.key ≠ key) :
      KeyFault a t params key (.unexpected key)
  | text {value : Value} {e : Error} (hvalue : params.get? key = some value)
      (hfirst : FirstFault (fun p e => a.TextFault p value e)
        (t.namedPlaceholders.filter (·.key == key)) e) : KeyFault a t params key e

theorem Adapter.checkKey_eq_error_iff {text key : String} (hkey : key ∈ params.named.keys) :
    a.checkKey (ofText text) params key = .error e ↔ a.KeyFault (ofText text) params key e := by
  by_cases hknown : ∃ p ∈ (ofText text).namedPlaceholders, p.key = key
  · obtain ⟨q, hq, hqkey⟩ := hknown
    obtain ⟨value, hvalue⟩ : ∃ value, params.get? key = some value := by
      rw [← hqkey] at hkey ⊢
      exact Option.isSome_iff_exists.mp ((Template.mem_keys_iff hq).mp hkey)
    have hcheck : ∀ p ∈ (ofText text).namedPlaceholders.filter (·.key == key), ∀ e,
        a.checkText params p = .error e ↔ a.TextFault p value e := by
      intro p hp e
      have hpkey : p.key = key := beq_iff_eq.mp (List.mem_filter.mp hp).2
      rw [checkText, hpkey, hvalue, map_eq_error_iff, text_eq_error_iff]
    have hany : (ofText text).namedPlaceholders.any (·.key == key) = true :=
      List.any_eq_true.mpr ⟨q, hq, beq_iff_eq.mpr hqkey⟩
    rw [checkKey, if_pos hany, forM_eq_error_iff, FirstFault.congr hcheck]
    constructor
    · exact .text hvalue
    · intro h
      cases h with
      | unexpected hno => exact absurd hqkey (hno q hq)
      | text hvalue' hfirst =>
        cases hvalue.symm.trans hvalue'
        exact hfirst
  · have hno : ∀ p ∈ (ofText text).namedPlaceholders, p.key ≠ key :=
      fun p hp heq => hknown ⟨p, hp, heq⟩
    have hnil : (ofText text).namedPlaceholders.filter (·.key == key) = [] :=
      List.filter_eq_nil_iff.mpr fun p hp heq => hno p hp (beq_iff_eq.mp heq)
    rw [checkKey, if_neg (by simpa using hno)]
    constructor
    · rintro ⟨⟩
      exact .unexpected hno
    · intro h
      cases h with
      | unexpected => rfl
      | text _ hfirst =>
        rw [hnil] at hfirst
        exact absurd hfirst not_firstFault_nil

/-! ### The whole resolution -/

/-- The fault that comes first. -/
inductive Adapter.Fault (a : Adapter) (t : Template) (params : Params) : Error → Prop where
  /-- Of the first placeholder that is at fault in itself or has a value of the wrong shape. -/
  | shape {e : Error} (hfirst : FirstFault (Validation.Misshapen params) t.namedPlaceholders e) :
      Fault a t params e
  /-- All that is missing. -/
  | missing {v : Validation} (hvalidate : t.validate params = .ok v) (hmissing : v.missing ≠ []) :
      Fault a t params (.missing v.missing)
  /-- Of the first value for a `:?` that cannot be written. -/
  | positional {v : Validation} {items : List Value} {e : Error}
      (hvalidate : t.validate params = .ok v) (hmissing : v.missing = [])
      (hcount : 0 < t.positionalCount) (hitems : params.positional = some (.sequence items))
      (hfirst : FirstFault (fun item e => a.staticText ParamsOf.positionalKey item = .error e) items
        e) : Fault a t params e
  /-- Of the first key at fault, longer keys before shorter ones. -/
  | key {v : Validation} {e : Error}
      (hvalidate : t.validate params = .ok v) (hmissing : v.missing = [])
      (hpositional : 0 < t.positionalCount → ∀ items, params.positional = some (.sequence items) →
        ∀ item ∈ items, ∃ s, a.staticText ParamsOf.positionalKey item = .ok s)
      (hfirst : FirstRankedFault String.utf8ByteSize (a.KeyFault t params) params.named.keys e) :
      Fault a t params e

theorem Template.validate_eq_error_iff :
    t.validate params = .error e ↔
      FirstFault (Validation.Misshapen params) t.namedPlaceholders e := by
  rw [(t.validate_checkedBy params).error_iff, forM_eq_error_iff]
  exact FirstFault.congr fun p _ e => Validation.checkShape_eq_error_iff

theorem Template.positionalTexts_eq_error_iff (hvalid : (t.report params).missing = []) :
    t.positionalTexts a params = .error e ↔ 0 < t.positionalCount ∧
      ∃ items, params.positional = some (.sequence items) ∧
        FirstFault (fun item e => a.staticText ParamsOf.positionalKey item = .error e) items e := by
  unfold positionalTexts
  by_cases hcount : t.positionalCount = 0
  · simp [hcount]
  · obtain ⟨items, hitems, -⟩ := exists_items_of_missing_eq_nil hvalid (by omega)
    rw [if_neg hcount, hitems]
    simp [mapM_eq_error_iff, Nat.pos_of_ne_zero hcount]

theorem Adapter.forM_checkKey_eq_error_iff {text : String} :
    (longestKeysFirst params.named.keys).forM (a.checkKey (ofText text) params) = .error e ↔
      FirstRankedFault String.utf8ByteSize (a.KeyFault (ofText text) params) params.named.keys e := by
  have hkey : ∀ key ∈ params.named.keys, ∀ e, a.checkKey (ofText text) params key = .error e ↔
      a.KeyFault (ofText text) params key e := fun key hkey e => checkKey_eq_error_iff hkey
  have hunique : ∀ key e e', a.checkKey (ofText text) params key = .error e →
      a.checkKey (ofText text) params key = .error e' → e = e' := by
    intro key e e' he he'
    exact Except.error.inj (he.symm.trans he')
  have hsorted : longestKeysFirst params.named.keys =
      sortStable (descending String.utf8ByteSize) params.named.keys := rfl
  rw [forM_eq_error_iff, hsorted, firstFault_sortStable_iff hunique]
  exact ⟨.congr hkey, .congr fun key hmem e => (hkey key hmem e).symm⟩

theorem Adapter.check_eq_error_iff {text : String} :
    a.check (ofText text) params = .error e ↔ a.Fault (ofText text) params e := by
  have hshape : (ofText text).namedPlaceholders.forM (Validation.checkShape params) = .error e ↔
      FirstFault (Validation.Misshapen params) (ofText text).namedPlaceholders e := by
    rw [← ((ofText text).validate_checkedBy params).error_iff, Template.validate_eq_error_iff]
  rw [check, bind_eq_error_iff, hshape, forM_checkKey_longestFirst]
  constructor
  · rintro (hfirst | ⟨⟨⟩, hshapes, h⟩)
    · exact .shape hfirst
    have hvalidate := Template.validate_eq_ok_iff.mpr ⟨forM_eq_ok_iff.mp hshapes, rfl⟩
    split at h
    · next hvalid =>
      have hmissing := Validation.isValid_iff.mp hvalid
      rw [bind_eq_error_iff, map_eq_error_iff, Template.positionalTexts_eq_error_iff hmissing,
        forM_checkKey_eq_error_iff] at h
      obtain ⟨hcount, items, hitems, hfirst⟩ | ⟨⟨⟩, htexts, hfirst⟩ := h
      · exact .positional hvalidate hmissing hcount hitems hfirst
      · have hpositional := (Template.exists_positionalTexts_iff hmissing).mp
          (drop_eq_ok_iff.mp htexts)
        exact .key hvalidate hmissing hpositional hfirst
    · next hinvalid =>
      cases h
      exact .missing hvalidate fun hmissing => hinvalid (Validation.isValid_iff.mpr hmissing)
  · intro h
    cases h with
    | shape hfirst => exact .inl hfirst
    | missing hvalidate hmissing =>
      obtain ⟨hshapes, rfl⟩ := Template.validate_eq_ok_iff.mp hvalidate
      refine .inr ⟨(), forM_eq_ok_iff.mpr hshapes, ?_⟩
      exact if_neg fun hvalid => hmissing (Validation.isValid_iff.mp hvalid)
    | positional hvalidate hmissing hcount hitems hfirst =>
      obtain ⟨hshapes, rfl⟩ := Template.validate_eq_ok_iff.mp hvalidate
      refine .inr ⟨(), forM_eq_ok_iff.mpr hshapes, ?_⟩
      rw [if_pos (Validation.isValid_iff.mpr hmissing), bind_eq_error_iff, map_eq_error_iff,
        Template.positionalTexts_eq_error_iff hmissing]
      exact .inl ⟨hcount, _, hitems, hfirst⟩
    | key hvalidate hmissing hpositional hfirst =>
      obtain ⟨hshapes, rfl⟩ := Template.validate_eq_ok_iff.mp hvalidate
      refine .inr ⟨(), forM_eq_ok_iff.mpr hshapes, ?_⟩
      rw [if_pos (Validation.isValid_iff.mpr hmissing), bind_eq_error_iff,
        forM_checkKey_eq_error_iff]
      have htexts := (Template.exists_positionalTexts_iff hmissing).mpr hpositional
      exact .inr ⟨(), drop_eq_ok_iff.mpr htexts, hfirst⟩

/-- A resolution fails with the fault that comes first, as validation does, and with none it ends
well. -/
theorem Adapter.resolve_eq_error_iff (a : Adapter) (text : String) (params : Params) :
    (∀ e, (ofText text).validate params = .error e ↔
        FirstFault (Validation.Misshapen params) (ofText text).namedPlaceholders e) ∧
      (∀ e, a.resolve (ofText text) params = .error e ↔ a.Fault (ofText text) params e) ∧
      ((∃ sql, a.resolve (ofText text) params = .ok sql) ↔
        ∀ e, ¬a.Fault (ofText text) params e) := by
  have hfault : ∀ e, a.resolve (ofText text) params = .error e ↔
      a.Fault (ofText text) params e := by
    intro e
    rw [(a.resolve_checkedBy text params).error_iff, check_eq_error_iff]
  refine ⟨fun e => Template.validate_eq_error_iff, hfault, ?_⟩
  rw [← not_error_iff]
  simp only [hfault]

example : Dialect.sqlite.adapter.resolve (ofText ":a :b")
    (.ofList [("a", .record .empty), ("b", .scalar .null), ("bc", .scalar .null)]) =
      .error (.unexpected "bc") := by decide +kernel

end SqlTemplate
