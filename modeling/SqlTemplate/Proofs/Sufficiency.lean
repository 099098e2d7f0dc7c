import SqlTemplate.Proofs.Rendering
import SqlTemplate.Proofs.Resolution

/-!
Validation looks at everything that a resolution could miss. Once it has found no key open, no value
is missing any more and no fragment lacks its marker, so a resolution reports keys as missing just
when validation does (`resolve_eq_missing_iff`).
-/

namespace SqlTemplate

open Template (ofText)

variable {a : Adapter} {params : Params}

/-! ### What validation has seen -/

namespace Validation

theorem checkFragment_of_checkShape {p : Placeholder} (h : checkShape params p = .ok ())
    (hoptional : p.modifier = .optional) : checkFragment p = .ok () := by
  rw [checkShape, if_pos hoptional, seq_eq_ok_iff] at h
  exact h.1

theorem checkValue_of_checkShape {p : Placeholder} (h : checkShape params p = .ok ()) :
    checkValue params p = .ok () := by
  by_cases hoptional : p.modifier = .optional
  · rw [checkShape, if_pos hoptional, seq_eq_ok_iff] at h
    exact h.2
  · rw [checkShape, if_neg hoptional] at h
    exact h

theorem supplies_of_checkShape {p : Placeholder} {value : Value}
    (hshape : checkShape params p = .ok ()) (hopen : openEntries params p = [])
    (hobject : p.modifier.isObject = true) (hvalue : params.get? p.key = some value) :
    Adapter.Supplies p value := by
  intro schema hschema
  have hcheck := checkValue_of_checkShape hshape
  simp only [checkValue, hvalue, hobject, hschema, drop_eq_ok_iff] at hcheck
  obtain ⟨records, hrecords⟩ := hcheck
  refine ⟨records, hrecords, fun r hr field hfield => ?_⟩
  rw [← records_of_recordsOf hrecords] at hr
  by_contra hlacks
  have hentry : missingField p.key field ∈ openEntries params p := by
    refine mem_openEntries_iff.mpr (.inr ⟨field, rfl, hobject, ⟨schema, hschema, hfield⟩, value,
      hvalue, ?_⟩)
    exact Value.exists_mem_records_iff.mp ⟨r, hr, Option.not_isSome_iff_eq_none.mp hlacks⟩
  rw [hopen] at hentry
  cases hentry

/-- The faults that validation reports at once. -/
inductive ShapeFault (p : Placeholder) : Error → Prop where
  | malformed (fault : FragmentFault) : ShapeFault p (.malformed p.raw fault)
  | object (fault : ObjectFault) : ShapeFault p (.invalidObject p.key fault)

theorem recordsOf_faultsOnly (p : Placeholder) (value : Value) :
    FaultsOnly (ShapeFault p) (recordsOf p.key value) := by
  cases value with
  | record fields => exact .ok [fields]
  | scalar _ | condition _ => exact .error (.object _)
  | sequence items =>
    apply FaultsOnly.mapM
    intro item _
    cases item with
    | record fields => exact .ok fields
    | scalar _ | sequence _ | condition _ => exact .error (.object _)

theorem checkFragment_faultsOnly (p : Placeholder) :
    FaultsOnly (ShapeFault p) (checkFragment p) := by
  unfold checkFragment
  split
  · exact .error (.malformed .absent)
  · split
    · exact .ok ()
    · exact .error (.malformed .notOneMarker)

theorem checkShape_faultsOnly (params : Params) (p : Placeholder) :
    FaultsOnly (ShapeFault p) (checkShape params p) := by
  have hvalue : FaultsOnly (ShapeFault p) (checkValue params p) := by
    unfold checkValue
    split
    · exact (recordsOf_faultsOnly p _).map _
    · exact .ok ()
  unfold checkShape
  split
  · exact (checkFragment_faultsOnly p).bind fun _ _ => hvalue
  · exact hvalue

end Validation

/-! ### What can still go wrong -/

/-- The faults of a resolution for which nothing is missing. -/
inductive LateFault (a : Adapter) (t : Template) (params : Params) : Error → Prop where
  | positional (expected : Expected) :
      LateFault a t params (.invalid ParamsOf.positionalKey expected)
  | unexpected {key : String} (hkey : key ∈ params.named.keys)
      (hno : ∀ p ∈ t.namedPlaceholders, p.key ≠ key) : LateFault a t params (.unexpected key)
  | named {p : Placeholder} {e : Error} (hp : p ∈ t.namedPlaceholders)
      (htext : a.text (params.get? p.key) p = .error e) (hfault : WritingFault p e) :
      LateFault a t params e

namespace LateFault

variable {t : Template} {e : Error}

theorem ne_missing (h : LateFault a t params e) (keys : List String) : e ≠ .missing keys := by
  rintro rfl
  cases h with
  | named _ _ hfault => cases hfault

theorem ne_malformed (h : LateFault a t params e) (raw : String) (fault : FragmentFault) :
    e ≠ .malformed raw fault := by
  rintro rfl
  cases h with
  | named _ _ hfault => cases hfault

end LateFault

namespace Template

variable {text : String}

theorem valueText_faultsOnly {p : Placeholder} (hshape : Validation.checkShape params p = .ok ())
    (hvalid : ((ofText text).report params).missing = [])
    (hp : p ∈ (ofText text).namedPlaceholders) {value : Value}
    (hvalue : params.get? p.key = some value) :
    FaultsOnly (WritingFault p) (a.valueText p value) := by
  apply a.valueText_faultsOnly
  · intro hobject
    exact Validation.supplies_of_checkShape hshape (openEntries_eq_nil hvalid hp) hobject hvalue
  · exact Validation.checkFragment_of_checkShape hshape

theorem text_faultsOnly (hno : ∀ key c, params.named.get? key ≠ some (.condition c))
    (hshapes : ∀ p ∈ (ofText text).namedPlaceholders, Validation.checkShape params p = .ok ())
    (hvalid : ((ofText text).report params).missing = []) {p : Placeholder}
    (hp : p ∈ (ofText text).namedPlaceholders) :
    FaultsOnly (WritingFault p) (a.text (params.get? p.key) p) := by
  cases hvalue : params.get? p.key with
  | none =>
    have hoptional := modifier_eq_optional hvalid hp hvalue
    rw [Adapter.text, if_pos hoptional]
    exact .ok ""
  | some value =>
    have hwritten := valueText_faultsOnly (a := a) (hshapes p hp) hvalid hp hvalue
    cases value with
    | condition c =>
      rw [get?_key_of_mem_named hp] at hvalue
      exact absurd hvalue (hno p.key c)
    | scalar _ | sequence _ | record _ => exact hwritten

theorem positionalTexts_faultsOnly {t : Template} (hvalid : (t.report params).missing = []) :
    FaultsOnly (LateFault a t params) (t.positionalTexts a params) := by
  unfold positionalTexts
  by_cases hcount : t.positionalCount = 0
  · rw [if_pos hcount]
    exact .ok []
  · obtain ⟨items, hitems, -⟩ := exists_items_of_missing_eq_nil hvalid (by omega)
    rw [if_neg hcount, hitems]
    apply FaultsOnly.mapM
    intro item _
    refine (a.staticText_faultsOnly _ item).imp ?_
    intro e hfault
    obtain ⟨expected, -, rfl⟩ := hfault.exists_invalid
    exact .positional expected

end Template

/-- The faults of a resolution are those of its stages. -/
theorem Adapter.faultsOnly_of_stages {allowed : Error → Prop} {t : Template}
    (hshapes : ∀ p ∈ t.namedPlaceholders, FaultsOnly allowed (Validation.checkShape params p))
    (hmissing : (t.report params).missing ≠ [] → allowed (.missing (t.report params).missing))
    (hpositional : (t.report params).missing = [] → FaultsOnly allowed (t.positionalTexts a params))
    (hunexpected : ∀ key ∈ params.named.keys, (∀ p ∈ t.namedPlaceholders, p.key ≠ key) →
      allowed (.unexpected key))
    (htexts : (∀ p ∈ t.namedPlaceholders, Validation.checkShape params p = .ok ()) →
      (t.report params).missing = [] → ∀ p ∈ t.namedPlaceholders,
        FaultsOnly allowed (a.text (params.get? p.key) p)) :
    FaultsOnly allowed (a.check t params) := by
  unfold Adapter.check
  refine (FaultsOnly.forM hshapes).bind fun _ hok => ?_
  split
  · next hvalid =>
    have hnone := Validation.isValid_iff.mp hvalid
    refine ((hpositional hnone).map _).bind fun _ _ => FaultsOnly.forM fun entry hentry => ?_
    have hkey : entry.1 ∈ params.named.keys := by
      rw [OrderedMap.keys, ← Adapter.map_fst_fillers a]
      exact List.mem_map_of_mem (Template.mem_longestFirst.mp hentry)
    unfold Adapter.checkKey
    split
    · have htext := htexts (forM_eq_ok_iff.mp hok) hnone
      exact FaultsOnly.forM fun p hp => (htext p (List.mem_filter.mp hp).1).map _
    · next hunknown =>
      refine .error (hunexpected entry.1 hkey fun p hp heq => hunknown ?_)
      exact List.any_eq_true.mpr ⟨p, hp, beq_iff_eq.mpr heq⟩
  · next hinvalid => exact .error (hmissing fun hnone => hinvalid (Validation.isValid_iff.mpr hnone))

/-! ### Resolution after validation -/

/-- What validation promises when it finds nothing missing. -/
structure Sufficient (a : Adapter) (t : Template) (params : Params) : Prop where
  late : ∀ e, a.resolve t params = .error e → LateFault a t params e
  not_missing : ∀ keys, a.resolve t params ≠ .error (.missing keys)
  not_malformed : ∀ raw fault, a.resolve t params ≠ .error (.malformed raw fault)
  /-- A value that does not fit an object placeholder is only found now if there is no schema. -/
  object : ∀ name fault, a.resolve t params = .error (.invalidObject name fault) →
    ∃ p ∈ t.namedPlaceholders, p.key = name ∧ p.modifier.isObject = true ∧ p.schema = none ∧
      a.text (params.get? p.key) p = .error (.invalidObject name fault)
  named : ∀ p ∈ t.namedPlaceholders, ∀ e, a.text (params.get? p.key) p = .error e → WritingFault p e

theorem Adapter.check_faultsOnly {text : String}
    (hno : ∀ key c, params.named.get? key ≠ some (.condition c))
    (hshapes : ∀ p ∈ (ofText text).namedPlaceholders, Validation.checkShape params p = .ok ())
    (hvalid : ((ofText text).report params).missing = []) :
    FaultsOnly (LateFault a (ofText text) params) (a.check (ofText text) params) := by
  apply Adapter.faultsOnly_of_stages
  · intro p hp
    rw [hshapes p hp]
    exact .ok ()
  · exact fun hopen => absurd hvalid hopen
  · exact Template.positionalTexts_faultsOnly
  · exact fun key hkey hunknown => .unexpected hkey hunknown
  · intro _ _ p hp e he
    exact .named hp he (Template.text_faultsOnly hno hshapes hvalid hp e he)

theorem Adapter.sufficient_of_valid {text : String}
    (hno : ∀ key c, params.named.get? key ≠ some (.condition c))
    (hshapes : ∀ p ∈ (ofText text).namedPlaceholders, Validation.checkShape params p = .ok ())
    (hvalid : ((ofText text).report params).missing = []) :
    Sufficient a (ofText text) params := by
  have hlate : ∀ e, a.resolve (ofText text) params = .error e →
      LateFault a (ofText text) params e := by
    intro e he
    have hcheck := (a.resolve_checkedBy text params).error_iff.mp he
    exact Adapter.check_faultsOnly hno hshapes hvalid e hcheck
  exact
    { late := hlate
      not_missing := fun keys he => (hlate _ he).ne_missing keys rfl
      not_malformed := fun raw fault he => (hlate _ he).ne_malformed raw fault rfl
      object := by
        intro name fault he
        cases hlate _ he with
        | named hp htext hfault =>
          cases hfault with
          | object hobject hschema => exact ⟨_, hp, rfl, hobject, hschema, htext⟩
      named := fun p hp e he => Template.text_faultsOnly hno hshapes hvalid hp e he }

theorem Adapter.resolve_eq_missing_of_report {text : String}
    (hshapes : ∀ p ∈ (ofText text).namedPlaceholders, Validation.checkShape params p = .ok ())
    (hopen : ((ofText text).report params).missing ≠ []) :
    a.resolve (ofText text) params = .error (.missing ((ofText text).report params).missing) := by
  have hinvalid : ¬((ofText text).report params).isValid = true :=
    fun hvalid => hopen (Validation.isValid_iff.mp hvalid)
  apply (a.resolve_checkedBy text params).error_iff.mpr
  unfold Adapter.check
  rw [forM_eq_ok_iff.mpr hshapes, if_neg hinvalid]
  rfl

theorem Adapter.forall_checkShape_of_missing {text : String} {keys : List String}
    (h : a.resolve (ofText text) params = .error (.missing keys)) :
    ∀ p ∈ (ofText text).namedPlaceholders, Validation.checkShape params p = .ok () := by
  have hcheck := (a.resolve_checkedBy text params).error_iff.mp h
  rw [← forM_eq_ok_iff]
  have hfaults : FaultsOnly (· ≠ Error.missing keys)
      ((ofText text).namedPlaceholders.forM (Validation.checkShape params)) := by
    apply FaultsOnly.forM
    intro p _
    refine (Validation.checkShape_faultsOnly params p).imp ?_
    rintro _ hfault rfl
    cases hfault
  cases hshapes : (ofText text).namedPlaceholders.forM (Validation.checkShape params) with
  | ok _ => rfl
  | error e =>
    rw [Adapter.check, hshapes] at hcheck
    cases hcheck
    exact absurd rfl (hfaults _ hshapes)

/-- Only a condition, which resolves templates of its own, can miss a key after validation. Without
one, resolution reports exactly what validation found open. -/
theorem Adapter.resolve_eq_missing_iff (a : Adapter) (text : String) (params : Params)
    (hno : ∀ key c, params.named.get? key ≠ some (.condition c)) :
    (∀ v, (ofText text).validate params = .ok v → v.missing = [] →
        Sufficient a (ofText text) params) ∧
      ∀ keys, a.resolve (ofText text) params = .error (.missing keys) ↔
        ∃ v, (ofText text).validate params = .ok v ∧ v.missing = keys ∧ keys ≠ [] := by
  constructor
  · intro v hv hmissing
    obtain ⟨hshapes, rfl⟩ := Template.validate_eq_ok_iff.mp hv
    exact Adapter.sufficient_of_valid hno hshapes hmissing
  · intro keys
    constructor
    · intro h
      have hshapes := Adapter.forall_checkShape_of_missing h
      have hopen : ((ofText text).report params).missing ≠ [] := fun hvalid =>
        (Adapter.sufficient_of_valid hno hshapes hvalid).not_missing keys h
      have hreport := Adapter.resolve_eq_missing_of_report (a := a) hshapes hopen
      rw [hreport] at h
      cases h
      exact ⟨_, Template.validate_eq_ok_iff.mpr ⟨hshapes, rfl⟩, rfl, hopen⟩
    · rintro ⟨v, hv, rfl, hopen⟩
      obtain ⟨hshapes, rfl⟩ := Template.validate_eq_ok_iff.mp hv
      exact Adapter.resolve_eq_missing_of_report hshapes hopen

theorem Adapter.resolve_second_record_without_field :
    (∀ key c, (ParamsOf.ofList [("@u", .sequence [.record (.ofList [("b", .scalar .null)]),
        .record .empty])] : Params).named.get? key ≠ some (.condition c)) ∧
      Dialect.postgres.adapter.resolve (ofText ":@u\x7bb\x7d :*l\x7bLIMIT *\x7d :x")
        (.ofList [("@u", .sequence [.record (.ofList [("b", .scalar .null)]), .record .empty])]) =
          .error (.missing ["@u.b", "x"]) := by
  have hno : ∀ key c, (ParamsOf.ofList [("@u", .sequence [.record (.ofList [("b", .scalar .null)]),
      .record .empty])] : Params).named.get? key ≠ some (.condition c) := by
    intro key c
    by_cases hkey : key = "@u" <;>
      simp [ParamsOf.ofList, ParamsOf.insert, ParamsOf.positionalKey, ParamsOf.empty, hkey]
  have hvalidate : (ofText ":@u\x7bb\x7d :*l\x7bLIMIT *\x7d :x").validate
      (.ofList [("@u", .sequence [.record (.ofList [("b", .scalar .null)]), .record .empty])]) =
        .ok ⟨["@u.b", "x"], ["*l"], [("@u", ⟨":@u\x7bb\x7d", .update, "u", some "b"⟩),
          ("*l", ⟨":*l\x7bLIMIT *\x7d", .optional, "l", some "LIMIT *"⟩),
          ("x", ⟨":x", .plain, "x", none⟩)]⟩ := by
    decide +kernel
  exact ⟨hno, ((resolve_eq_missing_iff _ _ _ hno).2 _).mpr ⟨_, hvalidate, rfl, by simp⟩⟩

end SqlTemplate
