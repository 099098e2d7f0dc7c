import SqlTemplate.Proofs.FaultOrder

/-!
Fragments of optional placeholders. A value takes the place of the first marker, and all else in the
fragment stays as it is (`FillsMarker`). Validation asks for exactly one marker. Writing a value looks
for the first marker only, so the two judge a fragment alike unless it holds a second one
(`fragments_judged`).
-/

namespace SqlTemplate

open Template (ofText)

/-- The number of markers in the fragment. Without a fragment there is none. -/
def Placeholder.markers (p : Placeholder) : Nat :=
  p.schema.elim 0 fun fragment => fragment.toList.count '*'

/-- What is wrong with a fragment that does not have exactly one marker. -/
def Placeholder.fragmentFault (p : Placeholder) : FragmentFault :=
  p.schema.elim .absent fun _ => .notOneMarker

/-- The text of the value stands for the first marker of the fragment, `*`, or for `*!` if it is taken
as it is. -/
inductive Adapter.FillsMarker (a : Adapter) (key : String) (value : Value) :
    String → String → Prop where
  | escaped {before rest text : String} (hbefore : '*' ∉ before.toList)
      (hrest : rest.toList.head? ≠ some '!') (htext : a.staticText key value = .ok text) :
      FillsMarker a key value (before ++ "*" ++ rest) (before ++ text ++ rest)
  | raw {before rest text : String} (hbefore : '*' ∉ before.toList)
      (htext : rawText key value = .ok text) :
      FillsMarker a key value (before ++ "*!" ++ rest) (before ++ text ++ rest)

/-! ### Validation -/

section Validation

variable {p : Placeholder} {t : Template} {params : Params} {e : Error}

theorem Placeholder.markers_of_schema {fragment : String} (hschema : p.schema = some fragment) :
    p.markers = fragment.toList.count '*' := by
  rw [markers, hschema, Option.elim_some]

theorem Validation.checkFragment_eq_error_iff_markers :
    checkFragment p = .error e ↔ p.markers ≠ 1 ∧ e = .malformed p.raw p.fragmentFault := by
  rw [checkFragment_eq_error_iff, Placeholder.markers, Placeholder.fragmentFault]
  cases p.schema <;> simp

theorem Validation.checkShape_of_optional (hoptional : p.modifier = .optional) :
    checkShape params p = checkFragment p := by
  have hvalue : checkValue params p = .ok () := by
    simp [checkValue, hoptional, Modifier.isObject]
  rw [checkShape, if_pos hoptional, hvalue]
  cases checkFragment p <;> rfl

theorem Template.exists_error_of_markers (hoptional : p.modifier = .optional)
    (hp : p ∈ t.namedPlaceholders) (hmarkers : p.markers ≠ 1) (params : Params) :
    ∃ e, t.validate params = .error e := by
  cases hvalidate : t.validate params with
  | error e => exact ⟨e, rfl⟩
  | ok v =>
    have hshape := (validate_eq_ok_iff.mp hvalidate).1 p hp
    have hfault := Validation.checkFragment_eq_error_iff_markers.mpr ⟨hmarkers, rfl⟩
    rw [Validation.checkShape_of_optional hoptional, hfault] at hshape
    cases hshape

theorem Template.validate_alone_eq_error_iff (hoptional : p.modifier = .optional)
    (halone : t.namedPlaceholders = [p]) :
    t.validate params = .error e ↔ p.markers ≠ 1 ∧ e = .malformed p.raw p.fragmentFault := by
  have hfirst : FirstFault (Validation.Misshapen params) [p] e ↔ Validation.Misshapen params p e := by
    simp [firstFault_cons_iff, not_firstFault_nil]
  rw [validate_eq_error_iff, halone, hfirst, ← Validation.checkShape_eq_error_iff,
    Validation.checkShape_of_optional hoptional, Validation.checkFragment_eq_error_iff_markers]

end Validation

/-! ### Writing -/

namespace Adapter

variable {a : Adapter} {p : Placeholder} {value : Value}

theorem text_of_optional (a : Adapter) (hoptional : p.modifier = .optional) (value : Value) :
    a.text (some value) p = a.fragmentText p value := by
  have hno : p.modifier = .condition → ∀ c, value ≠ .condition c := by
    intro hcondition
    rw [hoptional] at hcondition
    cases hcondition
  rw [a.text_eq_valueText hno, valueText, hoptional]

theorem fragmentText_of_no_marker (hmarkers : p.markers = 0) :
    a.fragmentText p value = .error (.malformed p.raw .notOneMarker) := by
  unfold fragmentText
  cases hschema : p.schema with
  | none => rfl
  | some fragment =>
    rw [Placeholder.markers_of_schema hschema, List.count_eq_zero] at hmarkers
    have hnil : fragment.toList.dropWhile (· != '*') = [] := by
      rw [List.dropWhile_eq_nil_iff]
      exact fun c hc => bne_iff_ne.mpr fun heq => hmarkers (heq ▸ hc)
    dsimp only
    rw [hnil]

variable {before rest : String} (hbefore : '*' ∉ before.toList)

include hbefore

/-- The fragment falls apart at its first marker. -/
theorem takeWhile_before (after : List Char) :
    (before.toList ++ '*' :: after).takeWhile (· != '*') = before.toList ∧
      (before.toList ++ '*' :: after).dropWhile (· != '*') = '*' :: after := by
  apply Placeholder.takeWhile_append_of_stops
  · exact fun c hc => bne_iff_ne.mpr fun heq => hbefore (heq ▸ hc)
  · simp

theorem fragmentText_raw (hschema : p.schema = some (before ++ "*!" ++ rest)) :
    a.fragmentText p value =
      (rawText p.key value).map fun text => before ++ text ++ rest := by
  have hfragment : (before ++ "*!" ++ rest).toList = before.toList ++ '*' :: '!' :: rest.toList := by
    simp [String.toList_append]
  obtain ⟨htake, hdrop⟩ := takeWhile_before hbefore ('!' :: rest.toList)
  unfold fragmentText
  rw [hschema]
  dsimp only
  rw [hfragment, htake, hdrop]
  cases rawText p.key value <;> simp [bind, Except.bind, pure, Except.pure, Except.map]

theorem fragmentText_escaped (hrest : rest.toList.head? ≠ some '!')
    (hschema : p.schema = some (before ++ "*" ++ rest)) :
    a.fragmentText p value =
      (a.staticText p.key value).map fun text => before ++ text ++ rest := by
  have hfragment : (before ++ "*" ++ rest).toList = before.toList ++ '*' :: rest.toList := by
    simp [String.toList_append]
  obtain ⟨htake, hdrop⟩ := takeWhile_before hbefore rest.toList
  unfold fragmentText
  rw [hschema]
  dsimp only
  rw [hfragment, htake, hdrop]
  dsimp only
  split
  · next heq =>
    rw [heq] at hrest
    exact absurd rfl hrest
  · cases a.staticText p.key value <;> simp [bind, Except.bind, pure, Except.pure, Except.map]

omit hbefore

/-- A fragment has no marker, or a first one, which is `*!` or `*`. -/
theorem first_marker (p : Placeholder) :
    p.markers = 0 ∨ ∃ before rest : String, '*' ∉ before.toList ∧
      (p.schema = some (before ++ "*!" ++ rest) ∨
        rest.toList.head? ≠ some '!' ∧ p.schema = some (before ++ "*" ++ rest)) := by
  cases hschema : p.schema with
  | none => exact .inl (by simp [Placeholder.markers, hschema])
  | some fragment =>
    by_cases hmarker : '*' ∈ fragment.toList
    · obtain ⟨before, after, hfragment, hbefore⟩ := List.eq_append_cons_of_mem hmarker
      refine .inr ⟨String.ofList before, ?_⟩
      rw [String.toList_ofList]
      by_cases hraw : after.head? = some '!'
      · obtain ⟨rest, rfl⟩ := List.head?_eq_some_iff.mp hraw
        refine ⟨String.ofList rest, hbefore, .inl (congrArg some (String.toList_inj.mp ?_))⟩
        simp [hfragment, String.toList_append]
      · refine ⟨String.ofList after, hbefore, .inr ⟨by simpa using hraw, ?_⟩⟩
        refine congrArg some (String.toList_inj.mp ?_)
        simp [hfragment, String.toList_append]
    · left
      rw [Placeholder.markers_of_schema hschema, List.count_eq_zero]
      exact hmarker

/-- Writing reports a malformed fragment only if there is no marker in it. -/
theorem fragmentText_eq_malformed_iff {raw : String} {fault : FragmentFault} :
    a.fragmentText p value = .error (.malformed raw fault) ↔
      p.markers = 0 ∧ raw = p.raw ∧ fault = .notOneMarker := by
  constructor
  · intro h
    obtain hnone | ⟨before, rest, hbefore, hschema | ⟨hrest, hschema⟩⟩ := first_marker p
    · rw [fragmentText_of_no_marker hnone] at h
      cases h
      exact ⟨hnone, rfl, rfl⟩
    -- With a marker only the value is left to report, and what it reports is an invalid value.
    · rw [fragmentText_raw hbefore hschema] at h
      cases rawText_faultsOnly p.key value _ (map_eq_error_iff.mp h)
    · rw [fragmentText_escaped hbefore hrest hschema] at h
      cases a.staticText_faultsOnly p.key value _ (map_eq_error_iff.mp h)
  · rintro ⟨hnone, rfl, rfl⟩
    exact fragmentText_of_no_marker hnone

/-- What is written is the fragment with its first marker filled. -/
theorem fragmentText_eq_ok_iff {s : String} :
    a.fragmentText p value = .ok s ↔
      ∃ fragment, p.schema = some fragment ∧ a.FillsMarker p.key value fragment s := by
  constructor
  · intro h
    obtain hnone | ⟨before, rest, hbefore, hschema | ⟨hrest, hschema⟩⟩ := first_marker p
    · rw [fragmentText_of_no_marker hnone] at h
      cases h
    · rw [fragmentText_raw hbefore hschema] at h
      obtain ⟨text, htext, rfl⟩ := map_eq_ok_iff.mp h
      exact ⟨_, hschema, .raw hbefore htext⟩
    · rw [fragmentText_escaped hbefore hrest hschema] at h
      obtain ⟨text, htext, rfl⟩ := map_eq_ok_iff.mp h
      exact ⟨_, hschema, .escaped hbefore hrest htext⟩
  · rintro ⟨fragment, hschema, hfills⟩
    cases hfills with
    | escaped hbefore hrest htext =>
      rw [fragmentText_escaped hbefore hrest hschema, htext]
      rfl
    | raw hbefore htext =>
      rw [fragmentText_raw hbefore hschema, htext]
      rfl

end Adapter

/-! ### The two judgements -/

/-- Writing a value and validation find fault with the same fragments, unless there is more than one
marker. Such fragments validation rejects, and writing fills their first marker. -/
theorem Adapter.fragments_judged (a : Adapter) {p : Placeholder} (hoptional : p.modifier = .optional)
    (value : Value) :
    (p.markers ≤ 1 → ∀ t : Template, t.namedPlaceholders = [p] → ∀ params,
        ((∃ raw fault, a.text (some value) p = .error (.malformed raw fault)) ↔
          ∃ e, t.validate params = .error e)) ∧
      (∀ raw fault, a.text (some value) p = .error (.malformed raw fault) ↔
        p.markers = 0 ∧ raw = p.raw ∧ fault = .notOneMarker) ∧
      (∀ t : Template, p ∈ t.namedPlaceholders → p.markers ≠ 1 → ∀ params,
        ∃ e, t.validate params = .error e) ∧
      (∀ t : Template, t.namedPlaceholders = [p] → ∀ params e, t.validate params = .error e ↔
        p.markers ≠ 1 ∧ e = .malformed p.raw p.fragmentFault) ∧
      ∀ s, a.text (some value) p = .ok s ↔
        ∃ fragment, p.schema = some fragment ∧ a.FillsMarker p.key value fragment s := by
  have htext := a.text_of_optional hoptional value
  have hmalformed : ∀ raw fault, a.text (some value) p = .error (.malformed raw fault) ↔
      p.markers = 0 ∧ raw = p.raw ∧ fault = .notOneMarker := by
    intro raw fault
    rw [htext, fragmentText_eq_malformed_iff]
  have hvalidate : ∀ t : Template, t.namedPlaceholders = [p] → ∀ params e,
      t.validate params = .error e ↔ p.markers ≠ 1 ∧ e = .malformed p.raw p.fragmentFault :=
    fun t halone params e => Template.validate_alone_eq_error_iff hoptional halone
  refine ⟨?_, hmalformed, ?_, hvalidate, ?_⟩
  · intro hmarkers t halone params
    simp only [hmalformed, hvalidate t halone params]
    constructor
    · rintro ⟨raw, fault, hnone, -, -⟩
      exact ⟨_, by omega, rfl⟩
    · rintro ⟨e, hne, -⟩
      exact ⟨_, _, by omega, rfl, rfl⟩
  · exact fun t hp hne params => Template.exists_error_of_markers hoptional hp hne params
  · intro s
    rw [htext, fragmentText_eq_ok_iff]

theorem Adapter.fragments_judged_raw_marker :
    Dialect.mssql.adapter.text (some (.scalar (.int 10)))
        ⟨":*n\x7bTOP *! \x7d", .optional, "n", some "TOP *! "⟩ = .ok "TOP 10 " ∧
      ¬∃ e, (ofText ":*n\x7bTOP *! \x7d").validate .empty = .error e := by
  let p : Placeholder := ⟨":*n\x7bTOP *! \x7d", .optional, "n", some "TOP *! "⟩
  have hoptional : p.modifier = .optional := rfl
  have hfills : Dialect.mssql.adapter.FillsMarker "*n" (.scalar (.int 10))
      ("TOP " ++ "*!" ++ " ") ("TOP " ++ "10" ++ " ") := .raw (by decide) rfl
  have halone : (ofText ":*n\x7bTOP *! \x7d").namedPlaceholders = [p] := by decide +kernel
  have hmarkers : p.markers = 1 := by decide +kernel
  obtain ⟨hsame, hmalformed, -, -, hok⟩ :=
    Dialect.mssql.adapter.fragments_judged hoptional (.scalar (.int 10))
  refine ⟨(hok _).mpr ⟨_, rfl, hfills⟩, ?_⟩
  rw [← hsame hmarkers.le _ halone]
  rintro ⟨raw, fault, hfault⟩
  have hnone := ((hmalformed raw fault).mp hfault).1
  omega

/-- A fragment of two markers is filled at the first one, though validation rejects it. -/
theorem Adapter.second_marker_left_in_text :
    (Placeholder.markers ⟨":*f\x7b* *\x7d", .optional, "f", some "* *"⟩) = 2 ∧
      Dialect.postgres.adapter.text (some (.scalar (.int 1)))
        ⟨":*f\x7b* *\x7d", .optional, "f", some "* *"⟩ = .ok "1 *" ∧
      (ofText ":*f\x7b* *\x7d").namedPlaceholders =
        [⟨":*f\x7b* *\x7d", .optional, "f", some "* *"⟩] ∧
      (ofText ":*f\x7b* *\x7d").validate (.ofList [("*f", .scalar (.int 1))]) =
        .error (.malformed ":*f\x7b* *\x7d" .notOneMarker) := by
  decide +kernel

end SqlTemplate
