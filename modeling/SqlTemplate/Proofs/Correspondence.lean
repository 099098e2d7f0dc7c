import SqlTemplate.Proofs.Rendering
import SqlTemplate.Proofs.Resolution

/-!
When two templates resolve alike. If their placeholders take equal values in the same way, in the
same order, then the same texts fill them, under whatever keys the values are found
(`resolve_of_corresponds`).
-/

namespace SqlTemplate

open Template (ofText)

variable {a : Adapter} {params params' : Params}

/-! ### What validation depends on -/

namespace Validation

variable {p q : Placeholder}

theorem toOption_checkFragment (hschema : p.schema = q.schema) :
    (checkFragment p).toOption = (checkFragment q).toOption := by
  unfold checkFragment
  rw [hschema]
  split
  · rfl
  · split <;> rfl

theorem toOption_recordsOf (key key' : String) (value : Value) :
    (recordsOf key value).toOption = (recordsOf key' value).toOption := by
  cases value with
  | scalar _ | record _ | condition _ => rfl
  | sequence items =>
    rw [recordsOf, recordsOf, toOption_mapM, toOption_mapM]
    congr 1
    funext item
    cases item <;> rfl

end Validation

namespace Placeholder

/-- Two placeholders that take the same value in the same way, each under its own key. -/
structure Alike (params params' : Params) (p q : Placeholder) : Prop where
  positional : p.isPositional = q.isPositional
  modifier : p.modifier = q.modifier
  schema : p.schema = q.schema
  value : params.get? p.key = params'.get? q.key

namespace Alike

variable {p q : Placeholder}

theorem symm (h : Alike params params' p q) : Alike params' params q p :=
  ⟨h.positional.symm, h.modifier.symm, h.schema.symm, h.value.symm⟩

theorem fields?_eq (h : Alike params params' p q) : p.fields? = q.fields? := by
  rw [fields?, h.schema, fields?]

theorem toOption_text (h : Alike params params' p q) :
    (a.text (params.get? p.key) p).toOption = (a.text (params'.get? q.key) q).toOption := by
  rw [h.value]
  cases params'.get? q.key with
  | none =>
    rw [Adapter.text, Adapter.text, h.modifier]
    split <;> rfl
  | some value =>
    have hvalue := a.toOption_valueText h.modifier h.schema value
    cases value with
    | scalar _ | sequence _ | record _ => exact hvalue
    | condition c =>
      simp only [Adapter.text, Adapter.filler, h.modifier]
      split
      · rfl
      · exact hvalue

theorem text_eq_ok (h : Alike params params' p q) {s : String}
    (hs : a.text (params.get? p.key) p = .ok s) : a.text (params'.get? q.key) q = .ok s := by
  rw [← toOption_eq_some_iff] at hs ⊢
  rw [← h.toOption_text]
  exact hs

theorem checkShape_eq_ok (h : Alike params params' p q)
    (hshape : Validation.checkShape params p = .ok ()) :
    Validation.checkShape params' q = .ok () := by
  have hvalue : (Validation.checkValue params p).toOption =
      (Validation.checkValue params' q).toOption := by
    unfold Validation.checkValue
    rw [h.value, h.modifier, h.fields?_eq]
    split
    · rw [toOption_map, toOption_map, Validation.toOption_recordsOf p.key q.key]
    · rfl
  have hcheck : (Validation.checkShape params p).toOption =
      (Validation.checkShape params' q).toOption := by
    unfold Validation.checkShape
    rw [h.modifier]
    split
    · simp only [toOption_bind, Validation.toOption_checkFragment h.schema, hvalue]
    · exact hvalue
  rw [← toOption_eq_some_iff] at hshape ⊢
  rw [← hcheck]
  exact hshape

theorem openEntries_eq_nil (h : Alike params params' p q)
    (hopen : Validation.openEntries params p = []) : Validation.openEntries params' q = [] := by
  apply List.eq_nil_iff_forall_not_mem.mpr
  intro entry hentry
  have hmem : ∃ entry, entry ∈ Validation.openEntries params p := by
    obtain ⟨hoptional, hnone, -⟩ | ⟨field, -, hobject, hfields, hvalue⟩ :=
      Validation.mem_openEntries_iff.mp hentry
    · rw [← h.modifier] at hoptional
      rw [← h.value] at hnone
      exact ⟨_, Validation.mem_openEntries_iff.mpr (.inl ⟨hoptional, hnone, rfl⟩)⟩
    · rw [← h.modifier] at hobject
      rw [← h.fields?_eq] at hfields
      rw [← h.value] at hvalue
      exact ⟨_, Validation.mem_openEntries_iff.mpr (.inr ⟨field, rfl, hobject, hfields, hvalue⟩)⟩
  obtain ⟨entry, hentry⟩ := hmem
  rw [hopen] at hentry
  cases hentry

end Alike

end Placeholder

/-! ### Templates -/

/-- Two templates whose placeholders, one by one, take the same values in the same way. -/
structure Corresponds (t t' : Template) (params params' : Params) : Prop where
  placeholders : List.Forall₂ (Placeholder.Alike params params') t.placeholders t'.placeholders
  positional : params.positional = params'.positional

namespace Corresponds

variable {t t' : Template}

theorem symm (h : Corresponds t t' params params') : Corresponds t' t params' params :=
  ⟨h.placeholders.flip.imp fun _ _ halike => halike.symm, h.positional.symm⟩

theorem exists_named (h : Corresponds t t' params params') {q : Placeholder}
    (hq : q ∈ t'.namedPlaceholders) :
    ∃ p ∈ t.namedPlaceholders, Placeholder.Alike params params' p q := by
  obtain ⟨hmem, hnamed⟩ := List.mem_filter.mp hq
  obtain ⟨p, hp, halike⟩ := exists_mem_of_forall₂ h.placeholders hmem
  exact ⟨p, List.mem_filter.mpr ⟨hp, by rw [halike.positional]; exact hnamed⟩, halike⟩

theorem positionalCount_eq (h : Corresponds t t' params params') :
    t.positionalCount = t'.positionalCount := by
  have hplaceholders := h.placeholders
  unfold Template.positionalCount
  generalize t.placeholders = ps at hplaceholders ⊢
  generalize t'.placeholders = qs at hplaceholders ⊢
  induction hplaceholders with
  | nil => rfl
  | cons halike _ ih => rw [List.countP_cons, List.countP_cons, ih, halike.positional]

theorem positionalEntries_eq (h : Corresponds t t' params params') :
    t.positionalEntries params = t'.positionalEntries params' := by
  unfold Template.positionalEntries Template.positionalMatch
  rw [h.positionalCount_eq, h.positional]

theorem missing_eq_nil (h : Corresponds t t' params params')
    (hvalid : (t.report params).missing = []) : (t'.report params').missing = [] := by
  apply List.eq_nil_iff_forall_not_mem.mpr
  intro entry hentry
  obtain hpositional | ⟨q, hq, hopen⟩ := Template.mem_missing_report_iff.mp hentry
  · rw [← h.positionalEntries_eq] at hpositional
    have hmissing := Template.mem_missing_report_iff.mpr (.inl hpositional)
    rw [hvalid] at hmissing
    cases hmissing
  · obtain ⟨p, hp, halike⟩ := h.exists_named hq
    rw [halike.openEntries_eq_nil (Template.openEntries_eq_nil hvalid hp)] at hopen
    cases hopen

theorem resolvable (h : Corresponds t t' params params')
    (hexpected : ∀ key ∈ params'.named.keys, ∃ q ∈ t'.namedPlaceholders, q.key = key)
    (hresolvable : Resolvable a t params) : Resolvable a t' params' where
  valid := by
    obtain ⟨v, hv, hmissing⟩ := hresolvable.valid
    obtain ⟨hshapes, rfl⟩ := Template.validate_eq_ok_iff.mp hv
    refine ⟨_, Template.validate_eq_ok_iff.mpr ⟨fun q hq => ?_, rfl⟩, h.missing_eq_nil hmissing⟩
    obtain ⟨p, hp, halike⟩ := h.exists_named hq
    exact halike.checkShape_eq_ok (hshapes p hp)
  expected := hexpected
  named q hq := by
    obtain ⟨p, hp, halike⟩ := h.exists_named hq
    obtain ⟨s, hs⟩ := hresolvable.named p hp
    exact ⟨s, halike.text_eq_ok hs⟩
  positional := by
    rw [← h.positionalCount_eq, ← h.positional]
    exact hresolvable.positional

theorem fills {items : List Value} {texts : List String} (h : Corresponds t t' params params')
    (hfills : Fills a params items t.placeholders texts) :
    Fills a params' items t'.placeholders texts := by
  have hplaceholders := h.placeholders
  generalize t.placeholders = ps at hfills hplaceholders
  generalize t'.placeholders = qs at hplaceholders
  induction hfills generalizing qs with
  | nil items =>
    cases hplaceholders
    exact .nil items
  | positional hp hs _ ih =>
    cases hplaceholders with
    | cons halike hrest => exact .positional (halike.positional ▸ hp) hs (ih _ hrest)
  | named hp hs _ ih =>
    cases hplaceholders with
    | cons halike hrest =>
      exact .named (halike.positional ▸ hp) (halike.text_eq_ok hs) (ih _ hrest)

end Corresponds

/-- Corresponding templates resolve to the same text where the same text stands around their
placeholders. -/
theorem Adapter.resolve_of_corresponds {text text' sql : String}
    (h : Corresponds (ofText text) (ofText text') params params')
    (hexpected : (∀ key ∈ params.named.keys, ∃ p ∈ (ofText text).namedPlaceholders, p.key = key) →
      ∀ key ∈ params'.named.keys, ∃ q ∈ (ofText text').namedPlaceholders, q.key = key)
    (hweave : ∀ texts, Piece.weave texts (ofText text').pieces =
      Piece.weave texts (ofText text).pieces)
    (hsql : a.resolve (ofText text) params = .ok sql) :
    a.resolve (ofText text') params' = .ok sql := by
  obtain ⟨hresolvable, hrenders⟩ := Adapter.resolve_eq_ok_iff_renders.mp hsql
  obtain ⟨texts, hfills, rfl⟩ := Adapter.renders_iff_weave.mp hrenders
  have hitems : params.items = params'.items := by
    rw [ParamsOf.items, h.positional, ParamsOf.items]
  apply Adapter.resolve_eq_ok_iff_renders.mpr
  refine ⟨h.resolvable (hexpected hresolvable.expected) hresolvable, ?_⟩
  apply Adapter.renders_iff_weave.mpr
  exact ⟨texts, hitems ▸ h.fills hfills, by rw [hweave]⟩

end SqlTemplate
