import SqlTemplate.Proofs.FaultOrder
import SqlTemplate.Proofs.Sufficiency

/-!
What an adapter has a say in. Its literals and names only become part of the text. Whether a resolution
ends well, and with which fault if it does not, is the same for all adapters that name columns, and
for all adapters as long as no assignments are to be written (`resolve_other_adapter`).
-/

namespace SqlTemplate

open Template (ofText)

/-! ### Templates within templates -/

/-- The templates that are resolved along with one, each with its parameters: itself, and those of the
parts of the conditions that its placeholders hold. -/
inductive Reaches : String × Params → String × Params → Prop where
  | refl (part : String × Params) : Reaches part part
  | step {outer part inner : String × Params} {p : Placeholder} {c : Condition}
      (hp : p ∈ (ofText outer.1).namedPlaceholders) (hmodifier : p.modifier = .condition)
      (hvalue : outer.2.get? p.key = some (.condition c)) (hpart : part ∈ c.parts)
      (hinner : Reaches part inner) : Reaches outer inner

/-- Induction on the depth of conditions in the parameters of a template. -/
@[elab_as_elim]
theorem part_induction {motive : String × Params → Prop}
    (part : ∀ outer : String × Params,
      (∀ c, .condition c ∈ outer.2.values → ∀ part ∈ c.parts, motive part) → motive outer)
    (outer : String × Params) : motive outer := by
  have hparts : ∀ v : Value, ∀ c, v = .condition c → ∀ part ∈ c.parts, motive part := by
    intro v
    induction v using Value.induction with
    | scalar _ | sequence _ _ | record _ _ =>
      intro c hc
      cases hc
    | condition c ih =>
      rintro _ ⟨⟩ inner hinner
      exact part inner fun c' hc' => ih inner hinner _ hc' c' rfl
  exact part outer fun c _ => hparts _ c rfl

/-- Wherever assignments are to be written, either adapter names just the columns that the other one
names. -/
def Adapter.SameColumns (a a' : Adapter) (outer : String × Params) : Prop :=
  ∀ inner, Reaches outer inner → ∀ p ∈ (ofText inner.1).namedPlaceholders, p.modifier = .update →
    ∀ name, (a.identifier name).isSome = (a'.identifier name).isSome

namespace Adapter

variable {a a' : Adapter} {outer : String × Params}

theorem SameColumns.part (h : a.SameColumns a' outer) {part : String × Params} {p : Placeholder}
    {c : Condition} (hp : p ∈ (ofText outer.1).namedPlaceholders) (hmodifier : p.modifier = .condition)
    (hvalue : outer.2.get? p.key = some (.condition c)) (hpart : part ∈ c.parts) :
    a.SameColumns a' part :=
  fun inner hinner => h inner (.step hp hmodifier hvalue hpart hinner)

/-! ### Two adapters -/

theorem verdict_valueText_other {p : Placeholder} (hnames : p.modifier = .update →
      ∀ name, (a.identifier name).isSome = (a'.identifier name).isSome) (v : Value) :
    verdict (a.valueText p v) = verdict (a'.valueText p v) :=
  (verdict_valueText hnames v).trans (verdict_valueText (fun _ _ => rfl) v).symm

theorem verdict_text_other (h : a.SameColumns a' outer) {p : Placeholder}
    (hp : p ∈ (ofText outer.1).namedPlaceholders)
    (hparts : ∀ c, .condition c ∈ outer.2.values → ∀ part ∈ c.parts, a.SameColumns a' part →
      verdict (a.resolve (ofText part.1) part.2) = verdict (a'.resolve (ofText part.1) part.2)) :
    verdict (a.text (outer.2.get? p.key) p) = verdict (a'.text (outer.2.get? p.key) p) := by
  cases hvalue : outer.2.get? p.key with
  | none => rfl
  | some value =>
    by_cases hcondition : p.modifier = .condition ∧ ∃ c, value = .condition c
    · obtain ⟨hmodifier, c, rfl⟩ := hcondition
      have htexts : verdict (c.parts.mapM fun part => a.resolve (ofText part.1) part.2) =
          verdict ((c.parts.map id).mapM fun part => a'.resolve (ofText part.1) part.2) :=
        verdict_mapM_congr id fun part hpart =>
          hparts c (ParamsOf.mem_values_of_get? hvalue) part hpart (h.part hp hmodifier hvalue hpart)
      rw [List.map_id] at htexts
      rw [text_condition, text_condition, if_pos hmodifier, if_pos hmodifier, conditionText,
        conditionText, partTexts_eq_mapM, partTexts_eq_mapM]
      exact verdict_bind_congr htexts fun _ _ => rfl
    · have hno : p.modifier = .condition → ∀ c, value ≠ .condition c :=
        fun hmodifier c hc => hcondition ⟨hmodifier, c, hc⟩
      rw [text_eq_valueText hno, text_eq_valueText hno]
      exact verdict_valueText_other (h outer (.refl outer) p hp) value

theorem verdict_resolve_other (h : a.SameColumns a' outer) :
    verdict (a.resolve (ofText outer.1) outer.2) = verdict (a'.resolve (ofText outer.1) outer.2) := by
  induction outer using part_induction with
  | part outer ih =>
    have hpositional : verdict ((ofText outer.1).positionalTexts a outer.2) =
        verdict ((ofText outer.1).positionalTexts a' outer.2) :=
      (Template.verdict_positionalTexts _ a a' outer.2).trans
        (Template.verdict_positionalTexts _ a' a' outer.2).symm
    rw [verdict_resolve, verdict_resolve]
    exact check_eq_of_verdict (fun _ _ => rfl) rfl rfl hpositional
      fun p hp => verdict_text_other h hp fun c hc part hpart => ih c hc part hpart

/-! ### Adapters without names -/

variable {capability : Capability}

/-- Nothing but a named value comes to lack a capability, and that as it is written. -/
theorem exists_textFault_of_lacking
    (h : a.resolve (ofText outer.1) outer.2 = .error (.lacking capability)) :
    ∃ p ∈ (ofText outer.1).namedPlaceholders, ∃ value, outer.2.get? p.key = some value ∧
      a.TextFault p value (.lacking capability) ∧
      FaultsOnly (WritingFault p) (a.valueText p value) := by
  have hfault := ((a.resolve_checkedBy outer.1 outer.2).error_iff.trans check_eq_error_iff).mp h
  generalize he : Error.lacking capability = e at hfault
  cases hfault with
  | shape hfirst =>
    obtain ⟨p, -, hp⟩ := hfirst.exists_mem
    subst he
    cases Validation.checkShape_faultsOnly outer.2 p _ (Validation.checkShape_eq_error_iff.mpr hp)
  | missing => cases he
  | positional _ _ _ _ hfirst =>
    obtain ⟨item, -, hitem⟩ := hfirst.exists_mem
    obtain ⟨expected, -, rfl⟩ := (a.staticText_faultsOnly _ item _ hitem).exists_invalid
    cases he
  | key hvalidate hmissing _ hfirst =>
    obtain ⟨hshapes, rfl⟩ := Template.validate_eq_ok_iff.mp hvalidate
    obtain ⟨key, -, hkey⟩ := hfirst.exists_mem
    cases hkey with
    | unexpected => cases he
    | text hvalue hfirst =>
      obtain ⟨p, hmem, htext⟩ := hfirst.exists_mem
      obtain ⟨hp, hpkey⟩ := List.mem_filter.mp hmem
      obtain rfl : p.key = key := beq_iff_eq.mp hpkey
      subst he
      exact ⟨p, hp, _, hvalue, htext,
        Template.valueText_faultsOnly (hshapes p hp) hmissing hp hvalue⟩

/-- Only a value of `:@` is found to lack something, which is a name for a column. -/
theorem exists_update_of_lacking (outer : String × Params)
    (h : a.resolve (ofText outer.1) outer.2 = .error (.lacking capability)) :
    capability = .identifiers ∧ ∃ inner p, Reaches outer inner ∧
      p ∈ (ofText inner.1).namedPlaceholders ∧ p.modifier = .update ∧
      a.text (inner.2.get? p.key) p = .error (.lacking capability) := by
  induction outer using part_induction with
  | part outer ih =>
    obtain ⟨p, hp, value, hvalue, hfault, hwriting⟩ := exists_textFault_of_lacking h
    have htext : a.text (outer.2.get? p.key) p = .error (.lacking capability) := by
      rw [hvalue]
      exact text_eq_error_iff.mpr hfault
    cases hfault with
    | parts hmodifier hfirst =>
      obtain ⟨part, hpart, hlacking⟩ := hfirst.exists_mem
      obtain ⟨hcapability, inner, q, hinner, hq⟩ :=
        ih _ (ParamsOf.mem_values_of_get? hvalue) part hpart hlacking
      exact ⟨hcapability, inner, q, .step hp hmodifier hvalue hpart hinner, hq⟩
    | value _ hwritten =>
      cases hwriting _ hwritten with
      | lacking hupdate => exact ⟨rfl, outer, p, .refl outer, hp, hupdate, htext⟩

/-! ### What is left to the adapter -/

/-- Two adapters that name all columns, or that write no assignments, resolve the same templates and
fail with the same errors. What an adapter lacks comes up for assignments only. -/
theorem resolve_other_adapter (a a' : Adapter) (text : String) (params : Params) :
    (((∀ name, (a.identifier name).isSome ∧ (a'.identifier name).isSome) ∨
          ∀ inner, Reaches (text, params) inner →
            ∀ p ∈ (ofText inner.1).placeholders, p.modifier ≠ .update) →
        ((∃ sql, a.resolve (ofText text) params = .ok sql) ↔
            ∃ sql, a'.resolve (ofText text) params = .ok sql) ∧
          ∀ e, a.resolve (ofText text) params = .error e ↔
            a'.resolve (ofText text) params = .error e) ∧
      ∀ capability, a.resolve (ofText text) params = .error (.lacking capability) →
        capability = .identifiers ∧ ∃ inner p, Reaches (text, params) inner ∧
          p ∈ (ofText inner.1).namedPlaceholders ∧ p.modifier = .update ∧
          a.text (inner.2.get? p.key) p = .error (.lacking capability) := by
  refine ⟨fun h => ?_, fun capability => exists_update_of_lacking (text, params)⟩
  have hcolumns : a.SameColumns a' (text, params) := by
    intro inner hinner p hp hupdate name
    obtain hall | hno := h
    · rw [(hall name).1, (hall name).2]
    · exact absurd hupdate (hno inner hinner p (Template.mem_placeholders_of_mem_named hp).1)
  have hverdict := verdict_resolve_other hcolumns
  exact ⟨exists_ok_iff_of_verdict_eq hverdict, fun _ => error_iff_of_verdict_eq hverdict⟩

theorem resolve_other_adapter_nested_parts :
    ({ Adapter.echo with identifier := fun _ => none } : Adapter).resolve (ofText ":~w")
          (.ofList [("~w", .condition ⟨"OR", [("a = :a", .ofList [("a", .record .empty)])]⟩)]) =
        .error (.invalid "a" .scalarOrSequence) ∧
      ∃ inner p, Reaches (":~w", .ofList [("~w", .condition ⟨"OR",
          [(":@s", .ofList [("@s", .record (.ofList [("b", .scalar .null)]))])]⟩)]) inner ∧
        p ∈ (ofText inner.1).namedPlaceholders ∧ p.modifier = .update := by
  let nameless : Adapter := { Adapter.echo with identifier := fun _ => none }
  let inner : String × Params := ("a = :a", .ofList [("a", .record .empty)])
  let params : Params := .ofList [("~w", .condition ⟨"OR", [inner]⟩)]
  have hvalues : params.values = [.condition ⟨"OR", [inner]⟩] := rfl
  have hno : ∀ part, Reaches (":~w", params) part →
      ∀ p ∈ (ofText part.1).placeholders, p.modifier ≠ .update := by
    intro part hpart
    cases hpart with
    | refl => decide +kernel
    | step _ _ hvalue hmem hpart =>
      have hc := ParamsOf.mem_values_of_get? hvalue
      rw [hvalues, List.mem_singleton] at hc
      cases hc
      obtain rfl := List.mem_singleton.mp hmem
      cases hpart with
      | refl => decide +kernel
      | step _ _ hvalue => cases List.mem_singleton.mp (ParamsOf.mem_values_of_get? hvalue)
  have hmysql : Dialect.mysql.adapter.resolve (ofText ":~w") params =
      .error (.invalid "a" .scalarOrSequence) := by decide +kernel
  have hlacking : nameless.resolve (ofText ":~w") (.ofList [("~w", .condition ⟨"OR",
      [(":@s", .ofList [("@s", .record (.ofList [("b", .scalar .null)]))])]⟩)]) =
      .error (.lacking .identifiers) := by decide +kernel
  obtain ⟨-, part, p, hpart, hp, hupdate, -⟩ :=
    (resolve_other_adapter nameless nameless ":~w" _).2 _ hlacking
  exact ⟨(((resolve_other_adapter _ nameless ":~w" params).1 (.inr hno)).2 _).mp hmysql,
    part, p, hpart, hp, hupdate⟩

end Adapter

end SqlTemplate
