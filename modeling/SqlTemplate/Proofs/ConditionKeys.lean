import SqlTemplate.Proofs.JsonParameters
import SqlTemplate.Proofs.Skeleton
import SqlTemplate.Proofs.Sufficiency

/-!
A placeholder that expects a condition has a key that starts with `~`. Where conditions stand under such
keys, as they do in parameters from JSON, no resolution looks for one in vain (`ofJson_conditions`).
-/

namespace SqlTemplate

open Template (ofText)

/-- Any fault but that no condition was found where one was expected. -/
def Error.NotCondition (e : Error) : Prop := ∀ name, e ≠ .invalid name .condition

theorem KindFault.notCondition {key : String} {e : Error} (h : KindFault key e) : e.NotCondition := by
  obtain ⟨expected, hne, rfl⟩ := h.exists_invalid
  simp [Error.NotCondition, hne]

theorem WritingFault.notCondition {p : Placeholder} {e : Error} (h : WritingFault p e)
    (hmodifier : p.modifier ≠ .condition) : e.NotCondition := by
  cases h with
  | invalid expected hcondition =>
    have hne : expected ≠ .condition := fun heq => hmodifier (hcondition heq)
    simp [Error.NotCondition, hne]
  | lacking _ | object _ _ _ => simp [Error.NotCondition]

theorem Validation.ShapeFault.notCondition {p : Placeholder} {e : Error} (h : ShapeFault p e) :
    e.NotCondition := by
  cases h <;> simp [Error.NotCondition]

namespace Adapter

theorem isConditionKey_key {p : Placeholder} (h : p.modifier = .condition) :
    isConditionKey p.key = true := by
  rw [isConditionKey, Placeholder.toList_key, h]
  rfl

variable {a : Adapter} {text : String} {params : Params}

/-- Only a condition stands where one is expected, so the value of a placeholder can only be at fault
in another way, or in one of its parts. -/
theorem text_notCondition (h : params.Keyed)
    (hparts : ∀ key c, (key, .condition c) ∈ params.named.entries → ∀ part ∈ c.parts,
      FaultsOnly Error.NotCondition (a.resolve (ofText part.1) part.2))
    (hshapes : ∀ p ∈ (ofText text).namedPlaceholders, Validation.checkShape params p = .ok ())
    (hvalid : ((ofText text).report params).missing = []) {p : Placeholder}
    (hp : p ∈ (ofText text).namedPlaceholders) :
    FaultsOnly Error.NotCondition (a.text (params.get? p.key) p) := by
  cases hvalue : params.get? p.key with
  | none =>
    rw [Adapter.text, if_pos (Template.modifier_eq_optional hvalid hp hvalue)]
    exact .ok ""
  | some value =>
    have hwritten := Template.valueText_faultsOnly (a := a) (hshapes p hp) hvalid hp hvalue
    rw [Template.get?_key_of_mem_named hp] at hvalue
    have hentry : (p.key, value) ∈ params.named.entries := OrderedMap.mem_of_get? hvalue
    by_cases hcondition : ∃ c, value = .condition c
    · obtain ⟨c, rfl⟩ := hcondition
      simp only [Adapter.text, filler]
      split
      · rw [conditionText, partTexts_eq_mapM]
        exact (FaultsOnly.mapM (hparts p.key c hentry)).bind fun texts _ => .ok _
      · next hmodifier => exact hwritten.imp fun _ hfault => hfault.notCondition hmodifier
    · have hmodifier : p.modifier ≠ .condition := fun hmodifier =>
        hcondition ((h.condition_iff _ hentry).mpr (isConditionKey_key hmodifier))
      have hfault := hwritten.imp fun _ hfault => hfault.notCondition hmodifier
      cases value with
      | condition c => exact absurd ⟨c, rfl⟩ hcondition
      | scalar _ | sequence _ | record _ => exact hfault

theorem check_notCondition
    (htexts : (∀ p ∈ (ofText text).namedPlaceholders, Validation.checkShape params p = .ok ()) →
      ((ofText text).report params).missing = [] → ∀ p ∈ (ofText text).namedPlaceholders,
        FaultsOnly Error.NotCondition (a.text (params.get? p.key) p)) :
    FaultsOnly Error.NotCondition (a.check (ofText text) params) := by
  apply faultsOnly_of_stages
  · intro p _
    exact (Validation.checkShape_faultsOnly params p).imp fun _ hfault => hfault.notCondition
  · exact fun _ => by simp [Error.NotCondition]
  · intro _
    unfold Template.positionalTexts
    split
    · exact .ok []
    · split
      · exact FaultsOnly.mapM fun item _ =>
          (a.staticText_faultsOnly _ item).imp fun _ hfault => hfault.notCondition
      · exact .error (by simp [Error.NotCondition])
  · exact fun _ _ _ => by simp [Error.NotCondition]
  · exact htexts

theorem resolve_notCondition (h : params.WellKeyed) :
    ∀ text, FaultsOnly Error.NotCondition (a.resolve (ofText text) params) := by
  induction h with
  | intro hkeyed _ ih =>
    intro text e he
    apply check_notCondition _ e ((a.resolve_checkedBy text _).error_iff.mp he)
    intro hshapes hvalid p hp
    have hparts := fun key c hc part hpart => ih key c hc part hpart part.1
    exact text_notCondition hkeyed hparts hshapes hvalid hp

end Adapter

/-- Reading parameters ends well just for a JSON value of their form. At every depth of what is read,
the conditions are the values under keys that start with `~`, no other value holds one, and no
placeholder finds another value where it expects a condition. -/
theorem Params.ofJson_conditions (json : Json) :
    ((∃ params, Params.ofJson json = .ok params) ↔ json.IsParams) ∧
      ∀ params, Params.ofJson json = .ok params → ∀ inner : Params, inner.Within params →
        inner.Keyed ∧ ∀ (a : Adapter) text name,
          a.resolve (Template.ofText text) inner ≠ .error (.invalid name .condition) := by
  have hread := Params.yields_ofJson json
  refine ⟨hread.exists_ok_iff, fun params hparams inner hwithin => ?_⟩
  have hinner : inner.WellKeyed := (hread.post_of_ok params hparams).of_within hwithin
  exact ⟨hinner.keyed, fun a text name he =>
    Adapter.resolve_notCondition hinner text _ he name rfl⟩

theorem Params.ofJson_nested_condition :
    ∃ params inner : Params,
      Params.ofJson (.ofFields [("~w", .ofFields [("operator", .string "OR"),
        ("parts", .array [.array [.string ":~v", .ofFields [("~v",
          .ofFields [("operator", .string "AND"), ("parts", .array [])])]]])])]) = .ok params ∧
      inner.Within params ∧ inner.named.keys = ["~v"] ∧ inner.Keyed ∧
      ∀ (a : Adapter) text name,
        a.resolve (Template.ofText text) inner ≠ .error (.invalid name .condition) := by
  let inner : Params := ⟨⟨[("~v", .condition ⟨"AND", []⟩)]⟩, none⟩
  let params : Params := ⟨⟨[("~w", .condition ⟨"OR", [(":~v", inner)]⟩)]⟩, none⟩
  have hparams : Params.ofJson (.ofFields [("~w", .ofFields [("operator", .string "OR"),
      ("parts", .array [.array [.string ":~v", .ofFields [("~v",
        .ofFields [("operator", .string "AND"), ("parts", .array [])])]]])])]) = .ok params := by rfl
  have hwithin : inner.Within params :=
    .part List.mem_cons_self List.mem_cons_self .refl
  exact ⟨params, inner, hparams, hwithin, rfl,
    (Params.ofJson_conditions _).2 params hparams inner hwithin⟩

end SqlTemplate
