import SqlTemplate.Proofs.Skeleton
import SqlTemplate.Proofs.Spelling

/-!
Conditions within conditions. A template that is nothing but one placeholder, given a value for it and
nothing else, resolves to the text of the value and fails with its fault (`resolve_alone`). So a
condition can give up its own place in a condition of the same operator and leave it to its parts
(`text_flattened`).
-/

namespace SqlTemplate

open Template (ofText)
open Placeholder (Reads IsName spelling)

/-! ### Templates of one placeholder -/

namespace Template

variable {cs : List Char} {p : Placeholder}

theorem placeholders_of_reads (h : Reads cs p []) : (ofText p.raw).placeholders = [p] := by
  rw [placeholders, pieces_of_reads h]
  rfl

theorem namedPlaceholders_of_reads (h : Reads cs p []) (hnamed : p.isPositional = false) :
    (ofText p.raw).namedPlaceholders = [p] := by
  rw [namedPlaceholders, placeholders_of_reads h]
  simp [hnamed]

theorem positionalCount_of_reads (h : Reads cs p []) (hnamed : p.isPositional = false) :
    (ofText p.raw).positionalCount = 0 := by
  rw [positionalCount, placeholders_of_reads h]
  simp [hnamed]

end Template

namespace Validation

variable {p : Placeholder} {params : Params}

theorem checkShape_of_simple (hobject : p.modifier.isObject = false)
    (hoptional : p.modifier ≠ .optional) : checkShape params p = .ok () := by
  rw [checkShape, if_neg hoptional]
  change checkValue params p = .ok ()
  unfold checkValue
  cases params.get? p.key <;> simp [hobject]

theorem openEntries_of_simple (hobject : p.modifier.isObject = false) {value : Value}
    (hvalue : params.get? p.key = some value) : openEntries params p = [] := by
  simp [openEntries, hvalue, hobject]

end Validation

namespace Adapter

variable {cs : List Char} {p : Placeholder}

theorem check_alone (a : Adapter) (h : Reads cs p []) (hnamed : p.isPositional = false)
    (hobject : p.modifier.isObject = false) (hoptional : p.modifier ≠ .optional) {params : Params}
    {value : Value} (hvalue : params.get? p.key = some value) (hkeys : params.named.keys = [p.key]) :
    a.check (ofText p.raw) params = verdict (a.text (some value) p) := by
  have hplaceholders := Template.namedPlaceholders_of_reads h hnamed
  have hcount := Template.positionalCount_of_reads h hnamed
  have hshape : Validation.checkShape params p = .ok () :=
    Validation.checkShape_of_simple hobject hoptional
  have hmissing : ((ofText p.raw).report params).missing = [] := by
    rw [Template.report, hplaceholders, Template.positionalEntries, hcount]
    simp [Validation.openEntries_of_simple hobject hvalue]
  have htexts : (ofText p.raw).positionalTexts a params = .ok [] := by
    rw [Template.positionalTexts, if_pos hcount]
  have hcheck : a.checkText params p = verdict (a.text (some value) p) := by
    rw [checkText, hvalue]
    rfl
  have hkey : (longestKeysFirst params.named.keys).forM (a.checkKey (ofText p.raw) params) =
      verdict (a.text (some value) p) := by
    rw [hkeys, show longestKeysFirst [p.key] = [p.key] from rfl]
    simp [checkKey, hplaceholders, hcheck]
  have hshapes : (ofText p.raw).namedPlaceholders.forM (Validation.checkShape params) = .ok () := by
    rw [hplaceholders]
    simp [hshape]
  rw [check, hshapes, if_pos (Validation.isValid_iff.mpr hmissing), htexts,
    forM_checkKey_longestFirst, hkey]
  rfl

/-- The text of the value is all there is to such a template, and its fault the only one. -/
theorem resolve_alone (a : Adapter) (h : Reads cs p []) (hnamed : p.isPositional = false)
    (hobject : p.modifier.isObject = false) (hoptional : p.modifier ≠ .optional) {params : Params}
    {value : Value} (hvalue : params.get? p.key = some value) (hkeys : params.named.keys = [p.key]) :
    a.resolve (ofText p.raw) params = a.text (some value) p := by
  have hrun := a.resolve_checkedBy p.raw params
  rw [a.check_alone h hnamed hobject hoptional hvalue hkeys] at hrun
  refine hrun.eq_of_unique (CheckedBy.self _) fun sql s hsql hs => ?_
  obtain ⟨texts, hfills, rfl⟩ := renders_iff_weave.mp hsql
  rw [Template.placeholders_of_reads h] at hfills
  generalize params.items = items at hfills
  cases hfills with
  | positional hp => cases hnamed.symm.trans hp
  | named _ hs' hrest =>
    cases hrest
    rw [hvalue, hs] at hs'
    cases hs'
    simp [Template.pieces_of_reads h, Piece.weave]

end Adapter

/-! ### Nested conditions -/

/-- The condition as a part of another one, under a key of its own. -/
def ConditionOf.asPart (name : String) (c : Condition) : String × Params :=
  (":~" ++ name, .ofList [("~" ++ name, .condition c)])

/-- Texts that are joined within a list may as well be joined one by one. -/
theorem intercalate_intercalate (separator : String) (before after : List String)
    {inner : List String} (hinner : inner ≠ []) :
    separator.intercalate (before ++ separator.intercalate inner :: after) =
      separator.intercalate (before ++ inner ++ after) := by
  have hafter : separator.intercalate (separator.intercalate inner :: after) =
      separator.intercalate (inner ++ after) := by
    cases after with
    | nil => rw [String.intercalate_singleton, List.append_nil]
    | cons text after =>
      rw [String.intercalate_cons_of_ne_nil (List.cons_ne_nil text after),
        String.intercalate_append_of_ne_nil hinner (List.cons_ne_nil text after)]
  cases before with
  | nil => exact hafter
  | cons text before =>
    have hbefore : text :: before ≠ [] := List.cons_ne_nil text before
    have hrest : inner ++ after ≠ [] := List.append_ne_nil_of_left_ne_nil hinner after
    rw [String.intercalate_append_of_ne_nil hbefore (List.cons_ne_nil _ after), hafter,
      List.append_assoc, String.intercalate_append_of_ne_nil hbefore hrest]

namespace Adapter

variable (a : Adapter)

theorem resolve_asPart {name : String} (hname : IsName name.toList) (c : Condition) :
    a.resolve (ofText (c.asPart name).1) (c.asPart name).2 = a.conditionText c := by
  let p : Placeholder := ⟨spelling .condition name none, .condition, name, none⟩
  have hkey : p.key = "~" ++ name := rfl
  have hraw : p.raw = ":~" ++ name := by simp [p, spelling, Modifier.symbol]
  obtain ⟨cs, -, hreads⟩ : ∃ cs, Placeholder.write .condition name.toList none = ':' :: cs ∧
      Reads cs (.ofParts .condition name.toList none) [] :=
    Placeholder.reads_write hname (by simp)
  have hp : Placeholder.ofParts .condition name.toList none = p :=
    Placeholder.ofParts_spelling .condition name none
  rw [hp] at hreads
  have hnamed : p.isPositional = false := IsName.isPositional_eq_false hname
  have hne : "~" ++ name ≠ ParamsOf.positionalKey := hkey ▸ IsName.key_ne hname
  have hvalue : (c.asPart name).2.get? p.key = some (.condition c) := by
    simp [ConditionOf.asPart, ParamsOf.ofList, hkey]
  have hkeys : (c.asPart name).2.named.keys = [p.key] := by
    simp [ConditionOf.asPart, ParamsOf.ofList, ParamsOf.insert, ParamsOf.empty, hkey, hne,
      OrderedMap.keys_insert]
  calc a.resolve (ofText (c.asPart name).1) (c.asPart name).2
      = a.resolve (ofText p.raw) (c.asPart name).2 := by rw [hraw]; rfl
    _ = a.text (some (.condition c)) p :=
      a.resolve_alone hreads hnamed rfl (by simp [p]) hvalue hkeys
    _ = a.conditionText c := by rw [text_condition, if_pos rfl]

/-- Parts of the same operator may stand among the others, or as a condition in their place. -/
theorem conditionText_flattened {name : String} (hname : IsName name.toList) (operator : String)
    (before after : List (String × Params)) {inner : List (String × Params)} (hinner : inner ≠ []) :
    a.conditionText ⟨operator, before ++ ConditionOf.asPart name ⟨operator, inner⟩ :: after⟩ =
      a.conditionText ⟨operator, before ++ inner ++ after⟩ := by
  have hpart := a.resolve_asPart hname ⟨operator, inner⟩
  rw [conditionText, partTexts_eq_mapM] at hpart
  simp only [conditionText, partTexts_eq_mapM, List.mapM_append, List.mapM_cons, hpart]
  cases before.mapM fun part => a.resolve (ofText part.1) part.2 with
  | error e => rfl
  | ok texts =>
    cases htexts' : inner.mapM fun part => a.resolve (ofText part.1) part.2 with
    | error e => rfl
    | ok texts' =>
      cases after.mapM fun part => a.resolve (ofText part.1) part.2 with
      | error e => rfl
      | ok texts'' =>
        have hne : texts' ≠ [] := by
          rintro rfl
          exact hinner (List.forall₂_nil_right_iff.mp (mapM_eq_ok_iff.mp htexts'))
        have hjoin := intercalate_intercalate (" " ++ operator ++ " ") texts texts'' hne
        simpa [bind, Except.bind, pure, Except.pure] using hjoin

/-- A condition is written alike, and fails alike, whether some of its parts make up a condition of
the same operator or stand there by themselves. -/
theorem text_flattened (p : Placeholder) {name : String} (hname : IsName name.toList)
    (operator : String) (before after : List (String × Params)) {inner : List (String × Params)}
    (hinner : inner ≠ []) :
    a.text (some (.condition
        ⟨operator, before ++ ConditionOf.asPart name ⟨operator, inner⟩ :: after⟩)) p =
      a.text (some (.condition ⟨operator, before ++ inner ++ after⟩)) p := by
  rw [text_condition, text_condition, a.conditionText_flattened hname operator before after hinner]
  rfl

theorem text_flattened_mixed_operators :
    Dialect.sqlite.adapter.text (some (.condition ⟨"AND", [("a = :a", .ofList [("a", .scalar .null)]),
        ConditionOf.asPart "c" ⟨"AND", [("b = :?", .withPositional .empty [.scalar (.text "it's")]),
          ConditionOf.asPart "d" ⟨"OR", [("d", .empty), ("e", .empty)]⟩]⟩, ("f", .empty)]⟩))
        (.ofParts .condition ['w'] none) =
      .ok "a = NULL AND b = 'it''s' AND d OR e AND f" := by
  have hname : IsName "c".toList := by decide
  have hflat := Dialect.sqlite.adapter.text_flattened (.ofParts .condition ['w'] none) hname "AND"
    [("a = :a", .ofList [("a", .scalar .null)])] [("f", .empty)]
    (List.cons_ne_nil ("b = :?", .withPositional .empty [.scalar (.text "it's")])
      [ConditionOf.asPart "d" ⟨"OR", [("d", .empty), ("e", .empty)]⟩])
  refine hflat.trans ?_
  decide +kernel

end Adapter

end SqlTemplate
