import SqlTemplate.Proofs.Elements
import SqlTemplate.Proofs.Skeleton

/-!
Sequences in SQL text. A sequence of scalars and sequences, of any depth, is written as a tuple, and
from its text a reader gets the texts of its items, each as one element. Only the outermost sequence
goes without parentheses, when there is a sequence among its items
(`Dialect.staticText_elements`).
-/

namespace SqlTemplate

/-- Made of scalars and sequences only. -/
inductive Value.Static : Value → Prop where
  | scalar (s : Scalar) : Static (.scalar s)
  | sequence (items : List Value) (h : ∀ v ∈ items, Static v) : Static (.sequence items)

namespace Value

variable {items : List Value}

theorem static_sequence_iff : (Value.sequence items).Static ↔ ∀ v ∈ items, v.Static := by
  constructor
  · rintro ⟨⟩
    assumption
  · exact .sequence items

theorem not_static_record (fields : Record) : ¬(Value.record fields).Static := by
  rintro ⟨⟩

theorem not_static_condition (c : Condition) : ¬(Value.condition c).Static := by
  rintro ⟨⟩

end Value

/-! ### Which values have a text -/

namespace Adapter

variable {a : Adapter} {key text : String} {items : List Value}

theorem itemText_sequence_eq_ok_iff :
    a.itemText key (.sequence items) = .ok text ↔
      ∃ texts, items.mapM (a.itemText key) = .ok texts ∧
        parenthesized (commaList texts) = text := by
  rw [itemText, itemTexts_eq_mapM, bind_eq_ok_iff]
  simp [pure, Except.pure]

theorem staticText_sequence_eq_ok_iff :
    a.staticText key (.sequence items) = .ok text ↔
      ∃ texts, items.mapM (a.itemText key) = .ok texts ∧
        (if items.any Value.isSequence then commaList texts
          else parenthesized (commaList texts)) = text := by
  rw [staticText, itemTexts_eq_mapM, bind_eq_ok_iff]
  simp [pure, Except.pure]

theorem exists_itemText_iff (a : Adapter) (key : String) (v : Value) :
    (∃ text, a.itemText key v = .ok text) ↔ v.Static := by
  induction v using Value.induction with
  | scalar s => exact ⟨fun _ => .scalar s, fun _ => ⟨a.literal s, rfl⟩⟩
  | record fields _ => simp [itemText, Value.not_static_record]
  | condition c _ => simp [itemText, Value.not_static_condition]
  | sequence items ih =>
    calc (∃ text, a.itemText key (.sequence items) = .ok text)
        ↔ ∃ texts, items.mapM (a.itemText key) = .ok texts := by
          simp [itemText_sequence_eq_ok_iff]
      _ ↔ ∀ v ∈ items, ∃ text, a.itemText key v = .ok text := exists_mapM_eq_ok_iff
      _ ↔ ∀ v ∈ items, v.Static := forall₂_congr ih
      _ ↔ (Value.sequence items).Static := Value.static_sequence_iff.symm

theorem exists_staticText_iff (a : Adapter) (key : String) (v : Value) :
    (∃ text, a.staticText key v = .ok text) ↔ v.Static := by
  cases v with
  | scalar s => exact ⟨fun _ => .scalar s, fun _ => ⟨a.literal s, rfl⟩⟩
  | record fields => simp [staticText, Value.not_static_record]
  | condition c => simp [staticText, Value.not_static_condition]
  | sequence items =>
    calc (∃ text, a.staticText key (.sequence items) = .ok text)
        ↔ ∃ text, a.itemText key (.sequence items) = .ok text := by
          simp [staticText_sequence_eq_ok_iff, itemText_sequence_eq_ok_iff]
      _ ↔ (Value.sequence items).Static := a.exists_itemText_iff key _

end Adapter

/-! ### What a reader gets -/

namespace Dialect

variable {d : Dialect} {key text : String} {items : List Value} {texts : List String}

theorem isElement_of_mapM (h : items.mapM (d.adapter.itemText key) = .ok texts)
    (hitems : ∀ v ∈ items, ∀ text, d.adapter.itemText key v = .ok text → d.IsElement text.toList) :
    ∀ cs ∈ texts.map String.toList, d.IsElement cs := by
  rw [List.forall_mem_map]
  intro text htext
  obtain ⟨v, hv, hvtext⟩ := exists_of_mem_mapM h htext
  exact hitems v hv text hvtext

theorem isElement_itemText {v : Value} (h : d.adapter.itemText key v = .ok text) :
    d.IsElement text.toList := by
  induction v using Value.induction generalizing text with
  | scalar s =>
    obtain rfl : d.literal s = text := Except.ok.inj h
    exact d.isElement_literal s
  | record fields _ => simp [Adapter.itemText] at h
  | condition c _ => simp [Adapter.itemText] at h
  | sequence items ih =>
    obtain ⟨texts, htexts, rfl⟩ := Adapter.itemText_sequence_eq_ok_iff.mp h
    rw [toList_parenthesized, toList_commaList]
    exact isElement_parenthesized (isElement_of_mapM htexts fun v hv _ => ih v hv)

/-- The texts of items are read back from a list of them, with or without parentheses. -/
theorem tuple?_texts (h : items.mapM (d.adapter.itemText key) = .ok texts) :
    d.tuple? (Adapter.parenthesized (Adapter.commaList texts)).toList =
      some (texts.map String.toList) := by
  rw [toList_parenthesized, toList_commaList]
  exact tuple?_parenthesized (isElement_of_mapM h fun _ _ _ => isElement_itemText)

theorem elements?_texts (h : items.mapM (d.adapter.itemText key) = .ok texts) :
    d.elements? (Adapter.commaList texts).toList = some (texts.map String.toList) := by
  rw [toList_commaList]
  exact elements?_joined (isElement_of_mapM h fun _ _ _ => isElement_itemText)

/-- A sequence has a text if it is made of scalars and sequences, at any depth, and else is refused.
The outermost sequence reads as a tuple of the texts of its items, or as a bare list of them when one of
them is a sequence. All sequences inside read as tuples. -/
theorem staticText_elements (d : Dialect) (key : String) (items : List Value) :
    ((∃ text, d.adapter.staticText key (.sequence items) = .ok text) ↔
        (Value.sequence items).Static) ∧
      (¬(Value.sequence items).Static →
        ∃ expected, d.adapter.staticText key (.sequence items) = .error (.invalid key expected)) ∧
      (∀ text, d.adapter.staticText key (.sequence items) = .ok text →
        ∃ texts, items.mapM (d.adapter.itemText key) = .ok texts ∧
          if items.any Value.isSequence then
            d.elements? text.toList = some (texts.map String.toList)
          else d.tuple? text.toList = some (texts.map String.toList)) ∧
      ∀ inner text, d.adapter.itemText key (.sequence inner) = .ok text →
        ∃ texts, inner.mapM (d.adapter.itemText key) = .ok texts ∧
          d.tuple? text.toList = some (texts.map String.toList) := by
  refine ⟨d.adapter.exists_staticText_iff key _, fun hstatic => ?_, fun text htext => ?_,
    fun inner text htext => ?_⟩
  · rw [← d.adapter.exists_staticText_iff key, ← not_error_iff, not_forall_not] at hstatic
    obtain ⟨e, he⟩ := hstatic
    obtain ⟨expected, -, rfl⟩ := (d.adapter.staticText_faultsOnly key _ e he).exists_invalid
    exact ⟨expected, he⟩
  · obtain ⟨texts, htexts, rfl⟩ := Adapter.staticText_sequence_eq_ok_iff.mp htext
    refine ⟨texts, htexts, ?_⟩
    split
    · exact elements?_texts htexts
    · exact tuple?_texts htexts
  · obtain ⟨texts, htexts, rfl⟩ := Adapter.itemText_sequence_eq_ok_iff.mp htext
    exact ⟨texts, htexts, tuple?_texts htexts⟩

theorem staticText_elements_quotes_inside :
    ∃ texts, [Value.sequence [.scalar (.text "a'), (")], .sequence []].mapM
        (Dialect.mysql.adapter.itemText "rows") = .ok texts ∧
      Dialect.mysql.elements? "('a\\'), ('), ()".toList = some (texts.map String.toList) := by
  have htext : Dialect.mysql.adapter.staticText "rows"
      (.sequence [.sequence [.scalar (.text "a'), (")], .sequence []]) =
        .ok "('a\\'), ('), ()" := by decide +kernel
  obtain ⟨-, -, houter, -⟩ :=
    staticText_elements .mysql "rows" [.sequence [.scalar (.text "a'), (")], .sequence []]
  obtain ⟨texts, htexts, hread⟩ := houter _ htext
  exact ⟨texts, htexts, hread⟩

example : Dialect.postgres.elements? "(E'a''), (\\\\', 1), ()".toList =
    some ["(E'a''), (\\\\', 1)".toList, "()".toList] := by decide +kernel

end Dialect

end SqlTemplate
