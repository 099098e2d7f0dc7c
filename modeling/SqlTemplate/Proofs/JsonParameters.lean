import SqlTemplate.Json.Parameters
import SqlTemplate.Proofs.Outcome

/-!
Parameters that were read from JSON. `Json.IsParams` says which JSON values are parameters. In what is
read, at every depth, conditions stand under keys that start with `~` and nowhere else
(`Params.yields_ofJson`).
-/

namespace SqlTemplate

/-! ### Runs with a known domain -/

/-- The run ends well just when `form` holds, and `post` is true of the result. -/
structure Yields {ε α : Type} (form : Prop) (post : α → Prop) (run : Except ε α) : Prop where
  exists_ok_iff : (∃ a, run = .ok a) ↔ form
  post_of_ok : ∀ a, run = .ok a → post a

namespace Yields

variable {ε α β : Type} {form form' : Prop} {post : α → Prop} {run : Except ε α}

theorem ok {a : α} (hform : form) (ha : post a) : Yields form post (.ok a : Except ε α) where
  exists_ok_iff := ⟨fun _ => hform, fun _ => ⟨a, rfl⟩⟩
  post_of_ok b hb := by
    cases hb
    exact ha

theorem error {e : ε} (hform : ¬form) : Yields form post (.error e : Except ε α) where
  exists_ok_iff := by simp [hform]
  post_of_ok _ h := by cases h

theorem congr (h : Yields form post run) (hform : form ↔ form') : Yields form' post run :=
  ⟨h.exists_ok_iff.trans hform, h.post_of_ok⟩

theorem map {post' : β → Prop} (h : Yields form post run) {f : α → β}
    (hf : ∀ a, post a → post' (f a)) : Yields form post' (run >>= fun a => .ok (f a)) where
  exists_ok_iff := by
    rw [← h.exists_ok_iff]
    simp [bind_eq_ok_iff]
  post_of_ok b hb := by
    obtain ⟨a, ha, hb⟩ := bind_eq_ok_iff.mp hb
    cases hb
    exact hf a (h.post_of_ok a ha)

theorem mapM {forms : α → Prop} {post' : β → Prop} {f : α → Except ε β} {l : List α}
    (h : ∀ a ∈ l, Yields (forms a) post' (f a)) :
    Yields (∀ a ∈ l, forms a) (fun l' => ∀ b ∈ l', post' b) (l.mapM f) where
  exists_ok_iff := by
    rw [exists_mapM_eq_ok_iff]
    exact forall₂_congr fun a ha => (h a ha).exists_ok_iff
  post_of_ok l' hl' := by
    have hall := mapM_eq_ok_iff.mp hl'
    clear hl'
    induction hall with
    | nil => simp
    | cons hb _ ih =>
      obtain ⟨ha, hl⟩ := List.forall_mem_cons.mp h
      exact List.forall_mem_cons.mpr ⟨ha.post_of_ok _ hb, ih hl⟩

end Yields

/-! ### Which JSON values are parameters -/

namespace Json

mutual

/-- An object with a condition under every key that starts with `~`. -/
inductive IsParams : Json → Prop
  | object {fields : OrderedMap Json}
      (hconditions : ∀ entry ∈ fields.entries, isConditionKey entry.1 = true → IsCondition entry.2) :
      IsParams (.object fields)

/-- An object with a text `operator` and an array `parts`. -/
inductive IsCondition : Json → Prop
  | object {fields : OrderedMap Json} {operator : String} {parts : List Json}
      (hoperator : fields.get? "operator" = some (.string operator))
      (hparts : fields.get? "parts" = some (.array parts)) (hpart : ∀ part ∈ parts, IsPart part) :
      IsCondition (.object fields)

/-- A template, perhaps with its parameters. -/
inductive IsPart : Json → Prop
  | bare (sql : String) : IsPart (.array [.string sql])
  | filled (sql : String) {params : Json} (hparams : IsParams params) :
      IsPart (.array [.string sql, params])

end

theorem isCondition_object_iff {fields : OrderedMap Json} :
    IsCondition (.object fields) ↔
      (∃ operator, fields.get? "operator" = some (.string operator)) ∧
        ∃ parts, fields.get? "parts" = some (.array parts) ∧ ∀ part ∈ parts, IsPart part := by
  constructor
  · rintro ⟨hoperator, hparts, hpart⟩
    exact ⟨⟨_, hoperator⟩, _, hparts, hpart⟩
  · rintro ⟨⟨_, hoperator⟩, _, hparts, hpart⟩
    exact .object hoperator hparts hpart

theorem sizeOf_lt_object {fields : OrderedMap Json} {entry : String × Json}
    (hentry : entry ∈ fields.entries) : sizeOf entry.2 < sizeOf (Json.object fields) := by
  obtain ⟨entries⟩ := fields
  obtain ⟨key, json⟩ := entry
  have hentries := List.sizeOf_lt_of_mem hentry
  simp only [Json.object.sizeOf_spec, OrderedMap.mk.sizeOf_spec, Prod.mk.sizeOf_spec] at hentries ⊢
  omega

end Json

/-! ### What is read -/

/-- A value that holds no condition. -/
inductive Value.Plain : Value → Prop
  | scalar (s : Scalar) : Plain (.scalar s)
  | sequence {items : List Value} (hitems : ∀ item ∈ items, Plain item) : Plain (.sequence items)
  | record {fields : Record} (hfields : ∀ entry ∈ fields.entries, Plain entry.2) :
      Plain (.record fields)

/-- Conditions stand under the keys that start with `~`, and only there. -/
structure ParamsOf.Keyed (params : Params) : Prop where
  condition_iff : ∀ entry ∈ params.named.entries,
    (∃ c, entry.2 = .condition c) ↔ isConditionKey entry.1 = true
  plain : ∀ entry ∈ params.named.entries, (∀ c, entry.2 ≠ .condition c) → entry.2.Plain
  positional : ∀ value, params.positional = some value → value.Plain

/-- Keyed at every depth. -/
inductive ParamsOf.WellKeyed : Params → Prop
  | intro {params : Params} (hkeyed : params.Keyed)
      (hparts : ∀ key c, (key, .condition c) ∈ params.named.entries →
        ∀ part ∈ c.parts, WellKeyed part.2) : WellKeyed params

/-- The parameters themselves, and those of the parts of their conditions, at any depth. -/
inductive ParamsOf.Within (inner : Params) : Params → Prop
  | refl : Within inner inner
  | part {params : Params} {key : String} {c : Condition} {part : String × Params}
      (hc : (key, .condition c) ∈ params.named.entries) (hpart : part ∈ c.parts)
      (h : Within inner part.2) : Within inner params

/-- What may stand under a key. -/
inductive KeyedEntry : String × Value → Prop
  | condition {key : String} {c : Condition} (hkey : isConditionKey key = true)
      (hparts : ∀ part ∈ c.parts, ParamsOf.WellKeyed part.2) : KeyedEntry (key, .condition c)
  | plain {key : String} {value : Value} (hkey : isConditionKey key = false)
      (hplain : value.Plain) : KeyedEntry (key, value)

theorem Value.Plain.ne_condition {value : Value} (h : value.Plain) (c : Condition) :
    value ≠ .condition c := by
  rintro rfl
  cases h

namespace ParamsOf.WellKeyed

variable {params : Params}

theorem of_entries (hentries : ∀ entry ∈ params.named.entries, KeyedEntry entry)
    (hpositional : ∀ value, params.positional = some value → value.Plain) : params.WellKeyed := by
  refine .intro ⟨?_, ?_, hpositional⟩ ?_
  · intro entry hentry
    cases hentries entry hentry with
    | condition hkey _ => simp [hkey]
    | plain hkey hplain => simp [hkey, hplain.ne_condition]
  · intro entry hentry hno
    cases hentries entry hentry with
    | @condition _ c _ _ => exact absurd rfl (hno c)
    | plain _ hplain => exact hplain
  · intro key c hentry
    cases hentries _ hentry with
    | condition _ hparts => exact hparts
    | plain _ hplain => exact absurd rfl (hplain.ne_condition c)

theorem keyed (h : params.WellKeyed) : params.Keyed := by
  cases h
  assumption

theorem keyedEntry (h : params.WellKeyed) : ∀ entry ∈ params.named.entries, KeyedEntry entry := by
  rintro ⟨key, value⟩ hentry
  obtain ⟨hkeyed, hparts⟩ := h
  have hiff := hkeyed.condition_iff _ hentry
  by_cases hkey : isConditionKey key = true
  · obtain ⟨c, rfl⟩ := hiff.mpr hkey
    exact .condition hkey (hparts key c hentry)
  · refine .plain (Bool.eq_false_iff.mpr hkey) (hkeyed.plain _ hentry ?_)
    intro c hc
    exact hkey (hiff.mp ⟨c, hc⟩)

theorem empty : (ParamsOf.empty : Params).WellKeyed := by
  apply of_entries
  · intro entry hentry
    cases hentry
  · intro value hvalue
    cases hvalue

theorem insert (h : params.WellKeyed) {entry : String × Value} (hentry : KeyedEntry entry) :
    (params.insert entry.1 entry.2).WellKeyed := by
  unfold ParamsOf.insert
  split
  · next hkey =>
    refine @of_entries ⟨params.named, some entry.2⟩ h.keyedEntry ?_
    rintro value ⟨⟩
    cases hentry with
    | condition hcondition _ =>
      obtain rfl : _ = positionalKey := hkey
      exact absurd hcondition (by decide)
    | plain _ hplain => exact hplain
  · refine of_entries ?_ h.keyed.positional
    intro other hother
    obtain rfl | hother := OrderedMap.mem_insert hother
    · exact hentry
    · exact h.keyedEntry other hother

theorem ofList {entries : List (String × Value)} (h : ∀ entry ∈ entries, KeyedEntry entry) :
    (ParamsOf.ofList entries : Params).WellKeyed := by
  suffices hfill : ∀ filled : Params, filled.WellKeyed →
      (entries.foldl (fun params entry => params.insert entry.1 entry.2) filled).WellKeyed from
    hfill .empty .empty
  induction entries with
  | nil => exact fun _ hfilled => hfilled
  | cons entry entries ih =>
    obtain ⟨hentry, hentries⟩ := List.forall_mem_cons.mp h
    exact fun filled hfilled => ih hentries _ (hfilled.insert hentry)

theorem of_within {inner : Params} (h : params.WellKeyed) (hwithin : inner.Within params) :
    inner.WellKeyed := by
  induction hwithin with
  | refl => exact h
  | part hc hpart _ ih =>
    obtain ⟨-, hparts⟩ := h
    exact ih (hparts _ _ hc _ hpart)

end ParamsOf.WellKeyed

/-! ### Reading -/

mutual

theorem Value.plain_ofJson : ∀ json : Json, (Value.ofJson json).Plain
  | .null | .bool _ | .number (.whole _) | .number (.real _) | .string _ => .scalar _
  | .array items => .sequence (Value.plain_ofItems items)
  | .object ⟨fields⟩ =>
    .record fun _ hentry =>
      Value.plain_ofFields fields _ (OrderedMap.mem_of_mem_ofList hentry)

theorem Value.plain_ofItems : ∀ items : List Json, ∀ item ∈ Value.ofItems items, item.Plain
  | [] => by simp [Value.ofItems]
  | item :: items => by
    rw [Value.ofItems]
    exact List.forall_mem_cons.mpr ⟨Value.plain_ofJson item, Value.plain_ofItems items⟩

theorem Value.plain_ofFields : ∀ fields : List (String × Json),
    ∀ entry ∈ Value.ofFields fields, entry.2.Plain
  | [] => by simp [Value.ofFields]
  | (name, json) :: fields => by
    rw [Value.ofFields]
    exact List.forall_mem_cons.mpr ⟨Value.plain_ofJson json, Value.plain_ofFields fields⟩

end

def Params.entryOfField (field : String × Json) : Except Error (String × Value) :=
  if isConditionKey field.1 then do
    let condition ← Condition.ofJson field.1 field.2
    return (field.1, .condition condition)
  else .ok (field.1, Value.ofJson field.2)

theorem Params.entriesOfFields_eq_mapM (fields : List (String × Json)) :
    Params.entriesOfFields fields = fields.mapM Params.entryOfField := by
  induction fields with
  | nil => simp [entriesOfFields, pure, Except.pure]
  | cons field fields ih =>
    rw [entriesOfFields, List.mapM_cons, ← ih, entryOfField]
    split
    · simp
    · rfl

def Condition.partOfItem (name : String) : Json → Except Error (String × Params)
  | .array [.string sql] => .ok (sql, .empty)
  | .array [.string sql, json] => do
    let params ← Params.ofJson json
    return (sql, params)
  | _ => .error (.invalid name .partPairs)

theorem Condition.partsOfItems_eq_mapM (name : String) (items : List Json) :
    Condition.partsOfItems name items = items.mapM (Condition.partOfItem name) := by
  induction items with
  | nil => simp [partsOfItems, pure, Except.pure]
  | cons item items ih =>
    rw [List.mapM_cons, ← ih]
    fun_cases Condition.partOfItem name item with
    | case1 sql => simp [partsOfItems]; rfl
    | case2 sql json => simp [partsOfItems]
    | case3 item hbare hfilled =>
      rw [partsOfItems]
      · rfl
      · exact hbare
      · exact hfilled

theorem Condition.partsOfFields_eq (name : String) (fields : List (String × Json)) :
    Condition.partsOfFields name fields = match fields.lookup "parts" with
      | some (.array items) => items.mapM (Condition.partOfItem name)
      | _ => .error (.invalid name .partsArray) := by
  induction fields with
  | nil => simp [partsOfFields]
  | cons field fields ih =>
    conv_lhs => unfold partsOfFields
    rw [List.lookup_cons, ih]
    by_cases hkey : field.1 = "parts"
    · rw [if_pos hkey, beq_iff_eq.mpr hkey.symm]
      cases field.2 <;> simp [partsOfItems_eq_mapM]
    · rw [if_neg hkey, beq_false_of_ne (Ne.symm hkey)]

mutual

theorem Params.yields_ofJson (json : Json) :
    Yields json.IsParams ParamsOf.WellKeyed (Params.ofJson json) := by
  cases json with
  | object fields =>
    have hfields : ∀ field ∈ fields.entries,
        Yields (isConditionKey field.1 = true → field.2.IsCondition) KeyedEntry
          (Params.entryOfField field) := by
      intro field hfield
      unfold Params.entryOfField
      by_cases hkey : isConditionKey field.1 = true
      · have hcondition := Condition.yields_ofJson field.1 field.2
        simp only [hkey, if_true]
        refine (hcondition.map fun c hparts => ?_).congr (by simp)
        exact .condition hkey hparts
      · simp only [hkey]
        exact .ok (by simp) (.plain (Bool.eq_false_iff.mpr hkey) (Value.plain_ofJson field.2))
    rw [Params.ofJson, Params.entriesOfFields_eq_mapM]
    refine ((Yields.mapM hfields).map fun entries => .ofList).congr ?_
    exact ⟨.object, fun ⟨h⟩ => h⟩
  | null | bool _ | number _ | string _ | array _ => exact .error nofun
termination_by sizeOf json
decreasing_by exact Json.sizeOf_lt_object hfield

theorem Condition.yields_ofJson (name : String) (json : Json) :
    Yields json.IsCondition (fun c => ∀ part ∈ c.parts, part.2.WellKeyed)
      (Condition.ofJson name json) := by
  cases json with
  | object fields =>
    rw [Condition.ofJson, Condition.partsOfFields_eq]
    split
    · next operator hoperator =>
      split
      · next items hitems =>
        have hparts : ∀ item ∈ items, Yields item.IsPart (fun part => part.2.WellKeyed)
            (Condition.partOfItem name item) := by
          intro item hitem
          have hlt : sizeOf item < sizeOf (Json.object fields) := by
            have hfield := Json.sizeOf_lt_object (OrderedMap.mem_of_get? hitems)
            have hitems := List.sizeOf_lt_of_mem hitem
            simp only [Json.array.sizeOf_spec] at hfield
            omega
          exact Condition.yields_partOfItem name item
        refine ((Yields.mapM hparts).map fun parts h => h).congr ?_
        rw [Json.isCondition_object_iff, OrderedMap.get?, OrderedMap.get?, hoperator, hitems]
        simp
      · next hno =>
        refine .error fun h => ?_
        obtain ⟨-, items, hitems, -⟩ := Json.isCondition_object_iff.mp h
        exact hno items hitems
    · next hno =>
      refine .error fun h => ?_
      obtain ⟨⟨operator, hoperator⟩, -⟩ := Json.isCondition_object_iff.mp h
      exact hno operator hoperator
  | null | bool _ | number _ | string _ | array _ => exact .error nofun
termination_by sizeOf json
decreasing_by assumption

theorem Condition.yields_partOfItem (name : String) (item : Json) :
    Yields item.IsPart (fun part => part.2.WellKeyed) (Condition.partOfItem name item) := by
  fun_cases Condition.partOfItem name item with
  | case1 sql => exact .ok (.bare sql) .empty
  | case2 sql json =>
    have hjson := Params.yields_ofJson json
    refine (hjson.map fun params h => ?_).congr ?_
    · exact h
    · exact ⟨.filled sql, fun h => by cases h; assumption⟩
  | case3 item hbare hfilled =>
    refine .error fun h => ?_
    cases h with
    | bare sql => exact hbare sql rfl
    | filled sql _ => exact hfilled sql _ rfl
termination_by sizeOf item

end

end SqlTemplate
