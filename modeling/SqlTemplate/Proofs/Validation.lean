import SqlTemplate.Proofs.Outcome
import SqlTemplate.Proofs.Scanning
import SqlTemplate.Template.Validation

/-!
What validation reports. Which shape is wrong does not depend on the keys noted so far. So validation
is a check of the shapes, placeholder by placeholder, followed by a report that is a function of the
template and the parameters (`validate_checkedBy`). `OpenKeys` says what the report means.
-/

namespace SqlTemplate

/-- The records whose fields a schema asks for. -/
def Value.records : Value → List Record
  | .record fields => [fields]
  | .sequence items => items.filterMap Value.record?
  | _ => []

/-- A record without the field, or a sequence that holds one. -/
def Value.Lacks (value : Value) (field : String) : Prop :=
  (∃ r : Record, value = .record r ∧ r.get? field = none) ∨
    ∃ items, value = .sequence items ∧ ∃ r : Record, .record r ∈ items ∧ r.get? field = none

namespace Validation

/-! ### Lists without repetitions -/

theorem pushNew_eraseDups (seen : List String) (entry : String) :
    pushNew seen.eraseDups entry = (seen ++ [entry]).eraseDups := by
  rw [List.eraseDups_append]
  by_cases hentry : entry ∈ seen <;>
    simp [pushNew, List.mem_eraseDups, hentry, List.removeAll, List.eraseDups_cons]

theorem foldl_pushNew_eraseDups (seen entries : List String) :
    entries.foldl pushNew seen.eraseDups = (seen ++ entries).eraseDups := by
  induction entries generalizing seen with
  | nil => simp
  | cons entry entries ih => rw [List.foldl_cons, pushNew_eraseDups, ih, List.append_assoc]; rfl

theorem nodup_eraseDups (entries : List String) : entries.eraseDups.Nodup := by
  induction hlength : entries.length using Nat.strong_induction_on generalizing entries with
  | _ n ih =>
    cases entries with
    | nil => exact .nil
    | cons entry entries =>
      rw [List.eraseDups_cons, List.nodup_cons]
      refine ⟨by simp [List.mem_eraseDups], ih _ ?_ _ rfl⟩
      have hle := List.length_filter_le (fun other => !other == entry) entries
      rw [← hlength, List.length_cons]
      omega

theorem isValid_iff {v : Validation} : v.isValid = true ↔ v.missing = [] :=
  List.isEmpty_iff

/-! ### One placeholder -/

/-- Finds fault with a value that is not made of records where a schema asks for fields. -/
def checkValue (params : Params) (p : Placeholder) : Except Error Unit :=
  match params.get? p.key, p.modifier.isObject, p.fields? with
  | some value, true, some _ => (recordsOf p.key value).map fun _ => ()
  | _, _, _ => .ok ()

/-- Finds fault with the fragment or the value of a placeholder. -/
def checkShape (params : Params) (p : Placeholder) : Except Error Unit := do
  if p.modifier = .optional then checkFragment p
  checkValue params p

/-- The entries for what one placeholder is missing, record by record and each in the order of the
schema. -/
def openEntries (params : Params) (p : Placeholder) : List String :=
  match params.get? p.key with
  | none => if p.modifier = .optional then [] else [p.key]
  | some value =>
    match p.modifier.isObject, p.fields? with
    | true, some fields => value.records.flatMap fun r =>
        (fields.filter fun field => (r.get? field).isNone).map (missingField p.key)
    | _, _ => []

def erasedEntries (params : Params) (p : Placeholder) : List String :=
  if p.modifier = .optional ∧ (params.get? p.key).isNone then [p.key] else []

def addFirst (found : List (String × Placeholder)) (p : Placeholder) :
    List (String × Placeholder) :=
  if (found.lookup p.key).isSome then found else found ++ [(p.key, p)]

def noting (params : Params) (v : Validation) (p : Placeholder) : Validation :=
  { missing := (openEntries params p).foldl pushNew v.missing
    unresolvedOptional := (erasedEntries params p).foldl pushNew v.unresolvedOptional
    placeholders := addFirst v.placeholders p }

theorem records_of_recordsOf {key : String} {value : Value} {records : List Record}
    (h : recordsOf key value = .ok records) : value.records = records := by
  cases value with
  | record fields => cases h; rfl
  | scalar s | condition c => cases h
  | sequence items =>
    have hitems := mapM_eq_ok_iff.mp h
    simp only [Value.records]
    clear h
    induction hitems with
    | nil => rfl
    | @cons item fields _ _ hitem _ ih =>
      cases item with
      | record _ =>
        cases hitem
        simp [Value.record?, ih]
      | scalar s | condition c | sequence inner => cases hitem

theorem note_checkedBy (params : Params) (v : Validation) (p : Placeholder) :
    CheckedBy (checkValue params p)
      (· = { v.noting params p with placeholders := v.placeholders }) (note params v p) := by
  simp only [CheckedBy, checkValue, note, noting, openEntries, erasedEntries]
  cases params.get? p.key with
  | none => by_cases hoptional : p.modifier = .optional <;> simp [hoptional]
  | some value =>
    cases p.modifier.isObject with
    | false => simp
    | true =>
      cases p.fields? with
      | none => simp
      | some fields =>
        cases hrecords : recordsOf p.key value with
        | error e => simp [hrecords, Except.map, bind, Except.bind]
        | ok records =>
          have hsame := records_of_recordsOf hrecords
          simp [hrecords, hsame, lackedFields, OrderedMap.contains, Except.map, bind, Except.bind,
            pure, Except.pure]

theorem examine_checkedBy (params : Params) (v : Validation) (p : Placeholder) :
    CheckedBy (checkShape params p) (· = v.noting params p) (examine params v p) := by
  have hrest : CheckedBy (checkValue params p) (· = v.noting params p) (do
      let noted ← note params v p
      if (noted.get? p.key).isSome then return noted
      return { noted with placeholders := noted.placeholders ++ [(p.key, p)] }) := by
    refine (note_checkedBy params v p).bind ?_
    rintro _ rfl
    by_cases hfound : (v.placeholders.lookup p.key).isSome = true <;>
      simp [Validation.get?, noting, addFirst, hfound, pure, Except.pure]
  unfold examine checkShape
  by_cases hoptional : p.modifier = .optional
  · simp only [hoptional, if_true]
    exact hrest.guarded (checkFragment p)
  · simp only [hoptional, if_false]
    exact hrest

end Validation

/-! ### The whole report -/

namespace Template

open Validation

def positionalEntries (t : Template) (params : Params) : List String :=
  if t.positionalCount = 0 || t.positionalMatch params then [] else ["?"]

/-- What validation reports when no shape is wrong. -/
def report (t : Template) (params : Params) : Validation :=
  { missing := (t.positionalEntries params ++
      t.namedPlaceholders.flatMap (openEntries params)).eraseDups
    unresolvedOptional := (t.namedPlaceholders.flatMap (erasedEntries params)).eraseDups
    placeholders := t.namedPlaceholders.foldl addFirst [] }

theorem validate_checkedBy (t : Template) (params : Params) :
    CheckedBy (t.namedPlaceholders.forM (checkShape params)) (· = t.report params)
      (t.validate params) := by
  -- So far the report is that of the placeholders already examined.
  let inv : List Placeholder → Validation → Prop := fun done v =>
    v = { missing := (t.positionalEntries params ++ done.flatMap (openEntries params)).eraseDups
          unresolvedOptional := (done.flatMap (erasedEntries params)).eraseDups
          placeholders := done.foldl addFirst [] }
  have hinit : inv [] ⟨t.positionalEntries params, [], []⟩ := by
    simp only [inv, positionalEntries]
    split <;> rfl
  refine foldlM_checkedBy hinit ?_
  rintro done p rest _ - rfl
  have hstep := examine_checkedBy params
    { missing := (t.positionalEntries params ++ done.flatMap (openEntries params)).eraseDups
      unresolvedOptional := (done.flatMap (erasedEntries params)).eraseDups
      placeholders := done.foldl addFirst [] } p
  simpa [inv, noting, foldl_pushNew_eraseDups] using hstep

theorem validate_eq_ok_iff {t : Template} {params : Params} {v : Validation} :
    t.validate params = .ok v ↔
      (∀ p ∈ t.namedPlaceholders, checkShape params p = .ok ()) ∧ v = t.report params := by
  constructor
  · intro h
    obtain ⟨hcheck, rfl⟩ := (t.validate_checkedBy params).check_eq_ok h
    exact ⟨forM_eq_ok_iff.mp hcheck, rfl⟩
  · rintro ⟨hcheck, rfl⟩
    obtain ⟨v, hv, rfl⟩ := (t.validate_checkedBy params).exists_ok (forM_eq_ok_iff.mpr hcheck)
    exact hv

theorem isSome_lookup_foldl_addFirst (found : List (String × Placeholder)) (ps : List Placeholder)
    (key : String) :
    ((ps.foldl addFirst found).lookup key).isSome = true ↔
      (found.lookup key).isSome = true ∨ ∃ p ∈ ps, p.key = key := by
  induction ps generalizing found with
  | nil => simp
  | cons p ps ih =>
    have hfirst : ((addFirst found p).lookup key).isSome = true ↔
        (found.lookup key).isSome = true ∨ p.key = key := by
      unfold addFirst
      split
      · next hfound =>
        constructor
        · exact .inl
        · rintro (h | rfl)
          · exact h
          · exact hfound
      · rw [List.lookup_append]
        by_cases hkey : key = p.key
        · simp [hkey]
        · simp [List.lookup_cons, beq_false_of_ne hkey, Ne.symm hkey]
    rw [List.foldl_cons, ih, hfirst]
    simp [or_assoc]

/-- A key is known to the report just when a named placeholder has it. -/
theorem isSome_get?_report {t : Template} {params : Params} {key : String} :
    ((t.report params).get? key).isSome = true ↔ ∃ p ∈ t.namedPlaceholders, p.key = key := by
  rw [Validation.get?, report, isSome_lookup_foldl_addFirst]
  simp

end Template

/-! ### What the entries mean -/

theorem Value.exists_mem_records_iff {value : Value} {field : String} :
    (∃ r ∈ value.records, r.get? field = none) ↔ value.Lacks field := by
  cases value with
  | scalar s | condition c => simp [Value.records, Value.Lacks]
  | record fields => simp [Value.records, Value.Lacks]
  | sequence items =>
    have hrecord : ∀ (item : Value) (r : Record), item.record? = some r ↔ item = .record r := by
      intro item r
      cases item <;> simp [Value.record?]
    simp [Value.records, Value.Lacks, List.mem_filterMap, hrecord]

namespace Validation

theorem dot_mem_missingField (key field : String) : '.' ∈ (missingField key field).toList := by
  simp [missingField, String.toList_append]

theorem missingField_injective {key key' field field' : String} (hkey : '.' ∉ key.toList)
    (hkey' : '.' ∉ key'.toList) (heq : missingField key field = missingField key' field') :
    key = key' ∧ field = field' := by
  -- The key is what stands before the first full stop.
  have hsplit : ∀ {k : String} (f : String), '.' ∉ k.toList →
      (missingField k f).toList.takeWhile (· != '.') = k.toList ∧
        (missingField k f).toList.dropWhile (· != '.') = '.' :: f.toList := by
    intro k f hk
    have htext : (missingField k f).toList = k.toList ++ '.' :: f.toList := by
      simp [missingField, String.toList_append]
    rw [htext]
    refine Placeholder.takeWhile_append_of_stops (fun c hc => ?_) (by simp)
    exact bne_iff_ne.mpr fun hdot => hk (hdot ▸ hc)
  obtain ⟨htake, hdrop⟩ := hsplit field hkey
  obtain ⟨htake', hdrop'⟩ := hsplit field' hkey'
  rw [heq] at htake hdrop
  refine ⟨String.toList_inj.mp (htake.symm.trans htake'), String.toList_inj.mp ?_⟩
  exact (List.cons.inj (hdrop.symm.trans hdrop')).2

theorem mem_openEntries_iff {params : Params} {p : Placeholder} {entry : String} :
    entry ∈ openEntries params p ↔
      (p.modifier ≠ .optional ∧ params.get? p.key = none ∧ entry = p.key) ∨
        ∃ field, entry = missingField p.key field ∧ p.modifier.isObject = true ∧
          (∃ fields, p.fields? = some fields ∧ field ∈ fields) ∧
          ∃ value, params.get? p.key = some value ∧ value.Lacks field := by
  unfold openEntries
  cases hvalue : params.get? p.key with
  | none => by_cases hoptional : p.modifier = .optional <;> simp [hoptional]
  | some value =>
    simp only [← Value.exists_mem_records_iff]
    cases hobject : p.modifier.isObject with
    | false => simp
    | true =>
      cases hfields : p.fields? with
      | none => simp
      | some fields =>
        simp only [List.mem_flatMap, List.mem_map, List.mem_filter, Option.isNone_iff_eq_none]
        constructor
        · rintro ⟨r, hr, field, ⟨hfield, hlacks⟩, rfl⟩
          exact .inr ⟨field, rfl, trivial, ⟨fields, rfl, hfield⟩, value, rfl, r, hr, hlacks⟩
        · rintro (⟨-, hnone, -⟩ | ⟨field, rfl, -, ⟨_, hfields', hfield⟩, _, hvalue', r, hr, hlacks⟩)
          · cases hnone
          · cases hfields'
            cases hvalue'
            exact ⟨r, hr, field, ⟨hfield, hlacks⟩, rfl⟩

end Validation

namespace Template

variable {t : Template} {params : Params}

theorem mem_positionalEntries_iff {entry : String} :
    entry ∈ t.positionalEntries params ↔ entry = "?" ∧ 0 < t.positionalCount ∧
      ¬∃ items, params.positional = some (.sequence items) ∧ items.length = t.positionalCount := by
  have hmatch : t.positionalMatch params = true ↔
      ∃ items, params.positional = some (.sequence items) ∧ items.length = t.positionalCount := by
    unfold positionalMatch
    split
    · next items hitems => simp [hitems]
    · next hno =>
      simp only [Bool.false_eq_true, false_iff]
      rintro ⟨items, hitems, -⟩
      exact hno items hitems
  rw [← hmatch, positionalEntries]
  by_cases hcount : t.positionalCount = 0
  · simp [hcount]
  · have hpos := Nat.pos_of_ne_zero hcount
    cases t.positionalMatch params <;> simp [hcount, hpos]

theorem mem_missing_report_iff {entry : String} :
    entry ∈ (t.report params).missing ↔
      entry ∈ t.positionalEntries params ∨
        ∃ p ∈ t.namedPlaceholders, entry ∈ Validation.openEntries params p := by
  simp [report, List.mem_eraseDups]

theorem openEntries_eq_nil (hvalid : (t.report params).missing = [])
    {p : Placeholder} (hp : p ∈ t.namedPlaceholders) : Validation.openEntries params p = [] := by
  apply List.eq_nil_iff_forall_not_mem.mpr
  intro entry hentry
  have hmissing : entry ∈ (t.report params).missing :=
    mem_missing_report_iff.mpr (.inr ⟨p, hp, hentry⟩)
  rw [hvalid] at hmissing
  cases hmissing

theorem mem_unresolvedOptional_report_iff {key : String} :
    key ∈ (t.report params).unresolvedOptional ↔
      ∃ p ∈ t.namedPlaceholders, p.key = key ∧ p.modifier = .optional ∧ params.get? key = none := by
  simp only [report, List.mem_eraseDups, List.mem_flatMap, Validation.erasedEntries]
  constructor
  · rintro ⟨p, hp, hkey⟩
    split at hkey
    · next herased =>
      obtain rfl := List.mem_singleton.mp hkey
      exact ⟨p, hp, rfl, herased.1, Option.isNone_iff_eq_none.mp herased.2⟩
    · cases hkey
  · rintro ⟨p, hp, rfl, hoptional, hnone⟩
    exact ⟨p, hp, by simp [hoptional, hnone]⟩

end Template

/-- What the report says about the keys that are open. -/
structure OpenKeys (t : Template) (params : Params) (v : Validation) : Prop where
  nodup : v.missing.Nodup
  positional : "?" ∈ v.missing ↔ 0 < t.positionalCount ∧
    ¬∃ items, params.positional = some (.sequence items) ∧ items.length = t.positionalCount
  keys : ∀ p ∈ t.namedPlaceholders,
    (p.key ∈ v.missing ↔ p.modifier ≠ .optional ∧ params.get? p.key = none)
  fields : ∀ p ∈ t.namedPlaceholders, ∀ field,
    (Validation.missingField p.key field ∈ v.missing ↔
      ∃ q ∈ t.namedPlaceholders, q.key = p.key ∧ q.modifier.isObject = true ∧
        (∃ fields, q.fields? = some fields ∧ field ∈ fields) ∧
        ∃ value, params.get? p.key = some value ∧ value.Lacks field)
  only : ∀ entry ∈ v.missing, entry = "?" ∨ ∃ p ∈ t.namedPlaceholders,
    entry = p.key ∨ ∃ field, entry = Validation.missingField p.key field
  /-- An entry stands where it is first discovered. -/
  order : v.missing = (t.positionalEntries params ++
    t.namedPlaceholders.flatMap (Validation.openEntries params)).eraseDups
  erasedNodup : v.unresolvedOptional.Nodup
  erased (key : String) : key ∈ v.unresolvedOptional ↔
    ∃ p ∈ t.namedPlaceholders, p.key = key ∧ p.modifier = .optional ∧ params.get? key = none
  erasedOrder : v.unresolvedOptional =
    (t.namedPlaceholders.flatMap (Validation.erasedEntries params)).eraseDups

namespace Template

open Validation (missingField dot_mem_missingField mem_openEntries_iff)

/-- No entry of one kind is taken for one of another. -/
theorem openKeys_report (text : String) (params : Params) :
    OpenKeys (ofText text) params ((ofText text).report params) where
  nodup := Validation.nodup_eraseDups _
  positional := by
    rw [mem_missing_report_iff, mem_positionalEntries_iff]
    constructor
    · rintro (⟨-, h⟩ | ⟨p, hp, hentry⟩)
      · exact h
      · exfalso
        have hname := isName_of_mem_named hp
        obtain ⟨-, -, hkey⟩ | ⟨field, hfield, -⟩ := mem_openEntries_iff.mp hentry
        · exact hname.key_ne hkey.symm
        · have hdot := dot_mem_missingField p.key field
          rw [← hfield] at hdot
          exact absurd hdot (by decide)
    · exact fun h => .inl ⟨rfl, h⟩
  keys p hp := by
    have hname := isName_of_mem_named hp
    rw [mem_missing_report_iff, mem_positionalEntries_iff]
    constructor
    · rintro (⟨hkey, -⟩ | ⟨q, hq, hentry⟩)
      · exact absurd hkey hname.key_ne
      · obtain ⟨hoptional, hnone, hkey⟩ | ⟨field, hfield, -⟩ := mem_openEntries_iff.mp hentry
        · obtain ⟨hmodifier, -⟩ := hname.eq_of_key_eq (isName_of_mem_named hq) hkey
          rw [hmodifier, hkey]
          exact ⟨hoptional, hnone⟩
        · exfalso
          have hdot := dot_mem_missingField q.key field
          rw [← hfield] at hdot
          exact hname.notMem_key rfl rfl hdot
    · rintro ⟨hoptional, hnone⟩
      exact .inr ⟨p, hp, mem_openEntries_iff.mpr (.inl ⟨hoptional, hnone, rfl⟩)⟩
  fields p hp field := by
    have hname := isName_of_mem_named hp
    have hdot := dot_mem_missingField p.key field
    rw [mem_missing_report_iff, mem_positionalEntries_iff]
    constructor
    · rintro (⟨hentry, -⟩ | ⟨q, hq, hentry⟩)
      · rw [hentry] at hdot
        exact absurd hdot (by decide)
      · have hname' := isName_of_mem_named hq
        obtain ⟨-, -, hkey⟩ | ⟨field', hfield, hobject, hfields, value, hvalue, hlacks⟩ :=
          mem_openEntries_iff.mp hentry
        · rw [hkey] at hdot
          exact absurd hdot (hname'.notMem_key rfl rfl)
        · obtain ⟨hkey, rfl⟩ := Validation.missingField_injective (hname.notMem_key rfl rfl)
            (hname'.notMem_key rfl rfl) hfield
          exact ⟨q, hq, hkey.symm, hobject, hfields, value, hkey ▸ hvalue, hlacks⟩
    · rintro ⟨q, hq, hkey, hobject, hfields, value, hvalue, hlacks⟩
      rw [← hkey] at hvalue ⊢
      exact .inr ⟨q, hq, mem_openEntries_iff.mpr
        (.inr ⟨field, rfl, hobject, hfields, value, hvalue, hlacks⟩)⟩
  only entry hentry := by
    rw [mem_missing_report_iff, mem_positionalEntries_iff] at hentry
    obtain ⟨hpositional, -⟩ | ⟨p, hp, hentry⟩ := hentry
    · exact .inl hpositional
    · obtain ⟨-, -, hkey⟩ | ⟨field, hfield, -⟩ := mem_openEntries_iff.mp hentry
      · exact .inr ⟨p, hp, .inl hkey⟩
      · exact .inr ⟨p, hp, .inr ⟨field, hfield⟩⟩
  order := rfl
  erasedNodup := Validation.nodup_eraseDups _
  erased _ := mem_unresolvedOptional_report_iff
  erasedOrder := rfl

/-- Validation that ends well reports exactly the keys that are open. -/
theorem openKeys_of_validate {text : String} {params : Params} {v : Validation}
    (h : (ofText text).validate params = .ok v) : OpenKeys (ofText text) params v := by
  obtain ⟨-, rfl⟩ := validate_eq_ok_iff.mp h
  exact openKeys_report text params

theorem openKeys_update_without_field :
    ∃ v, (ofText ":@u\x7ba,b\x7d :x :?").validate
        (.ofList [("@u", .record (.ofList [("b", .scalar .null)]))]) = .ok v ∧
      v.missing = ["?", "@u.a", "x"] ∧
      OpenKeys (ofText ":@u\x7ba,b\x7d :x :?")
        (.ofList [("@u", .record (.ofList [("b", .scalar .null)]))]) v := by
  have hvalidate : (ofText ":@u\x7ba,b\x7d :x :?").validate
      (.ofList [("@u", .record (.ofList [("b", .scalar .null)]))]) =
        .ok ⟨["?", "@u.a", "x"], [], [("@u", ⟨":@u\x7ba,b\x7d", .update, "u", some "a,b"⟩),
          ("x", ⟨":x", .plain, "x", none⟩)]⟩ := by
    decide +kernel
  exact ⟨_, hvalidate, rfl, openKeys_of_validate hvalidate⟩

end Template

end SqlTemplate
