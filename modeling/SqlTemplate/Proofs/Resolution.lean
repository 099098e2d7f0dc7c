import SqlTemplate.Proofs.Splicing
import SqlTemplate.Proofs.Validation

/-!
What a template resolves to. Every named placeholder has a text that depends on its own value only.
The table that is filled key by key, the longest keys first, holds no other texts (`Fits`), so the
order of the keys and what is filled already do not show in the result (`resolve_eq_ok_iff`).
-/

namespace SqlTemplate

open Template (ofText)

variable {a : Adapter} {params : Params}

/-! ### The order of the keys -/

section Sorting

variable {α : Type} {le : String × α → String × α → Bool}

theorem lookup_insertSorted (hle : ∀ x y, x.1 = y.1 → le x y = true) (x : String × α)
    (xs : List (String × α)) (key : String) :
    (insertSorted le x xs).lookup key = (x :: xs).lookup key := by
  induction xs with
  | nil => rfl
  | cons y ys ih =>
    rw [insertSorted]
    split
    · rfl
    · next hxy =>
      have hne : x.1 ≠ y.1 := fun heq => hxy (hle x y heq)
      rw [List.lookup_cons, ih, List.lookup_cons, List.lookup_cons, List.lookup_cons]
      by_cases hy : key = y.1
      · rw [beq_iff_eq.mpr hy, beq_false_of_ne (hy ▸ hne.symm)]
      · rw [beq_false_of_ne hy]

/-- Sorting moves no entry past another one of the same key. -/
theorem lookup_sortStable (hle : ∀ x y, x.1 = y.1 → le x y = true) (xs : List (String × α))
    (key : String) : (sortStable le xs).lookup key = xs.lookup key := by
  induction xs with
  | nil => rfl
  | cons x xs ih => rw [sortStable, lookup_insertSorted hle, List.lookup_cons, ih, List.lookup_cons]

end Sorting

namespace Template

theorem lookup_longestFirst (fillers : List (String × Filler)) (key : String) :
    (longestFirst fillers).lookup key = fillers.lookup key := by
  refine lookup_sortStable ?_ fillers key
  intro x y heq
  rw [heq]
  exact decide_eq_true le_rfl

theorem mem_longestFirst {fillers : List (String × Filler)} {entry : String × Filler} :
    entry ∈ longestFirst fillers ↔ entry ∈ fillers :=
  (sortStable_perm _ fillers).mem_iff

end Template

theorem Adapter.lookup_fillers (a : Adapter) (entries : List (String × Value)) (key : String) :
    (a.fillers entries).lookup key = (entries.lookup key).map a.filler := by
  induction entries with
  | nil => rfl
  | cons entry entries ih =>
    rw [Adapter.fillers, List.lookup_cons, List.lookup_cons, ih]
    cases key == entry.1 <;> rfl

theorem Adapter.map_fst_fillers (a : Adapter) (entries : List (String × Value)) :
    (a.fillers entries).map Prod.fst = entries.map Prod.fst := by
  rw [Adapter.fillers_eq_map, List.map_map]
  rfl

/-! ### The table -/

/-- The table holds the texts of placeholders, among them those that are filled. -/
structure Fits (a : Adapter) (t : Template) (params : Params) (filled : Placeholder → Prop)
    (table : Replacements) : Prop where
  correct : ∀ p ∈ t.namedPlaceholders, ∀ s, table.lookup p.raw = some s →
    a.text (params.get? p.key) p = .ok s
  complete : ∀ p ∈ t.namedPlaceholders, filled p → (table.lookup p.raw).isSome = true

/-- Finds fault with the value of a placeholder. -/
def Adapter.checkText (a : Adapter) (params : Params) (p : Placeholder) : Except Error Unit :=
  (a.text (params.get? p.key) p).map fun _ => ()

/-- Finds fault with a key that no placeholder has, or else with its value. -/
def Adapter.checkKey (a : Adapter) (t : Template) (params : Params) (key : String) :
    Except Error Unit :=
  if t.namedPlaceholders.any (·.key == key) then
    (t.namedPlaceholders.filter (·.key == key)).forM (a.checkText params)
  else .error (.unexpected key)

namespace Fits

variable {t : Template} {text : String} {filled : Placeholder → Prop} {table : Replacements}

theorem mono {filled' : Placeholder → Prop} (h : Fits a t params filled table)
    (hle : ∀ p ∈ t.namedPlaceholders, filled' p → filled p) : Fits a t params filled' table :=
  ⟨h.correct, fun p hp hfilled => h.complete p hp (hle p hp hfilled)⟩

theorem cons {p : Placeholder} {s : String} (h : Fits a (ofText text) params filled table)
    (hp : p ∈ (ofText text).namedPlaceholders) (hs : a.text (params.get? p.key) p = .ok s) :
    Fits a (ofText text) params (fun q => filled q ∨ q = p) ((p.raw, s) :: table) := by
  have hsame : ∀ q ∈ (ofText text).namedPlaceholders, q.raw = p.raw → q = p :=
    fun q hq hraw => Template.eq_of_raw_eq (Template.mem_placeholders_of_mem_named hq).1
      (Template.mem_placeholders_of_mem_named hp).1 hraw
  constructor
  · intro q hq s' hs'
    rw [List.lookup_cons] at hs'
    by_cases hraw : q.raw = p.raw
    · rw [beq_iff_eq.mpr hraw] at hs'
      cases hs'
      rw [hsame q hq hraw, hs]
    · rw [beq_false_of_ne hraw] at hs'
      exact h.correct q hq s' hs'
  · intro q hq hfilled
    rw [List.lookup_cons]
    by_cases hraw : q.raw = p.raw
    · rw [beq_iff_eq.mpr hraw]
      rfl
    · rw [beq_false_of_ne hraw]
      obtain hfilled | rfl := hfilled
      · exact h.complete q hq hfilled
      · exact absurd rfl hraw

theorem fillPlaceholder {filler : Filler} {p : Placeholder}
    (h : Fits a (ofText text) params filled table)
    (hp : p ∈ (ofText text).namedPlaceholders)
    (hfiller : ¬filled p → filler p = a.text (params.get? p.key) p) :
    CheckedBy (a.checkText params p)
      (Fits a (ofText text) params fun q => filled q ∨ q = p)
      (Template.fillPlaceholder filler table p) := by
  unfold Template.fillPlaceholder
  cases hlookup : table.lookup p.raw with
  | some s =>
    -- The text in the table was found without fault, and would be again.
    have hcheck : a.checkText params p = .ok () := by
      rw [Adapter.checkText, h.correct p hp s hlookup]
      rfl
    rw [hcheck]
    refine ⟨table, rfl, h.correct, ?_⟩
    rintro q hq (hfilled | rfl)
    · exact h.complete q hq hfilled
    · rw [hlookup]
      rfl
  | none =>
    have hopen : ¬filled p := by
      intro hfilled
      have hsome := h.complete p hp hfilled
      rw [hlookup] at hsome
      cases hsome
    rw [hfiller hopen]
    exact (CheckedBy.self _).bind fun s hs => ⟨(p.raw, s) :: table, rfl, h.cons hp hs⟩

theorem fillKey {entry : String × Filler} (h : Fits a (ofText text) params filled table)
    (hfiller : ∀ p ∈ (ofText text).namedPlaceholders, p.key = entry.1 → ¬filled p →
      entry.2 p = a.text (params.get? p.key) p) :
    CheckedBy (a.checkKey (ofText text) params entry.1)
      (Fits a (ofText text) params fun p => filled p ∨ p.key = entry.1)
      ((ofText text).fillKey ((ofText text).report params) table entry) := by
  have hknown : (((ofText text).report params).get? entry.1).isSome =
      (ofText text).namedPlaceholders.any (·.key == entry.1) := by
    rw [Bool.eq_iff_iff, Template.isSome_get?_report]
    simp
  unfold Template.fillKey Adapter.checkKey
  rw [hknown]
  split
  · have hinit : Fits a (ofText text) params (fun q => filled q ∨ q ∈ []) table :=
      h.mono fun q _ hfilled => by simpa using hfilled
    have hstep : ∀ done p rest table',
        (ofText text).namedPlaceholders.filter (·.key == entry.1) = done ++ p :: rest →
        Fits a (ofText text) params (fun q => filled q ∨ q ∈ done) table' →
        CheckedBy (a.checkText params p)
          (Fits a (ofText text) params fun q => filled q ∨ q ∈ done ++ [p])
          (Template.fillPlaceholder entry.2 table' p) := by
      intro done p rest table' hsplit hfits
      have hmem : p ∈ (ofText text).namedPlaceholders.filter (·.key == entry.1) := by
        rw [hsplit]
        simp
      obtain ⟨hp, hkey⟩ := List.mem_filter.mp hmem
      have hfiller' : ¬(filled p ∨ p ∈ done) → entry.2 p = a.text (params.get? p.key) p :=
        fun hopen => hfiller p hp (beq_iff_eq.mp hkey) fun hfilled => hopen (.inl hfilled)
      refine (hfits.fillPlaceholder hp hfiller').imp fun _ hfits' => hfits'.mono ?_
      intro q _ hfilled
      simpa [or_assoc] using hfilled
    refine (foldlM_checkedBy hinit hstep).imp fun _ hfits => hfits.mono ?_
    intro q hq hfilled
    simpa [hq] using hfilled
  · rfl

end Fits

namespace Template

theorem get?_key_of_mem_named {text : String} {p : Placeholder}
    (hp : p ∈ (ofText text).namedPlaceholders) (params : Params) :
    params.get? p.key = params.named.entries.lookup p.key :=
  if_neg (isName_of_mem_named hp).key_ne

theorem mem_keys_iff {text : String} {p : Placeholder}
    (hp : p ∈ (ofText text).namedPlaceholders) :
    p.key ∈ params.named.keys ↔ (params.get? p.key).isSome = true := by
  rw [get?_key_of_mem_named hp, OrderedMap.keys, List.lookup_isSome_iff, List.mem_map]
  constructor
  · rintro ⟨e, he, hkey⟩
    exact ⟨e, he, beq_iff_eq.mpr hkey.symm⟩
  · rintro ⟨e, he, hkey⟩
    exact ⟨e, he, (beq_iff_eq.mp hkey).symm⟩

/-- Only the first of several entries of one key is used. -/
theorem filler_eq_text {text : String} {p : Placeholder} {done rest : List (String × Filler)}
    {entry : String × Filler} (hp : p ∈ (ofText text).namedPlaceholders)
    (hsplit : longestFirst (a.fillers params.named.entries) = done ++ entry :: rest)
    (hkey : p.key = entry.1) (hopen : ¬∃ e ∈ done, e.1 = p.key) :
    entry.2 p = a.text (params.get? p.key) p := by
  have hdone : done.lookup p.key = none := by
    rw [List.lookup_eq_none_iff]
    intro e he
    exact bne_iff_ne.mpr fun heq => hopen ⟨e, he, heq.symm⟩
  have hlookup : (a.fillers params.named.entries).lookup p.key = some entry.2 := by
    rw [← lookup_longestFirst, hsplit, List.lookup_append, hdone, List.lookup_cons, hkey,
      BEq.rfl]
    rfl
  rw [Adapter.lookup_fillers, ← get?_key_of_mem_named hp] at hlookup
  obtain ⟨value, hvalue, hfiller⟩ := Option.map_eq_some_iff.mp hlookup
  rw [hvalue, ← hfiller]
  rfl

/-- The keys of all entries get filled, whatever order they are taken in. -/
theorem fillKeys_checkedBy (a : Adapter) (text : String) (params : Params) :
    CheckedBy
      ((longestFirst (a.fillers params.named.entries)).forM fun entry =>
        a.checkKey (ofText text) params entry.1)
      (Fits a (ofText text) params fun p => p.key ∈ params.named.keys)
      ((longestFirst (a.fillers params.named.entries)).foldlM
        ((ofText text).fillKey ((ofText text).report params)) []) := by
  -- So far the keys of the entries that are done are filled.
  let inv : List (String × Filler) → Replacements → Prop := fun done =>
    Fits a (ofText text) params fun p => ∃ e ∈ done, e.1 = p.key
  have hinit : inv [] [] := by
    constructor
    · intro p _ s hs
      cases hs
    · rintro p _ ⟨e, he, -⟩
      cases he
  have hstep : ∀ done entry rest table,
      longestFirst (a.fillers params.named.entries) = done ++ entry :: rest → inv done table →
      CheckedBy (a.checkKey (ofText text) params entry.1) (inv (done ++ [entry]))
        ((ofText text).fillKey ((ofText text).report params) table entry) := by
    intro done entry rest table hsplit hfits
    have hfill := hfits.fillKey fun p hp hkey hopen => filler_eq_text hp hsplit hkey hopen
    refine hfill.imp fun _ hfits' => hfits'.mono ?_
    rintro p _ ⟨e, he, hkey⟩
    obtain he | he := List.mem_append.mp he
    · exact .inl ⟨e, he, hkey⟩
    · rw [List.mem_singleton.mp he] at hkey
      exact .inr hkey.symm
  refine (foldlM_checkedBy hinit hstep).imp fun _ hfits => hfits.mono ?_
  intro p _ hkey
  rw [OrderedMap.keys, ← Adapter.map_fst_fillers a] at hkey
  obtain ⟨e, he, hkey⟩ := List.mem_map.mp hkey
  exact ⟨e, mem_longestFirst.mpr he, hkey⟩

theorem lookup_map_raw {p : Placeholder} {ps : List Placeholder} (hp : p ∈ ps) :
    (ps.map fun q => (q.raw, "")).lookup p.raw = some "" := by
  induction ps with
  | nil => cases hp
  | cons q ps ih =>
    rw [List.map_cons, List.lookup_cons]
    by_cases hraw : p.raw = q.raw
    · rw [beq_iff_eq.mpr hraw]
    · rw [beq_false_of_ne hraw]
      obtain rfl | hp := List.mem_cons.mp hp
      · exact absurd rfl hraw
      · exact ih hp

theorem modifier_eq_optional {t : Template} {p : Placeholder}
    (hvalid : (t.report params).missing = []) (hp : p ∈ t.namedPlaceholders)
    (hnone : params.get? p.key = none) : p.modifier = .optional := by
  by_contra hoptional
  have hmissing : p.key ∈ (t.report params).missing :=
    mem_missing_report_iff.mpr
      (.inr ⟨p, hp, Validation.mem_openEntries_iff.mpr (.inl ⟨hoptional, hnone, rfl⟩)⟩)
  rw [hvalid] at hmissing
  cases hmissing

theorem mem_filter_erased {t : Template} {v : Validation} {p : Placeholder} :
    (p ∈ t.namedPlaceholders.filter fun q => v.unresolvedOptional.contains q.key) ↔
      p ∈ t.namedPlaceholders ∧ p.key ∈ v.unresolvedOptional := by simp

theorem lookup_erased_of_none {t : Template} {p : Placeholder} (hp : p ∈ t.namedPlaceholders)
    (hoptional : p.modifier = .optional) (hnone : params.get? p.key = none) :
    (t.erased (t.report params)).lookup p.raw = some "" := by
  have hkey := mem_unresolvedOptional_report_iff.mpr ⟨p, hp, rfl, hoptional, hnone⟩
  exact lookup_map_raw (mem_filter_erased.mpr ⟨hp, hkey⟩)

theorem lookup_erased_of_some {text : String} {p : Placeholder} {value : Value}
    (hp : p ∈ (ofText text).namedPlaceholders) (hvalue : params.get? p.key = some value) :
    ((ofText text).erased ((ofText text).report params)).lookup p.raw = none := by
  rw [List.lookup_eq_none_iff]
  intro e he
  obtain ⟨q, hq, rfl⟩ := List.mem_map.mp he
  obtain ⟨hq, hkey⟩ := mem_filter_erased.mp hq
  refine bne_iff_ne.mpr fun hraw => ?_
  obtain rfl := eq_of_raw_eq (mem_placeholders_of_mem_named hp).1
    (mem_placeholders_of_mem_named hq).1 hraw
  obtain ⟨_, -, -, -, hnone⟩ := mem_unresolvedOptional_report_iff.mp hkey
  rw [hvalue] at hnone
  cases hnone

/-- With nothing missing, what is erased and what is filled leave no named placeholder open. -/
theorem exists_lookup_of_fits {text : String} {table : Replacements} {p : Placeholder}
    (h : Fits a (ofText text) params (fun q => q.key ∈ params.named.keys) table)
    (hvalid : ((ofText text).report params).missing = [])
    (hp : p ∈ (ofText text).namedPlaceholders) :
    ∃ s, ((ofText text).erased ((ofText text).report params) ++ table).lookup p.raw = some s ∧
      a.text (params.get? p.key) p = .ok s := by
  rw [List.lookup_append]
  cases hvalue : params.get? p.key with
  | none =>
    have hoptional := modifier_eq_optional hvalid hp hvalue
    refine ⟨"", ?_, if_pos hoptional⟩
    rw [lookup_erased_of_none hp hoptional hvalue]
    rfl
  | some value =>
    have hkey : p.key ∈ params.named.keys := by
      rw [mem_keys_iff hp, hvalue]
      rfl
    obtain ⟨s, hs⟩ := Option.isSome_iff_exists.mp (h.complete p hp hkey)
    refine ⟨s, ?_, ?_⟩
    · rw [lookup_erased_of_some hp hvalue, hs]
      rfl
    · rw [← hvalue]
      exact h.correct p hp s hs

end Template

/-! ### The whole resolution -/

/-- The values for the `:?` placeholders, if there is a sequence of them. -/
def ParamsOf.items (params : Params) : List Value :=
  (params.positional.bind Value.items?).getD []

theorem Fills.append {items : List Value} {ps : List Placeholder} {texts : List String}
    (h : Fills a params items ps texts) (more : List Value) :
    Fills a params (items ++ more) ps texts := by
  induction h with
  | nil items => exact .nil (items ++ more)
  | positional hp hs _ ih => exact .positional hp hs ih
  | named hp hs _ ih => exact .named hp hs ih

namespace Template

variable {t : Template}

theorem exists_items_of_missing_eq_nil (hvalid : (t.report params).missing = [])
    (hcount : 0 < t.positionalCount) :
    ∃ items, params.positional = some (.sequence items) ∧ items.length = t.positionalCount := by
  by_contra hno
  have hmissing : "?" ∈ (t.report params).missing :=
    mem_missing_report_iff.mpr (.inl (mem_positionalEntries_iff.mpr ⟨rfl, hcount, hno⟩))
  rw [hvalid] at hmissing
  cases hmissing

theorem positionalTexts_eq_ok {positional : List String}
    (hvalid : (t.report params).missing = []) (h : t.positionalTexts a params = .ok positional) :
    ∃ items more, params.items = items ++ more ∧ t.positionalCount ≤ items.length ∧
      List.Forall₂ (fun item s => a.staticText ParamsOf.positionalKey item = .ok s) items
        positional := by
  unfold positionalTexts at h
  by_cases hcount : t.positionalCount = 0
  · rw [if_pos hcount] at h
    cases h
    exact ⟨[], params.items, rfl, by omega, .nil⟩
  · rw [if_neg hcount] at h
    obtain ⟨items, hitems, hlength⟩ := exists_items_of_missing_eq_nil hvalid (by omega)
    rw [hitems] at h
    refine ⟨items, [], ?_, by omega, mapM_eq_ok_iff.mp h⟩
    rw [ParamsOf.items, hitems, List.append_nil]
    rfl

end Template

/-- The faults of a resolution in the order in which they are found. -/
def Adapter.check (a : Adapter) (t : Template) (params : Params) : Except Error Unit := do
  t.namedPlaceholders.forM (Validation.checkShape params)
  if (t.report params).isValid then
    (t.positionalTexts a params).map fun _ => ()
    (Template.longestFirst (a.fillers params.named.entries)).forM fun entry =>
      a.checkKey t params entry.1
  else .error (.missing (t.report params).missing)

/-- The text that a template resolves to. -/
def Adapter.Renders (a : Adapter) (text : String) (params : Params) (sql : String) : Prop :=
  ∃ texts, Fills a params params.items (ofText text).placeholders texts ∧
    sql = interleave text 0 ((ofText text).tokens.zip texts)

theorem Adapter.resolve_checkedBy (a : Adapter) (text : String) (params : Params) :
    CheckedBy (a.check (ofText text) params) (a.Renders text params)
      (a.resolve (ofText text) params) := by
  rw [Adapter.resolve_eq_assemble, ← Adapter.fillers_eq_map]
  refine ((ofText text).validate_checkedBy params).seq ?_
  rintro _ rfl
  split
  · next hvalid =>
    have hmissing := Validation.isValid_iff.mp hvalid
    refine (CheckedBy.self _).seq fun positional hpositional => ?_
    refine (Template.fillKeys_checkedBy a text params).bind fun table hfits => ?_
    obtain ⟨items, more, hitems, hcount, htexts⟩ :=
      Template.positionalTexts_eq_ok hmissing hpositional
    have htable : ∀ p ∈ (ofText text).placeholders, p.isPositional = false →
        ∃ s, ((ofText text).erased ((ofText text).report params) ++
          table).lookup p.raw = some s ∧ a.text (params.get? p.key) p = .ok s := by
      intro p hp hnamed
      have hmem : p ∈ (ofText text).namedPlaceholders :=
        List.mem_filter.mpr ⟨hp, by rw [hnamed]; rfl⟩
      exact Template.exists_lookup_of_fits hfits hmissing hmem
    obtain ⟨texts, hsplice, hfills⟩ := splice_eq_ok htable htexts hcount
    refine ⟨_, by rw [hsplice]; rfl, texts, hitems ▸ hfills.append more, ?_⟩
    rw [interleave_tokens text hfills.length_eq]
  · rfl

/-- What a template and its parameters need for resolving to end well. -/
structure Resolvable (a : Adapter) (t : Template) (params : Params) : Prop where
  valid : ∃ v, t.validate params = .ok v ∧ v.missing = []
  expected : ∀ key ∈ params.named.keys, ∃ p ∈ t.namedPlaceholders, p.key = key
  named : ∀ p ∈ t.namedPlaceholders, ∃ s, a.text (params.get? p.key) p = .ok s
  positional : 0 < t.positionalCount → ∀ items, params.positional = some (.sequence items) →
    ∀ item ∈ items, ∃ s, a.staticText ParamsOf.positionalKey item = .ok s

theorem Adapter.checkKey_eq_ok_iff {t : Template} {key : String} :
    a.checkKey t params key = .ok () ↔ (∃ p ∈ t.namedPlaceholders, p.key = key) ∧
      ∀ p ∈ t.namedPlaceholders, p.key = key → ∃ s, a.text (params.get? p.key) p = .ok s := by
  have hknown : t.namedPlaceholders.any (·.key == key) = true ↔
      ∃ p ∈ t.namedPlaceholders, p.key = key := by simp
  rw [← hknown, Adapter.checkKey]
  split
  · next h =>
    rw [forM_eq_ok_iff]
    simp [h, Adapter.checkText, drop_eq_ok_iff]
  · next h => simp [h]

theorem Template.exists_positionalTexts_iff {t : Template}
    (hvalid : (t.report params).missing = []) :
    (∃ texts, t.positionalTexts a params = .ok texts) ↔
      (0 < t.positionalCount → ∀ items, params.positional = some (.sequence items) →
        ∀ item ∈ items, ∃ s, a.staticText ParamsOf.positionalKey item = .ok s) := by
  unfold positionalTexts
  by_cases hcount : t.positionalCount = 0
  · simp [hcount]
  · obtain ⟨items, hitems, -⟩ := exists_items_of_missing_eq_nil hvalid (by omega)
    rw [if_neg hcount, hitems, exists_mapM_eq_ok_iff]
    constructor
    · rintro h - _ heq
      cases heq
      exact h
    · exact fun h => h (by omega) items rfl

theorem Adapter.forM_checkKey_eq_ok_iff {t : Template} :
    ((Template.longestFirst (a.fillers params.named.entries)).forM fun entry =>
        a.checkKey t params entry.1) = .ok () ↔
      ∀ key ∈ params.named.keys, a.checkKey t params key = .ok () := by
  rw [forM_eq_ok_iff, OrderedMap.keys, ← Adapter.map_fst_fillers a, List.forall_mem_map]
  simp only [Template.mem_longestFirst]

theorem Template.exists_text_of_forall_checkKey {text : String} {p : Placeholder}
    (hvalid : ((ofText text).report params).missing = [])
    (hkeys : ∀ key ∈ params.named.keys, a.checkKey (ofText text) params key = .ok ())
    (hp : p ∈ (ofText text).namedPlaceholders) :
    ∃ s, a.text (params.get? p.key) p = .ok s := by
  by_cases hkey : p.key ∈ params.named.keys
  · exact (Adapter.checkKey_eq_ok_iff.mp (hkeys p.key hkey)).2 p hp rfl
  · have hnone : params.get? p.key = none :=
      Option.not_isSome_iff_eq_none.mp fun hsome => hkey ((mem_keys_iff hp).mpr hsome)
    rw [hnone]
    exact ⟨"", if_pos (modifier_eq_optional hvalid hp hnone)⟩

theorem Adapter.check_eq_ok_iff {text : String} :
    a.check (ofText text) params = .ok () ↔ Resolvable a (ofText text) params := by
  rw [Adapter.check, seq_eq_ok_iff, forM_eq_ok_iff]
  constructor
  · rintro ⟨hshapes, h⟩
    split at h
    · next hvalid =>
      have hmissing := Validation.isValid_iff.mp hvalid
      rw [seq_eq_ok_iff, drop_eq_ok_iff, Adapter.forM_checkKey_eq_ok_iff] at h
      obtain ⟨htexts, hkeys⟩ := h
      exact
        { valid := ⟨_, Template.validate_eq_ok_iff.mpr ⟨hshapes, rfl⟩, hmissing⟩
          expected := fun key hkey => (Adapter.checkKey_eq_ok_iff.mp (hkeys key hkey)).1
          named := fun p hp => Template.exists_text_of_forall_checkKey hmissing hkeys hp
          positional := (Template.exists_positionalTexts_iff hmissing).mp htexts }
    · cases h
  · rintro ⟨⟨v, hv, hmissing⟩, hexpected, hnamed, hpositional⟩
    obtain ⟨hshapes, rfl⟩ := Template.validate_eq_ok_iff.mp hv
    refine ⟨hshapes, ?_⟩
    rw [if_pos (Validation.isValid_iff.mpr hmissing), seq_eq_ok_iff, drop_eq_ok_iff,
      Adapter.forM_checkKey_eq_ok_iff]
    refine ⟨(Template.exists_positionalTexts_iff hmissing).mpr hpositional, fun key hkey => ?_⟩
    exact Adapter.checkKey_eq_ok_iff.mpr ⟨hexpected key hkey, fun p hp _ => hnamed p hp⟩

theorem Adapter.Renders.unique {text sql sql' : String} (h : a.Renders text params sql)
    (h' : a.Renders text params sql') : sql = sql' := by
  obtain ⟨texts, hfills, rfl⟩ := h
  obtain ⟨texts', hfills', rfl⟩ := h'
  rw [hfills.unique hfills']

theorem Adapter.renders_iff_weave {text sql : String} :
    a.Renders text params sql ↔
      ∃ texts, Fills a params params.items (ofText text).placeholders texts ∧
        sql = String.ofList (Piece.weave texts (ofText text).pieces) := by
  constructor
  · rintro ⟨texts, hfills, rfl⟩
    exact ⟨texts, hfills, interleave_tokens text hfills.length_eq⟩
  · rintro ⟨texts, hfills, rfl⟩
    exact ⟨texts, hfills, (interleave_tokens text hfills.length_eq).symm⟩

theorem Adapter.resolve_eq_ok_iff_renders {text sql : String} :
    a.resolve (ofText text) params = .ok sql ↔
      Resolvable a (ofText text) params ∧ a.Renders text params sql := by
  have hresolve := a.resolve_checkedBy text params
  constructor
  · intro hsql
    obtain ⟨hcheck, hrenders⟩ := hresolve.check_eq_ok hsql
    exact ⟨Adapter.check_eq_ok_iff.mp hcheck, hrenders⟩
  · rintro ⟨hresolvable, hrenders⟩
    obtain ⟨sql', hsql', hrenders'⟩ := hresolve.exists_ok (Adapter.check_eq_ok_iff.mpr hresolvable)
    rw [hsql', hrenders'.unique hrenders]

/-- A template resolves just when its parameters are complete, expected and fit to be written, and
then to itself with the text of each placeholder in its place. -/
theorem Adapter.resolve_eq_ok_iff (a : Adapter) (text : String) (params : Params) :
    ((∃ sql, a.resolve (ofText text) params = .ok sql) ↔
        Resolvable a (ofText text) params) ∧
      ∀ sql, a.resolve (ofText text) params = .ok sql → a.Renders text params sql := by
  have hresolve := a.resolve_checkedBy text params
  constructor
  · rw [← Adapter.check_eq_ok_iff]
    constructor
    · rintro ⟨sql, hsql⟩
      exact (hresolve.check_eq_ok hsql).1
    · intro hcheck
      obtain ⟨sql, hsql, -⟩ := hresolve.exists_ok hcheck
      exact ⟨sql, hsql⟩
  · intro sql hsql
    exact (hresolve.check_eq_ok hsql).2

theorem Adapter.resolvable_prefixed_keys :
    Resolvable Dialect.postgres.adapter (.ofText ":a :ab :a :?")
      (.withPositional (.ofList [("a", .scalar (.text ":ab")), ("ab", .scalar (.int 2))])
        [.scalar .null]) := by
  have hresolve : Dialect.postgres.adapter.resolve (.ofText ":a :ab :a :?")
      (.withPositional (.ofList [("a", .scalar (.text ":ab")), ("ab", .scalar (.int 2))])
        [.scalar .null]) = .ok "':ab' 2 ':ab' NULL" := by decide +kernel
  exact (Adapter.resolve_eq_ok_iff _ _ _).1.mp ⟨_, hresolve⟩

end SqlTemplate
