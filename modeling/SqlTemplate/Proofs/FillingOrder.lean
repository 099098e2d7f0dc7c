import SqlTemplate.Proofs.Correspondence

/-!
Parameters keep the order in which they were filled, and which fault is found first depends on it.
Whether a template resolves, and to which text, depends on the values alone
(`resolve_filling_order`).
-/

namespace SqlTemplate

open Template (ofText)

variable {a : Adapter} {params params' : Params}

namespace ParamsOf

variable {α : Type}

/-- The same value for every key, whatever the order of the keys. -/
structure SameValues (params params' : ParamsOf α) : Prop where
  named : ∀ key, params.named.get? key = params'.named.get? key
  positional : params.positional = params'.positional

namespace SameValues

variable {params params' : ParamsOf α}

theorem refl (params : ParamsOf α) : SameValues params params :=
  ⟨fun _ => rfl, rfl⟩

theorem symm (h : SameValues params params') : SameValues params' params :=
  ⟨fun key => (h.named key).symm, h.positional.symm⟩

theorem trans {params'' : ParamsOf α} (h : SameValues params params')
    (h' : SameValues params' params'') : SameValues params params'' :=
  ⟨fun key => (h.named key).trans (h'.named key), h.positional.trans h'.positional⟩

theorem get?_eq (h : SameValues params params') : params.get? = params'.get? := by
  funext key
  unfold get?
  rw [h.positional, h.named key]

theorem mem_keys_iff (h : SameValues params params') (key : String) :
    key ∈ params.named.keys ↔ key ∈ params'.named.keys := by
  have hkeys : ∀ m : OrderedMap α, key ∈ m.keys ↔ (m.get? key).isSome = true := by
    intro m
    rw [OrderedMap.keys, OrderedMap.get?, List.lookup_isSome_iff, List.mem_map]
    constructor
    · rintro ⟨entry, hentry, rfl⟩
      exact ⟨entry, hentry, BEq.rfl⟩
    · rintro ⟨entry, hentry, hkey⟩
      exact ⟨entry, hentry, (beq_iff_eq.mp hkey).symm⟩
  rw [hkeys, hkeys, h.named key]

/-! ### Fillings -/

theorem insert (h : SameValues params params') (key : String) (value : α) :
    SameValues (params.insert key value) (params'.insert key value) := by
  unfold ParamsOf.insert
  by_cases hkey : key = positionalKey
  · simp only [hkey, if_true]
    exact ⟨h.named, rfl⟩
  · simp only [hkey, if_false]
    refine ⟨fun other => ?_, h.positional⟩
    rw [OrderedMap.get?_insert, OrderedMap.get?_insert, h.named other]

theorem insert_comm (params : ParamsOf α) {key key' : String} (hne : key ≠ key')
    (value value' : α) :
    SameValues ((params.insert key value).insert key' value')
      ((params.insert key' value').insert key value) := by
  unfold ParamsOf.insert
  by_cases hkey : key = positionalKey
  · have hkey' : key' ≠ positionalKey := fun heq => hne (hkey.trans heq.symm)
    simp only [hkey, hkey', if_true, if_false]
    exact ⟨fun _ => rfl, rfl⟩
  · by_cases hkey' : key' = positionalKey
    · simp only [hkey, hkey', if_true, if_false]
      exact ⟨fun _ => rfl, rfl⟩
    · simp only [hkey, hkey', if_false]
      refine ⟨fun other => ?_, rfl⟩
      simp only [OrderedMap.get?_insert]
      by_cases hother : other = key
      · have hother' : other ≠ key' := hother ▸ hne
        rw [if_neg hother', if_pos hother, if_pos hother]
      · rw [if_neg hother, if_neg hother]

theorem foldl_insert (h : SameValues params params') (entries : List (String × α)) :
    SameValues (entries.foldl (fun filled entry => filled.insert entry.1 entry.2) params)
      (entries.foldl (fun filled entry => filled.insert entry.1 entry.2) params') := by
  induction entries generalizing params params' with
  | nil => exact h
  | cons entry entries ih => exact ih (h.insert entry.1 entry.2)

/-- Filling in another order gives the same values, as long as no key is filled twice. -/
theorem ofList_of_perm {entries entries' : List (String × α)} (hperm : entries.Perm entries')
    (hnodup : (entries.map Prod.fst).Nodup) : SameValues (ofList entries) (ofList entries') := by
  suffices hfill : ∀ filled : ParamsOf α,
      SameValues (entries.foldl (fun filled entry => filled.insert entry.1 entry.2) filled)
        (entries'.foldl (fun filled entry => filled.insert entry.1 entry.2) filled) from hfill empty
  induction hperm with
  | nil => exact fun filled => .refl filled
  | cons entry _ ih => exact fun filled => ih (List.nodup_cons.mp hnodup).2 _
  | swap entry entry' entries =>
    intro filled
    have hne : entry'.1 ≠ entry.1 := by
      intro heq
      rw [List.map_cons, List.map_cons, heq] at hnodup
      exact (List.nodup_cons.mp hnodup).1 List.mem_cons_self
    exact (insert_comm filled hne entry'.2 entry.2).foldl_insert entries
  | trans hperm _ ih ih' =>
    have hnodup' := (hperm.map Prod.fst).nodup_iff.mp hnodup
    exact fun filled => (ih hnodup filled).trans (ih' hnodup' filled)

end SameValues

end ParamsOf

/-! ### Resolution -/

namespace ParamsOf.SameValues

theorem validate_eq (h : SameValues params params') (t : Template) :
    t.validate params = t.validate params' := by
  have hexamine : Validation.examine params = Validation.examine params' := by
    funext v p
    simp only [Validation.examine, Validation.note, h.get?_eq]
  have hmatch : t.positionalMatch params = t.positionalMatch params' := by
    unfold Template.positionalMatch
    rw [h.positional]
  rw [Template.validate, Template.validate, hexamine, hmatch]

theorem corresponds (h : SameValues params params') (t : Template) :
    Corresponds t t params params' where
  placeholders := List.forall₂_same.mpr fun p _ => ⟨rfl, rfl, rfl, congrFun h.get?_eq p.key⟩
  positional := h.positional

theorem resolve_eq_ok {text sql : String} (h : SameValues params params')
    (hsql : a.resolve (ofText text) params = .ok sql) :
    a.resolve (ofText text) params' = .ok sql := by
  refine Adapter.resolve_of_corresponds (h.corresponds _) ?_ (fun _ => rfl) hsql
  intro hexpected key hkey
  exact hexpected key ((h.mem_keys_iff key).mpr hkey)

end ParamsOf.SameValues

/-- The order in which parameters were filled shows neither in the outcome of validation nor in the
text of a resolution. -/
theorem Adapter.resolve_filling_order (a : Adapter) (text : String) {params params' : Params}
    (h : params.SameValues params') :
    (∀ sql, a.resolve (ofText text) params = .ok sql ↔
        a.resolve (ofText text) params' = .ok sql) ∧
      (ofText text).validate params = (ofText text).validate params' :=
  ⟨fun _ => ⟨h.resolve_eq_ok, h.symm.resolve_eq_ok⟩, h.validate_eq _⟩

theorem Adapter.resolve_same_length_keys :
    (ParamsOf.ofList [("a", .scalar (.text ":b")), ("?", .sequence []), ("b", .sequence [])] :
        Params).SameValues
      (.ofList [("b", .sequence []), ("a", .scalar (.text ":b")), ("?", .sequence [])]) ∧
      Dialect.sqlite.adapter.resolve (ofText ":a:b:a")
        (.ofList [("b", .sequence []), ("a", .scalar (.text ":b")), ("?", .sequence [])]) =
          .ok "':b'()':b'" := by
  have hperm : [("a", Value.scalar (.text ":b")), ("?", .sequence []), ("b", .sequence [])].Perm
      [("b", .sequence []), ("a", .scalar (.text ":b")), ("?", .sequence [])] :=
    @List.perm_append_comm _ [("a", Value.scalar (.text ":b")), ("?", .sequence [])] _
  have hsame := ParamsOf.SameValues.ofList_of_perm hperm (by decide)
  have hresolve : Dialect.sqlite.adapter.resolve (ofText ":a:b:a")
      (.ofList [("a", .scalar (.text ":b")), ("?", .sequence []), ("b", .sequence [])]) =
        .ok "':b'()':b'" := by decide +kernel
  exact ⟨hsame, ((resolve_filling_order _ _ hsame).1 _).mp hresolve⟩

end SqlTemplate
