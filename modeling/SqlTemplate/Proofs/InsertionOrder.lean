import Mathlib.Data.Finset.Card
import Mathlib.Data.Finset.Dedup
import SqlTemplate.Value

/-!
Maps filled one entry after another. Every key stands where it was first inserted and holds what was
last inserted under it. One insertion preserves this (`Tracks.insert`), and so it holds of parameters
and of records however they were filled (`insertion_ordered`).
-/

namespace SqlTemplate

variable {α : Type} {own : String → Prop} {inserted : List (String × α)}

/-! ### What was inserted -/

/-- The value came with the last insertion of the key. -/
def LastInserted (inserted : List (String × α)) (key : String) (value : α) : Prop :=
  ∃ before after, inserted = before ++ (key, value) :: after ∧ key ∉ after.map Prod.fst

theorem lastInserted_concat_iff {key other : String} {last value : α} :
    LastInserted (inserted ++ [(key, last)]) other value ↔
      if other = key then value = last else LastInserted inserted other value := by
  constructor
  · rintro ⟨before, after, heq, hafter⟩
    obtain rfl | ⟨after, final, rfl⟩ := List.eq_nil_or_concat after
    · obtain ⟨-, hlast⟩ := List.append_inj' heq rfl
      cases hlast
      exact (if_pos rfl).mpr rfl
    · rw [List.concat_eq_append] at heq hafter
      rw [← List.cons_append, ← List.append_assoc] at heq
      obtain ⟨rfl, hlast⟩ := List.append_inj' heq rfl
      cases hlast
      have hne : other ≠ key := by
        rintro rfl
        exact hafter (by simp)
      rw [if_neg hne]
      exact ⟨before, after, rfl, fun hmem => hafter (by simp [hmem])⟩
  · intro h
    split at h
    · next heq =>
      subst heq h
      exact ⟨inserted, [], rfl, by simp⟩
    · next hne =>
      obtain ⟨before, after, rfl, hafter⟩ := h
      exact ⟨before, after ++ [(key, last)], by simp, by simpa [hne] using hafter⟩

theorem exists_lastInserted_iff {key : String} :
    (∃ value, LastInserted inserted key value) ↔ key ∈ inserted.map Prod.fst := by
  induction inserted using List.reverseRecOn with
  | nil => simp [LastInserted]
  | append_singleton inserted entry ih =>
    obtain ⟨name, last⟩ := entry
    simp only [lastInserted_concat_iff, List.map_append, List.mem_append, ← ih]
    by_cases hname : key = name <;> simp [hname]

/-! ### One insertion after another -/

/-- All that can be asked of a map. -/
structure MapView (α : Type) where
  keys : List String
  get? : String → Option α
  contains : String → Bool
  size : Nat
  isEmpty : Bool

/-- Of the inserted keys, those that are to have a place of their own stand in the order in which they
came first. Every key holds its last value. -/
structure Tracks (own : String → Prop) (inserted : List (String × α)) (view : MapView α) : Prop where
  mem_keys_iff : ∀ key, key ∈ view.keys ↔ own key ∧ key ∈ inserted.map Prod.fst
  first : view.keys.Pairwise fun key key' =>
    (inserted.map Prod.fst).idxOf key < (inserted.map Prod.fst).idxOf key'
  last : ∀ key value, view.get? key = some value ↔ LastInserted inserted key value

namespace Tracks

variable {view : MapView α}

theorem nil (hkeys : view.keys = []) (hget : ∀ key, view.get? key = none) :
    Tracks own [] view where
  mem_keys_iff := by simp [hkeys]
  first := by simp [hkeys]
  last := by simp [hget, LastInserted]

/-- What every step keeps track of is tracked by the whole run. -/
theorem foldl {σ τ : Type} (view : σ → MapView α) {apply : σ → τ → σ} {entry : τ → String × α}
    (hstep : ∀ s inserted step, Tracks own inserted (view s) →
      Tracks own (inserted ++ [entry step]) (view (apply s step)))
    {start : σ} (hstart : Tracks own [] (view start)) (steps : List τ) :
    Tracks own (steps.map entry) (view (steps.foldl apply start)) := by
  induction steps using List.reverseRecOn with
  | nil => exact hstart
  | append_singleton steps step ih =>
    rw [List.foldl_append, List.map_append]
    exact hstep _ _ step ih

variable (h : Tracks own inserted view)

include h

theorem nodup_keys : view.keys.Nodup := by
  refine h.first.imp ?_
  rintro key _ hlt rfl
  exact lt_irrefl _ hlt

theorem get?_eq_none_iff (key : String) : view.get? key = none ↔ key ∉ inserted.map Prod.fst := by
  rw [← exists_lastInserted_iff, Option.eq_none_iff_forall_ne_some]
  simp only [ne_eq, h.last, not_exists]

theorem isSome_get?_iff (key : String) :
    (view.get? key).isSome = true ↔ key ∈ inserted.map Prod.fst := by
  rw [Option.isSome_iff_ne_none, ne_eq, h.get?_eq_none_iff, not_not]

theorem length_keys [DecidablePred own] :
    view.keys.length = ((inserted.map Prod.fst).toFinset.filter own).card := by
  have hset : view.keys.toFinset = (inserted.map Prod.fst).toFinset.filter own := by
    ext key
    simp only [List.mem_toFinset, Finset.mem_filter, h.mem_keys_iff, and_comm]
  rw [← hset, List.toFinset_card_of_nodup h.nodup_keys]

/-- An insertion does not move the keys that are there. -/
theorem idxOf_concat {key : String} (hkey : key ∈ view.keys) (entry : String × α) :
    ((inserted ++ [entry]).map Prod.fst).idxOf key = (inserted.map Prod.fst).idxOf key := by
  rw [List.map_append, List.idxOf_append_of_mem ((h.mem_keys_iff key).mp hkey).2]

theorem first_concat (entry : String × α) : view.keys.Pairwise fun key key' =>
    ((inserted ++ [entry]).map Prod.fst).idxOf key <
      ((inserted ++ [entry]).map Prod.fst).idxOf key' := by
  refine h.first.imp_of_mem fun hkey hkey' hlt => ?_
  rw [h.idxOf_concat hkey, h.idxOf_concat hkey']
  exact hlt

/-- A key takes a new place at the end unless it has one, and its value is replaced. -/
theorem insert [DecidablePred own] {view' : MapView α} (key : String) (value : α)
    (hkeys : view'.keys = if own key ∧ key ∉ view.keys then view.keys ++ [key] else view.keys)
    (hget : ∀ other, view'.get? other = if other = key then some value else view.get? other) :
    Tracks own (inserted ++ [(key, value)]) view' where
  mem_keys_iff other := by
    rw [hkeys]
    split
    · next hnew => by_cases heq : other = key <;> simp [heq, hnew.1, h.mem_keys_iff other]
    · next hold =>
      by_cases heq : other = key
      · subst heq
        constructor
        · exact fun hmem => ⟨((h.mem_keys_iff other).mp hmem).1, by simp⟩
        · rintro ⟨hown, -⟩
          by_contra hmem
          exact hold ⟨hown, hmem⟩
      · simp [heq, h.mem_keys_iff other]
  first := by
    rw [hkeys]
    split
    · next hnew =>
      have hnot : key ∉ inserted.map Prod.fst := fun hmem =>
        hnew.2 ((h.mem_keys_iff key).mpr ⟨hnew.1, hmem⟩)
      refine List.pairwise_append.mpr ⟨h.first_concat _, List.pairwise_singleton _ _, ?_⟩
      intro other hother last hlast
      obtain rfl := List.mem_singleton.mp hlast
      have hlt := List.idxOf_lt_length_iff.mpr ((h.mem_keys_iff other).mp hother).2
      rw [h.idxOf_concat hother, List.map_append, List.idxOf_append_of_notMem hnot]
      omega
    · exact h.first_concat _
  last other value' := by
    rw [hget, lastInserted_concat_iff]
    split
    · rw [Option.some_inj, eq_comm]
    · exact h.last other value'

end Tracks

/-- What a map answers after the insertions. -/
structure InsertionOrdered (own : String → Prop) (inserted : List (String × α)) (view : MapView α) :
    Prop extends Tracks own inserted view where
  nodup_keys : view.keys.Nodup
  get?_eq_none_iff : ∀ key, view.get? key = none ↔ key ∉ inserted.map Prod.fst
  contains_iff : ∀ key, view.contains key = true ↔ key ∈ inserted.map Prod.fst
  size_eq : view.size = (inserted.map Prod.fst).toFinset.card
  isEmpty_iff : view.isEmpty = true ↔ view.size = 0

/-! ### Records -/

namespace OrderedMap

def view (m : OrderedMap α) : MapView α := ⟨m.keys, m.get?, m.contains, m.size, m.isEmpty⟩

variable {m : OrderedMap α}

theorem tracks_insert (h : Tracks (fun _ => True) inserted m.view) (entry : String × α) :
    Tracks (fun _ => True) (inserted ++ [entry]) (m.insert entry.1 entry.2).view := by
  apply h.insert entry.1 entry.2 _ fun other => m.get?_insert entry.1 other entry.2
  change (m.insert entry.1 entry.2).keys = _
  rw [keys_insert]
  simp [view]

theorem insertionOrdered (h : Tracks (fun _ => True) inserted m.view) :
    InsertionOrdered (fun _ => True) inserted m.view where
  toTracks := h
  nodup_keys := h.nodup_keys
  get?_eq_none_iff := h.get?_eq_none_iff
  contains_iff := h.isSome_get?_iff
  size_eq := by
    have hlength := h.length_keys
    rw [Finset.filter_true_of_mem fun _ _ => trivial] at hlength
    rw [← hlength]
    simp [view, size, keys]
  isEmpty_iff := by simp [view, isEmpty, size]

end OrderedMap

/-! ### Parameters -/

namespace ParamsOf

/-- The keys of parameters are those of the named values. -/
def view (params : ParamsOf α) : MapView α :=
  ⟨params.named.keys, params.get?, params.contains, params.size, params.isEmpty⟩

variable {params : ParamsOf α}

theorem tracks_insert (h : Tracks (· ≠ positionalKey) inserted params.view) (entry : String × α) :
    Tracks (· ≠ positionalKey) (inserted ++ [entry]) (params.insert entry.1 entry.2).view := by
  apply h.insert entry.1 entry.2 _ fun other => params.get?_insert entry.1 other entry.2
  change (params.insert entry.1 entry.2).named.keys = _
  unfold ParamsOf.insert
  by_cases hkey : entry.1 = positionalKey
  · simp [hkey, view]
  · simp [hkey, view, OrderedMap.keys_insert]

theorem insertionOrdered (h : Tracks (· ≠ positionalKey) inserted params.view) :
    InsertionOrdered (· ≠ positionalKey) inserted params.view where
  toTracks := h
  nodup_keys := h.nodup_keys
  get?_eq_none_iff := h.get?_eq_none_iff
  contains_iff := h.isSome_get?_iff
  size_eq := by
    have hpositional : params.positional.isSome = true ↔
        positionalKey ∈ (inserted.map Prod.fst).toFinset := by
      rw [List.mem_toFinset, ← h.isSome_get?_iff]
      simp [view, get?]
    have hnamed : params.named.size =
        ((inserted.map Prod.fst).toFinset.erase positionalKey).card := by
      rw [← Finset.filter_ne', ← h.length_keys]
      simp [view, OrderedMap.size, OrderedMap.keys]
    change params.size = _
    rw [size, hnamed]
    by_cases hmem : positionalKey ∈ (inserted.map Prod.fst).toFinset
    · rw [if_pos (hpositional.mpr hmem), Finset.card_erase_add_one hmem]
    · rw [if_neg (mt hpositional.mp hmem), Finset.erase_eq_of_notMem hmem, Nat.add_zero]
  isEmpty_iff := by simp [view, isEmpty]

end ParamsOf

/-- A way to fill parameters further. -/
inductive Params.Step where
  | insert (key : String) (value : Value)
  | positional (values : List Value)

def Params.Step.apply (params : Params) : Step → Params
  | insert key value => ParamsOf.insert params key value
  | positional values => params.withPositional values

/-- The key and the value that a step inserts. -/
def Params.Step.entry : Step → String × Value
  | insert key value => (key, value)
  | positional values => (ParamsOf.positionalKey, .sequence values)

theorem Params.Step.apply_eq (params : Params) (step : Step) :
    apply params step = ParamsOf.insert params step.entry.1 step.entry.2 := by
  cases step with
  | insert key value => rfl
  | positional values => simp [apply, entry, ParamsOf.insert, ParamsOf.withPositional]

/-- Parameters and records keep their keys in the order of the first insertions and the values of the
last ones. The key `?` is not among the named keys of parameters, but like any other in a record. -/
theorem insertion_ordered :
    (∀ steps : List Params.Step, InsertionOrdered (· ≠ ParamsOf.positionalKey)
        (steps.map Params.Step.entry) (steps.foldl Params.Step.apply .empty).view) ∧
      ∀ fields : List (String × Value),
        InsertionOrdered (fun _ => True) fields (OrderedMap.ofList fields : Record).view := by
  constructor
  · intro steps
    apply ParamsOf.insertionOrdered
    refine Tracks.foldl ParamsOf.view ?_ (.nil rfl ParamsOf.get?_empty) steps
    intro params inserted step h
    rw [Params.Step.apply_eq]
    exact ParamsOf.tracks_insert h step.entry
  · intro fields
    have hempty : Tracks (fun _ => True) [] (OrderedMap.empty : Record).view :=
      .nil rfl OrderedMap.get?_empty
    have hfields := Tracks.foldl OrderedMap.view (fun _ _ entry h => OrderedMap.tracks_insert h entry)
      hempty fields
    rw [List.map_id'] at hfields
    exact OrderedMap.insertionOrdered hfields

end SqlTemplate
