/-!
Maps that keep the order of their keys: parameters, records, rows and JSON objects. `get?_insert`
and `keys_insert` say what an insertion does.
-/

namespace SqlTemplate

/-- A map from texts that keeps the order in which its keys were first inserted. -/
structure OrderedMap (α : Type) where
  entries : List (String × α)
deriving Repr

namespace OrderedMap

variable {α : Type}

def empty : OrderedMap α := ⟨[]⟩

instance : Inhabited (OrderedMap α) := ⟨empty⟩

def size (m : OrderedMap α) : Nat := m.entries.length

def isEmpty (m : OrderedMap α) : Bool := m.entries.isEmpty

def keys (m : OrderedMap α) : List String := m.entries.map Prod.fst

def get? (m : OrderedMap α) (key : String) : Option α := m.entries.lookup key

def contains (m : OrderedMap α) (key : String) : Bool := (m.get? key).isSome

/-- Overwrites the first entry of the key, or appends an entry. -/
def insertEntry (key : String) (value : α) : List (String × α) → List (String × α)
  | [] => [(key, value)]
  | entry :: rest =>
    if entry.1 = key then (key, value) :: rest else entry :: insertEntry key value rest

def insert (m : OrderedMap α) (key : String) (value : α) : OrderedMap α :=
  ⟨insertEntry key value m.entries⟩

/-- The map filled with the entries one after the other. -/
def ofList (entries : List (String × α)) : OrderedMap α :=
  entries.foldl (fun m entry => m.insert entry.1 entry.2) empty

@[simp]
theorem get?_empty (key : String) : (empty : OrderedMap α).get? key = none := rfl

@[simp]
theorem keys_empty : (empty : OrderedMap α).keys = [] := rfl

private theorem lookup_cons_ite (key name : String) (value : α) (rest : List (String × α)) :
    ((name, value) :: rest).lookup key = if key = name then some value else rest.lookup key := by
  by_cases h : key = name
  · simp [h]
  · simp [List.lookup_cons, h, beq_false_of_ne h]

theorem lookup_insertEntry (key other : String) (value : α) (entries : List (String × α)) :
    (insertEntry key value entries).lookup other =
      if other = key then some value else entries.lookup other := by
  induction entries with
  | nil => exact lookup_cons_ite other key value []
  | cons entry rest ih =>
    obtain ⟨name, old⟩ := entry
    by_cases hname : name = key
    · subst hname
      by_cases h : other = name <;> simp [insertEntry, lookup_cons_ite, h]
    · simp only [insertEntry, hname, if_false, lookup_cons_ite, ih]
      by_cases h : other = name
      · subst h
        simp [hname]
      · simp [h]

@[simp]
theorem get?_insert (m : OrderedMap α) (key other : String) (value : α) :
    (m.insert key value).get? other = if other = key then some value else m.get? other :=
  lookup_insertEntry key other value m.entries

theorem map_fst_insertEntry (key : String) (value : α) (entries : List (String × α)) :
    (insertEntry key value entries).map Prod.fst =
      if key ∈ entries.map Prod.fst then entries.map Prod.fst
      else entries.map Prod.fst ++ [key] := by
  induction entries with
  | nil => rfl
  | cons entry rest ih =>
    by_cases h : entry.1 = key
    · simp [insertEntry, h]
    · by_cases hr : key ∈ rest.map Prod.fst
      · simp only [insertEntry, h, if_false, List.map_cons, ih, hr, if_true, List.mem_cons, or_true]
      · simp only [insertEntry, h, if_false, List.map_cons, ih, hr, List.mem_cons, or_false,
          Ne.symm h, List.cons_append]

theorem keys_insert (m : OrderedMap α) (key : String) (value : α) :
    (m.insert key value).keys = if key ∈ m.keys then m.keys else m.keys ++ [key] :=
  map_fst_insertEntry key value m.entries

theorem mem_of_get? {m : OrderedMap α} {key : String} {value : α}
    (h : m.get? key = some value) : (key, value) ∈ m.entries := by
  obtain ⟨before, after, hentries, -⟩ := List.lookup_eq_some_iff.mp h
  rw [hentries]
  exact List.mem_append_right before List.mem_cons_self

theorem mem_insert {m : OrderedMap α} {key : String} {value : α}
    {entry : String × α} (h : entry ∈ (m.insert key value).entries) :
    entry = (key, value) ∨ entry ∈ m.entries := by
  obtain ⟨entries⟩ := m
  simp only [insert] at h ⊢
  induction entries with
  | nil => simpa [insertEntry] using h
  | cons first rest ih =>
    rw [insertEntry] at h
    split at h
    · exact (List.mem_cons.mp h).imp_right fun hrest => List.mem_cons_of_mem first hrest
    · obtain rfl | hrest := List.mem_cons.mp h
      · exact .inr List.mem_cons_self
      · exact (ih hrest).imp_right fun hrest => List.mem_cons_of_mem first hrest

theorem mem_of_mem_ofList {entries : List (String × α)} {entry : String × α}
    (h : entry ∈ (ofList entries).entries) : entry ∈ entries := by
  suffices hfill : ∀ m : OrderedMap α,
      entry ∈ (entries.foldl (fun m entry => m.insert entry.1 entry.2) m).entries →
        entry ∈ m.entries ∨ entry ∈ entries from (hfill .empty h).resolve_left (by simp [empty])
  clear h
  induction entries with
  | nil => exact fun m h => .inl h
  | cons first rest ih =>
    intro m h
    obtain hm | hrest := ih _ h
    · obtain heq | hm := mem_insert hm
      · exact .inr (List.mem_cons.mpr (.inl heq))
      · exact .inl hm
    · exact .inr (List.mem_cons_of_mem first hrest)

end OrderedMap

end SqlTemplate
