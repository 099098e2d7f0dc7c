import SqlTemplate.Rendering
import SqlTemplate.Sorting
import SqlTemplate.Template.Validation

/-!
A template becomes SQL text: it is validated, every value is written for its placeholders, and the
texts are put in their places. The texts themselves are never scanned. A condition resolves its
parts in the same way, so that resolving and writing values call each other
(`resolve_eq_assemble`).
-/

namespace SqlTemplate

/-- A way to turn a placeholder into SQL text. -/
abbrev Filler := Placeholder → Except Error String

/-- The texts found for placeholders, by the placeholders' own texts. -/
abbrev Replacements := List (String × String)

namespace Template

/-- One text for each positional value. Without `:?` there is nothing to fill. -/
def positionalTexts (t : Template) (a : Adapter) (params : Params) : Except Error (List String) :=
  if t.positionalCount = 0 then .ok []
  else match params.positional with
    | some (.sequence items) => items.mapM (a.staticText ParamsOf.positionalKey)
    | _ => .error (.missing [ParamsOf.positionalKey])

/-- Longer keys, in bytes, before shorter ones. -/
def longestFirst (fillers : List (String × Filler)) : List (String × Filler) :=
  sortStable (fun x y => decide (y.1.utf8ByteSize ≤ x.1.utf8ByteSize)) fillers

/-- Fills one placeholder, unless one of the same text is filled already. -/
def fillPlaceholder (filler : Filler) (done : Replacements) (p : Placeholder) :
    Except Error Replacements := do
  if (done.lookup p.raw).isSome then return done
  let text ← filler p
  return (p.raw, text) :: done

/-- Fills all placeholders of one key. A key that no placeholder has is an error. -/
def fillKey (t : Template) (v : Validation) (done : Replacements) (entry : String × Filler) :
    Except Error Replacements :=
  if (v.get? entry.1).isSome then
    (t.namedPlaceholders.filter (·.key == entry.1)).foldlM (fillPlaceholder entry.2) done
  else .error (.unexpected entry.1)

/-- Optional placeholders without a value become nothing. -/
def erased (t : Template) (v : Validation) : Replacements :=
  (t.namedPlaceholders.filter fun p => v.unresolvedOptional.contains p.key).map fun p => (p.raw, "")

/-- Puts the texts in place of the placeholders, the positional ones in order. -/
def splice (replacements : Replacements) : List String → List Piece → Except Error (List Char)
  | _, [] => .ok []
  | positional, .literal c :: pieces => do
    let rest ← splice replacements positional pieces
    return c :: rest
  | positional, .placeholder p :: pieces =>
    if p.isPositional then
      match positional with
      | [] => .error (.missing [p.key])
      | text :: positional => do
        let rest ← splice replacements positional pieces
        return text.toList ++ rest
    else
      match replacements.lookup p.raw with
      | none => .error (.missing [p.key])
      | some text => do
        let rest ← splice replacements positional pieces
        return text.toList ++ rest

/-- The SQL text of a template whose named values are given by their fillers. -/
def assemble (t : Template) (a : Adapter) (params : Params) (fillers : List (String × Filler)) :
    Except Error String := do
  let v ← t.validate params
  if v.isValid then
    let positional ← t.positionalTexts a params
    let filled ← (longestFirst fillers).foldlM (t.fillKey v) []
    let chars ← splice (t.erased v ++ filled) positional t.pieces
    return String.ofList chars
  else .error (.missing v.missing)

end Template

mutual

/-- The parts of a condition, each resolved on its own, joined by the operator. -/
def Adapter.conditionText (a : Adapter) : Condition → Except Error String
  | ⟨operator, parts⟩ => do
    let texts ← a.partTexts parts
    return (" " ++ operator ++ " ").intercalate texts

def Adapter.partTexts (a : Adapter) : List (String × Params) → Except Error (List String)
  | [] => .ok []
  | (sql, params) :: parts => do
    let text ← a.resolve (Template.ofText sql) params
    let texts ← a.partTexts parts
    return text :: texts

/-- The SQL text of a template with its placeholders filled from the parameters. -/
def Adapter.resolve (a : Adapter) (t : Template) : Params → Except Error String
  | ⟨⟨entries⟩, positional⟩ => t.assemble a ⟨⟨entries⟩, positional⟩ (a.fillers entries)

/-- A filler for each named value. -/
def Adapter.fillers (a : Adapter) : List (String × Value) → List (String × Filler)
  | [] => []
  | (key, value) :: entries => (key, a.filler value) :: a.fillers entries

/-- The text of a value for a placeholder. -/
def Adapter.filler (a : Adapter) (value : Value) : Filler :=
  match value with
  | .condition c => fun p =>
    if p.modifier = .condition then a.conditionText c else a.valueText p (.condition c)
  | other => fun p => a.valueText p other

end

/-- The text of what the parameters hold for a placeholder: without a value, an optional one becomes
nothing. -/
def Adapter.text (a : Adapter) (value : Option Value) (p : Placeholder) : Except Error String :=
  match value with
  | some value => a.filler value p
  | none => if p.modifier = .optional then .ok "" else .error (.missing [p.key])

theorem Adapter.fillers_eq_map (a : Adapter) (entries : List (String × Value)) :
    a.fillers entries = entries.map fun entry => (entry.1, a.filler entry.2) := by
  induction entries with
  | nil => simp [Adapter.fillers]
  | cons entry entries ih => simp [Adapter.fillers, ih]

theorem Adapter.resolve_eq_assemble (a : Adapter) (t : Template) (params : Params) :
    a.resolve t params = t.assemble a params
      (params.named.entries.map fun entry => (entry.1, a.filler entry.2)) := by
  obtain ⟨⟨entries⟩, positional⟩ := params
  rw [Adapter.resolve, Adapter.fillers_eq_map]

theorem Adapter.partTexts_eq_mapM (a : Adapter) (parts : List (String × Params)) :
    a.partTexts parts = parts.mapM fun part => a.resolve (Template.ofText part.1) part.2 := by
  induction parts with
  | nil => simp [Adapter.partTexts, pure, Except.pure]
  | cons part parts ih => simp [Adapter.partTexts, ih]

theorem Adapter.text_condition (a : Adapter) (c : Condition) (p : Placeholder) :
    a.text (some (.condition c)) p =
      if p.modifier = .condition then a.conditionText c else a.valueText p (.condition c) := by
  rw [text, filler]

/-- Only a condition in its own place is more than a value to be written. -/
theorem Adapter.text_eq_valueText {p : Placeholder} {value : Value}
    (hno : p.modifier = .condition → ∀ c, value ≠ .condition c) (a : Adapter) :
    a.text (some value) p = a.valueText p value := by
  cases value with
  | condition c => exact (a.text_condition c p).trans (if_neg fun h => hno h c rfl)
  | scalar _ | sequence _ | record _ => simp only [text, filler]

example : (Dialect.mysql.adapter.resolve (Template.ofText "a = :a AND :~w :*l\x7bLIMIT *\x7d")
      (.ofList [("~w", .condition ⟨"OR", [("b = :?", .withPositional .empty [.scalar (.int 1)]),
        ("c", .empty)]⟩), ("a", .scalar (.text "x"))])).toOption =
    some "a = 'x' AND b = 1 OR c " := by decide +kernel

end SqlTemplate
