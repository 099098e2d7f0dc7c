import SqlTemplate.Text.Blank

/-!
A placeholder is a colon, perhaps the symbol of a modifier, a name and perhaps a block in braces, or
it is `:?`. `Placeholder.read` takes one off the front of a text, and `raw_append_of_read` says that
nothing of the text is lost.
-/

namespace SqlTemplate

inductive Modifier where
  | plain
  | raw
  | condition
  | insert
  | update
  | optional
deriving DecidableEq, Repr

namespace Modifier

def ofChar? : Char → Option Modifier
  | '!' => some .raw
  | '~' => some .condition
  | '$' => some .insert
  | '@' => some .update
  | '*' => some .optional
  | _ => none

def symbol : Modifier → String
  | .plain => ""
  | .raw => "!"
  | .condition => "~"
  | .insert => "$"
  | .update => "@"
  | .optional => "*"

/-- Whether a block in braces after the name belongs to the placeholder. -/
def takesSchema : Modifier → Bool
  | .insert | .update | .optional => true
  | _ => false

def isObject : Modifier → Bool
  | .insert | .update => true
  | _ => false

/-- The name that listings show. -/
def label : Modifier → String
  | .plain => "None"
  | .raw => "Raw"
  | .condition => "Dynamic"
  | .insert => "ObjectInsert"
  | .update => "ObjectUpdate"
  | .optional => "Optional"

theorem toList_symbol_of_ofChar? {c : Char} {m : Modifier} (h : ofChar? c = some m) :
    m.symbol.toList = [c] := by
  unfold ofChar? at h
  split at h <;> first | contradiction | (cases h; rfl)

end Modifier

/-- A placeholder of a template, with its text there. -/
structure Placeholder where
  raw : String
  modifier : Modifier
  /-- An identifier, or `?` for a placeholder that takes the next positional value. -/
  name : String
  /-- The text between the braces: field names, or the fragment of an optional placeholder. -/
  schema : Option String
deriving DecidableEq, Repr

namespace Placeholder

/-- The key under which the parameters hold the value. -/
def key (p : Placeholder) : String := p.modifier.symbol ++ p.name

def isPositional (p : Placeholder) : Bool := p.name == "?"

/-- The field names of a schema: what stands between its commas, trimmed, without empty names. -/
def schemaFields (schema : String) : List String :=
  ((schema.toList.splitOn ',').map Text.trim |>.filter (!·.isEmpty)).map String.ofList

def fields? (p : Placeholder) : Option (List String) := p.schema.map schemaFields

def positional : Placeholder := ⟨":?", .plain, "?", none⟩

def isNameChar (c : Char) : Bool := c.isAlphanum || c == '_'

def readModifier : List Char → Modifier × List Char
  | [] => (.plain, [])
  | c :: rest =>
    match Modifier.ofChar? c with
    | some m => (m, rest)
    | none => (.plain, c :: rest)

/-- A block in braces, up to the first closing one. -/
def readSchema : List Char → Option (List Char) × List Char
  | '\x7b' :: rest =>
    match rest.dropWhile (· != '\x7d') with
    | _ :: after => (some (rest.takeWhile (· != '\x7d')), after)
    | [] => (none, '\x7b' :: rest)
  | cs => (none, cs)

def braced : Option (List Char) → List Char
  | some body => '\x7b' :: (body ++ ['\x7d'])
  | none => []

def write (modifier : Modifier) (name : List Char) (schema : Option (List Char)) : List Char :=
  ':' :: (modifier.symbol.toList ++ (name ++ braced schema))

def ofParts (modifier : Modifier) (name : List Char) (schema : Option (List Char)) : Placeholder :=
  ⟨String.ofList (write modifier name schema), modifier, String.ofList name, schema.map String.ofList⟩

/-- Reads a placeholder whose colon has just been read. -/
def read (cs : List Char) : Option (Placeholder × List Char) :=
  match cs with
  | '?' :: rest => some (positional, rest)
  | _ =>
    let (modifier, afterModifier) := readModifier cs
    let name := afterModifier.takeWhile isNameChar
    let afterName := afterModifier.dropWhile isNameChar
    if name.isEmpty then none
    else if modifier.takesSchema then
      let (schema, rest) := readSchema afterName
      some (ofParts modifier name schema, rest)
    else some (ofParts modifier name none, afterName)

theorem readModifier_append (cs : List Char) :
    (readModifier cs).1.symbol.toList ++ (readModifier cs).2 = cs := by
  cases cs with
  | nil => rfl
  | cons c rest =>
    cases h : Modifier.ofChar? c with
    | none => simp [readModifier, h, Modifier.symbol]
    | some m => simp [readModifier, h, Modifier.toList_symbol_of_ofChar? h]

/-- The block that was read, if any, and the rest make up the text. -/
theorem readSchema_append (cs : List Char) :
    braced (readSchema cs).1 ++ (readSchema cs).2 = cs := by
  fun_cases readSchema cs with
  | case1 rest c after hrest =>
    have hc : c = '\x7d' := by
      have hhead := List.head?_dropWhile_not (fun d => d != '\x7d') rest
      rw [hrest] at hhead
      simpa using hhead
    have hsplit := List.takeWhile_append_dropWhile (p := (· != '\x7d')) (l := rest)
    rw [hrest, hc] at hsplit
    simpa [braced] using hsplit
  | case2 rest => rfl
  | case3 => rfl

/-- What was read is the placeholder's text, and the rest follows it. -/
theorem raw_append_of_read {cs rest : List Char} {p : Placeholder}
    (h : read cs = some (p, rest)) : p.raw.toList ++ rest = ':' :: cs := by
  have hmodifier := readModifier_append cs
  have hname := List.takeWhile_append_dropWhile (p := isNameChar) (l := (readModifier cs).2)
  unfold read at h
  split at h
  next =>
    cases h
    rfl
  next =>
    simp only at h
    split at h
    · contradiction
    · split at h
      · cases h
        have hschema := readSchema_append ((readModifier cs).2.dropWhile isNameChar)
        simp only [ofParts, write, String.toList_ofList, List.cons_append, List.append_assoc,
          hschema, hname, hmodifier]
      · cases h
        simp only [ofParts, write, braced, String.toList_ofList, List.cons_append,
          List.append_assoc, List.nil_append, hname, hmodifier]

theorem raw_ne_nil_of_read {cs rest : List Char} {p : Placeholder}
    (h : read cs = some (p, rest)) : p.raw.toList ≠ [] := by
  unfold read at h
  split at h
  · cases h
    decide
  · simp only at h
    split at h
    · contradiction
    · split at h <;> (cases h; simp [ofParts, write])

theorem length_of_read {cs rest : List Char} {p : Placeholder}
    (h : read cs = some (p, rest)) : rest.length ≤ cs.length := by
  have happend := congrArg List.length (raw_append_of_read h)
  have hraw := List.length_pos_iff.mpr (raw_ne_nil_of_read h)
  simp only [List.length_append, List.length_cons] at happend
  omega

end Placeholder

end SqlTemplate
