import SqlTemplate.Proofs.Lines
import SqlTemplate.Proofs.Scanning

/-!
Placeholders written out. A modifier, a name and perhaps a block make up a text that is one token, and
the own text of a token found anywhere is such a text again. Field names may stand between commas and
white space of any kind in a block. All of it is read back (`tokens_spelling`), so a placeholder's text
stands for the placeholder, and its key for its modifier and its name.
-/

namespace SqlTemplate

/-! ### One placeholder -/

namespace Placeholder

/-- A placeholder with a name, as it stands in a template. -/
def spelling (modifier : Modifier) (name : String) (schema : Option String) : String :=
  ":" ++ modifier.symbol ++ name ++ schema.elim "" fun body => "\x7b" ++ body ++ "\x7d"

theorem toList_spelling (modifier : Modifier) (name : String) (schema : Option String) :
    (spelling modifier name schema).toList =
      write modifier name.toList (schema.map String.toList) := by
  cases schema <;> simp [spelling, write, braced, String.toList_append]

theorem ofParts_spelling (modifier : Modifier) (name : String) (schema : Option String) :
    ofParts modifier name.toList (schema.map String.toList) =
      ⟨spelling modifier name schema, modifier, name, schema⟩ := by
  rw [ofParts, ← toList_spelling]
  cases schema <;> simp

/-- The name and the block that follow a colon are read up to the end. -/
theorem reads_write {modifier : Modifier} {name : List Char} {schema : Option (List Char)}
    (hname : IsName name)
    (hschema : ∀ body ∈ schema, modifier.takesSchema = true ∧ '\x7d' ∉ body) :
    ∃ cs, write modifier name schema = ':' :: cs ∧
      Reads cs (ofParts modifier name schema) [] := by
  refine ⟨_, rfl, ?_⟩
  cases schema with
  | none =>
    change Reads (modifier.symbol.toList ++ (name ++ [])) _ []
    refine .bare hname (by simp) fun _ => ?_
    rintro ⟨body, after, hnil⟩
    cases hnil
  | some body =>
    obtain ⟨htakes, hbody⟩ := hschema body rfl
    exact .block hname htakes hbody

theorem key_eq_iff {cs cs' rest rest' : List Char} {p q : Placeholder} (hp : Reads cs p rest)
    (hq : Reads cs' q rest') : p.key = q.key ↔ p.modifier = q.modifier ∧ p.name = q.name := by
  constructor
  · intro hkey
    obtain rfl | hpname := hp.eq_positional_or_isName
    · obtain rfl | hqname := hq.eq_positional_or_isName
      · exact ⟨rfl, rfl⟩
      · exact absurd hkey.symm hqname.key_ne
    · obtain rfl | hqname := hq.eq_positional_or_isName
      · exact absurd hkey hpname.key_ne
      · exact hpname.eq_of_key_eq hqname hkey
  · rintro ⟨hmodifier, hname⟩
    rw [key, hmodifier, hname, key]

end Placeholder

namespace Template

open Placeholder (Reads IsName spelling)

theorem pieces_of_reads {cs : List Char} {p : Placeholder} (h : Reads cs p []) :
    (ofText p.raw).pieces = [.placeholder p] := by
  have hraw := h.raw_append
  rw [List.append_nil] at hraw
  rw [ofText, hraw, Piece.scan_placeholder h.read_eq, Piece.scan]

theorem tokens_of_reads {cs : List Char} {p : Placeholder} (h : Reads cs p []) :
    (ofText p.raw).tokens = [⟨0, p.raw.utf8ByteSize, p⟩] := by
  rw [tokens, pieces_of_reads h]
  simp [Token.ofPieces]

theorem tokens_raw {text : String} {t : Token} (ht : t ∈ (ofText text).tokens) :
    (ofText t.placeholder.raw).tokens =
      [⟨0, t.placeholder.raw.utf8ByteSize, t.placeholder⟩] := by
  obtain ⟨-, after, rest, -, -, hreads, -, -⟩ := (scanned_ofText text).covers t ht
  obtain ⟨body, -, hbody⟩ := hreads.of_raw
  exact tokens_of_reads hbody

theorem tokens_ofText_spelling {modifier : Modifier} {name : String} {schema : Option String}
    (hname : IsName name.toList)
    (hschema : ∀ body ∈ schema, modifier.takesSchema = true ∧ '\x7d' ∉ body.toList) :
    (ofText (spelling modifier name schema)).tokens =
      [⟨0, (spelling modifier name schema).utf8ByteSize,
        ⟨spelling modifier name schema, modifier, name, schema⟩⟩] := by
  have hschema' : ∀ body ∈ schema.map String.toList,
      modifier.takesSchema = true ∧ '\x7d' ∉ body := by
    simpa using hschema
  obtain ⟨cs, -, hreads⟩ := Placeholder.reads_write hname hschema'
  rw [Placeholder.ofParts_spelling] at hreads
  have htokens := tokens_of_reads hreads
  exact htokens

end Template

/-! ### Field names -/

namespace Text

theorem trim_blank_append {before : List Char} (hbefore : Blank before) (cs : List Char) :
    trim (before ++ cs) = trim cs := by
  rw [trim, List.dropWhile_append_of_pos hbefore, trim]

theorem Blank.notMem {cs : List Char} {c : Char} (h : Blank cs) (hc : isBlank c = false) :
    c ∉ cs := by
  intro hmem
  rw [h c hmem] at hc
  cases hc

end Text

namespace Placeholder

/-- A text that can be written as one of the fields of a schema. -/
structure IsField (field : String) : Prop where
  nonempty : field ≠ ""
  trimmed : Text.trim field.toList = field.toList
  no_comma : ',' ∉ field.toList
  no_brace : '\x7d' ∉ field.toList

/-- Fields between commas, with any white space around them. Nothing needs to stand between two
commas. -/
inductive SpellsFields : List Char → List String → Prop where
  | blank {cs : List Char} (h : Text.Blank cs) : SpellsFields cs []
  | field {before after : List Char} {field : String} (hbefore : Text.Blank before)
      (hfield : IsField field) (hafter : Text.Blank after) :
      SpellsFields (before ++ (field.toList ++ after)) [field]
  | comma {cs ds : List Char} {fields fields' : List String} (hcs : SpellsFields cs fields)
      (hds : SpellsFields ds fields') : SpellsFields (cs ++ ',' :: ds) (fields ++ fields')

theorem schemaFields_comma (cs ds : List Char) :
    schemaFields (String.ofList (cs ++ ',' :: ds)) =
      schemaFields (String.ofList cs) ++ schemaFields (String.ofList ds) := by
  simp only [schemaFields, String.toList_ofList, List.splitOn_append_cons_self, List.map_append,
    List.filter_append]

theorem schemaFields_of_no_comma {cs : List Char} (h : ',' ∉ cs) :
    schemaFields (String.ofList cs) =
      if Text.trim cs = [] then [] else [String.ofList (Text.trim cs)] := by
  rw [schemaFields, String.toList_ofList, List.splitOn_eq_singleton h]
  split
  · next hnil => simp [hnil]
  · next hne => simp [hne]

variable {cs : List Char} {fields : List String}

theorem SpellsFields.schemaFields_eq (h : SpellsFields cs fields) :
    schemaFields (String.ofList cs) = fields := by
  induction h with
  | blank hblank =>
    rw [schemaFields_of_no_comma (hblank.notMem rfl), if_pos (Text.trim_eq_nil_iff.mpr hblank)]
  | @field before after field hbefore hfield hafter =>
    have hcomma : ',' ∉ before ++ (field.toList ++ after) := by
      simp [hbefore.notMem (c := ',') rfl, hfield.no_comma, hafter.notMem (c := ',') rfl]
    have htrim : Text.trim (before ++ (field.toList ++ after)) = field.toList := by
      rw [Text.trim_blank_append hbefore, Text.trim_append_of_blank _ hafter, hfield.trimmed]
    have hne : field.toList ≠ [] := by simpa using hfield.nonempty
    rw [schemaFields_of_no_comma hcomma, htrim, if_neg hne, String.ofList_toList]
  | comma _ _ ihcs ihds => rw [schemaFields_comma, ihcs, ihds]

theorem SpellsFields.no_brace (h : SpellsFields cs fields) : '\x7d' ∉ cs := by
  induction h with
  | blank hblank => exact hblank.notMem rfl
  | field hbefore hfield hafter =>
    simp [hbefore.notMem (c := '\x7d') rfl, hfield.no_brace, hafter.notMem (c := '\x7d') rfl]
  | comma _ _ ihcs ihds => simp [ihcs, ihds]

end Placeholder

namespace Template

open Placeholder (IsName spelling SpellsFields)

/-- What is written as a placeholder is scanned as that one, and so is the own text of every token.
Texts of placeholders differ as the placeholders do, keys as modifiers and names do, and the fields
that are written in a schema are its fields. -/
theorem tokens_spelling :
    (∀ (modifier : Modifier) (name : String) (schema : Option String), IsName name.toList →
      (∀ body ∈ schema, modifier.takesSchema = true ∧ '\x7d' ∉ body.toList) →
      (ofText (spelling modifier name schema)).tokens =
        [⟨0, (spelling modifier name schema).utf8ByteSize,
          ⟨spelling modifier name schema, modifier, name, schema⟩⟩]) ∧
    (∀ text : String, ∀ t ∈ (ofText text).tokens, (ofText t.placeholder.raw).tokens =
      [⟨0, t.placeholder.raw.utf8ByteSize, t.placeholder⟩]) ∧
    (∀ text text' : String, ∀ p ∈ (ofText text).placeholders,
      ∀ q ∈ (ofText text').placeholders, (p.raw = q.raw → p = q) ∧
        (p.key = q.key ↔ p.modifier = q.modifier ∧ p.name = q.name)) ∧
    ∀ (modifier : Modifier) (name schema : String) (fields : List String), IsName name.toList →
      modifier.takesSchema = true → SpellsFields schema.toList fields →
      ∃ t, (ofText (spelling modifier name (some schema))).tokens = [t] ∧
        t.placeholder.fields? = some fields := by
  refine ⟨fun _ _ _ => tokens_ofText_spelling, fun _ _ => tokens_raw, ?_, ?_⟩
  · intro text text' p hp q hq
    obtain ⟨cs, rest, hreads⟩ := exists_reads_of_mem hp
    obtain ⟨cs', rest', hreads'⟩ := exists_reads_of_mem hq
    exact ⟨hreads.eq_of_raw_eq hreads', Placeholder.key_eq_iff hreads hreads'⟩
  · intro modifier name schema fields hname htakes hfields
    have hschema : ∀ body ∈ some schema, modifier.takesSchema = true ∧ '\x7d' ∉ body.toList := by
      rintro _ ⟨⟩
      exact ⟨htakes, hfields.no_brace⟩
    refine ⟨_, tokens_ofText_spelling hname hschema, ?_⟩
    have hread := hfields.schemaFields_eq
    rw [String.ofList_toList] at hread
    rw [Placeholder.fields?, Option.map_some, hread]

theorem tokens_spelling_spare_commas :
    (ofText ":@a_1\x7b,\x09x y,\x7d").tokens =
        [⟨0, 13, ⟨":@a_1\x7b,\x09x y,\x7d", .update, "a_1", some ",\x09x y,"⟩⟩] ∧
      ∃ t, (ofText ":@a_1\x7b,\x09x y,\x7d").tokens = [t] ∧
        t.placeholder.fields? = some ["x y"] := by
  have hname : IsName "a_1".toList := by decide
  have hfield : Placeholder.IsField "x y" := ⟨by decide, by decide, by decide, by decide⟩
  have htab : Text.Blank ['\x09'] := by simp [Text.Blank, Text.isBlank]
  have hfields : SpellsFields ",\x09x y,".toList ["x y"] :=
    .comma (.blank Text.blank_nil) (.comma (.field htab hfield Text.blank_nil)
      (.blank Text.blank_nil))
  have hspelling : spelling .update "a_1" (some ",\x09x y,") = ":@a_1\x7b,\x09x y,\x7d" := by decide
  have hsize : (":@a_1\x7b,\x09x y,\x7d" : String).utf8ByteSize = 13 := by decide
  constructor
  · have htokens := tokens_spelling.1 .update "a_1" (some ",\x09x y,") hname
      (by simp [Modifier.takesSchema])
    rwa [hspelling, hsize] at htokens
  · have hread := tokens_spelling.2.2.2 .update "a_1" ",\x09x y," ["x y"] hname rfl hfields
    rwa [hspelling] at hread

end Template

end SqlTemplate
