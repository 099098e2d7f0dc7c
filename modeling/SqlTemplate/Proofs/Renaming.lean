import Mathlib.Logic.Embedding.Basic
import SqlTemplate.Proofs.Correspondence

/-!
The names of placeholders do not matter. Where a renaming keeps different names apart, scanning the
renamed text finds just the renamed placeholders (`ofText_text`), they find the values of the old
ones under their new keys, and the two templates resolve alike (`resolve_renamed`).
-/

namespace SqlTemplate

open Placeholder (IsName Reads Opens StartsBlock isNameChar readModifier)
open Template (ofText)

abbrev Name := {name : List Char // IsName name}

/-- New names for all names, different ones for different ones. -/
abbrev Renaming := Name ↪ Name

namespace Renaming

variable (ρ : Renaming)

/-- `?` is not a name, so a `:?` stays as it is. -/
def placeholder (p : Placeholder) : Placeholder :=
  if h : IsName p.name.toList then
    .ofParts p.modifier (ρ ⟨p.name.toList, h⟩).1 (p.schema.map String.toList)
  else p

def piece : Piece → Piece
  | .literal c => .literal c
  | .placeholder p => .placeholder (ρ.placeholder p)

/-- The text with new names in its placeholders. -/
def text (old : String) : String :=
  Template.text ⟨(ofText old).pieces.map ρ.piece⟩

/-- Keys that are not the symbol of a modifier and a name stay as they are. -/
def key (old : String) : String :=
  if h : IsName (readModifier old.toList).2 then
    (readModifier old.toList).1.symbol ++ String.ofList (ρ ⟨_, h⟩).1
  else old

def params (old : Params) : Params :=
  { old with named := ⟨old.named.entries.map fun entry => (ρ.key entry.1, entry.2)⟩ }

variable {p : Placeholder} {cs rest : List Char}

/-! ### Placeholders and keys -/

@[simp]
theorem placeholder_positional : ρ.placeholder .positional = .positional :=
  dif_neg (by decide)

theorem placeholder_ofParts (modifier : Modifier) {name : List Char} (hname : IsName name)
    (schema : Option (List Char)) :
    ρ.placeholder (.ofParts modifier name schema) =
      .ofParts modifier (ρ ⟨name, hname⟩).1 schema := by
  have hschema : (schema.map String.ofList).map String.toList = schema := by
    cases schema <;> simp
  unfold placeholder
  simp only [Placeholder.ofParts, String.toList_ofList, hschema, hname, dite_true]

theorem isName_placeholder (hname : IsName p.name.toList) :
    IsName (ρ.placeholder p).name.toList := by
  rw [placeholder, dif_pos hname, Placeholder.ofParts, String.toList_ofList]
  exact (ρ _).2

theorem isPositional_placeholder (p : Placeholder) :
    (ρ.placeholder p).isPositional = p.isPositional := by
  by_cases hname : IsName p.name.toList
  · rw [hname.isPositional_eq_false, (ρ.isName_placeholder hname).isPositional_eq_false]
  · rw [placeholder, dif_neg hname]

theorem modifier_placeholder (p : Placeholder) : (ρ.placeholder p).modifier = p.modifier := by
  unfold placeholder
  split <;> rfl

theorem schema_placeholder (p : Placeholder) : (ρ.placeholder p).schema = p.schema := by
  unfold placeholder
  split
  · cases hschema : p.schema with
    | none => rfl
    | some schema => simp [Placeholder.ofParts]
  · rfl

theorem key_placeholder (hname : IsName p.name.toList) :
    (ρ.placeholder p).key = ρ.key p.key := by
  have hread := hname.readModifier_append p.modifier
  rw [← Placeholder.toList_key] at hread
  have hkey : ∀ name (h : IsName name), readModifier p.key.toList = (p.modifier, name) →
      ρ.key p.key = p.modifier.symbol ++ String.ofList (ρ ⟨name, h⟩).1 := by
    intro name h hread
    unfold key
    simp only [hread, h, dite_true]
  rw [hkey _ hname hread, placeholder, dif_pos hname]
  rfl

/-- The new key is read as the old modifier and the new name, or else as the old key was. -/
theorem readModifier_key (old : String) :
    (∃ h : IsName (readModifier old.toList).2,
      readModifier (ρ.key old).toList = ((readModifier old.toList).1, (ρ ⟨_, h⟩).1)) ∨
    ¬IsName (readModifier (ρ.key old).toList).2 ∧ ρ.key old = old := by
  unfold key
  split
  · next h =>
    refine .inl ⟨h, ?_⟩
    rw [String.toList_append, String.toList_ofList]
    exact (ρ _).2.readModifier_append _
  · next h => exact .inr ⟨h, rfl⟩

theorem key_injective : Function.Injective ρ.key := by
  intro old old' heq
  obtain ⟨h, hread⟩ | ⟨hnot, hsame⟩ := ρ.readModifier_key old
  · obtain ⟨h', hread'⟩ | ⟨hnot', -⟩ := ρ.readModifier_key old'
    · rw [heq, hread', Prod.mk.injEq] at hread
      have hname := congrArg Subtype.val (ρ.injective (Subtype.val_injective hread.2))
      have hold : readModifier old.toList = readModifier old'.toList :=
        Prod.ext hread.1.symm hname.symm
      rw [← String.toList_inj, ← Placeholder.readModifier_append old.toList,
        ← Placeholder.readModifier_append old'.toList, hold]
    · rw [← heq, hread] at hnot'
      exact absurd (ρ _).2 hnot'
  · obtain ⟨h', hread'⟩ | ⟨-, hsame'⟩ := ρ.readModifier_key old'
    · rw [heq, hread'] at hnot
      exact absurd (ρ _).2 hnot
    · rw [← hsame, heq, hsame']

/-! ### The renamed text -/

theorem head?_raw_placeholder (h : Reads cs p rest) :
    (ρ.placeholder p).raw.toList.head? = some ':' := by
  cases h with
  | positional =>
    rw [placeholder_positional]
    rfl
  | bare hname _ _ | block hname _ _ =>
    rw [ρ.placeholder_ofParts _ hname, Placeholder.ofParts, String.toList_ofList]
    rfl

/-- No new name holds a character that no name has. -/
theorem mem_raw_placeholder (h : Reads cs p rest) {c : Char} (hc : isNameChar c = false)
    (hmem : c ∈ (ρ.placeholder p).raw.toList) : c ∈ p.raw.toList := by
  have hnot : ∀ name : Name, c ∉ name.1 := by
    intro name hname
    rw [name.2.2 c hname] at hc
    cases hc
  cases h with
  | positional =>
    rw [placeholder_positional] at hmem
    exact hmem
  | @bare modifier name _ hname _ _ | @block modifier name body _ hname _ _ =>
    rw [ρ.placeholder_ofParts _ hname] at hmem
    simp only [Placeholder.ofParts, Placeholder.write, String.toList_ofList, List.mem_cons,
      List.mem_append, hnot, false_or] at hmem ⊢
    tauto

/-- A renamed placeholder is read where what follows it stops names and starts blocks as before. -/
theorem reads_placeholder {rest' : List Char} (h : Reads cs p rest)
    (hhead : rest'.head? = rest.head?) (hblock : StartsBlock rest' → StartsBlock rest) :
    ∃ cs', (ρ.placeholder p).raw.toList ++ rest' = ':' :: cs' ∧
      Reads cs' (ρ.placeholder p) rest' := by
  cases h with
  | positional =>
    rw [placeholder_positional]
    exact ⟨_, rfl, .positional rest'⟩
  | @bare modifier name _ hname hstop hnot =>
    rw [ρ.placeholder_ofParts _ hname]
    have hreads := Reads.bare (ρ ⟨name, hname⟩).2 (hhead ▸ hstop)
      fun htakes hstarts => hnot htakes (hblock hstarts)
    exact ⟨_, hreads.raw_append, hreads⟩
  | @block modifier name body _ hname htakes hbody =>
    rw [ρ.placeholder_ofParts _ hname]
    have hreads := @Reads.block modifier _ body rest' (ρ ⟨name, hname⟩).2 htakes hbody
    exact ⟨_, hreads.raw_append, hreads⟩

/-- The renamed characters of a text of which `afterColon` says whether a colon stands before it. -/
def chars (afterColon : Bool) (cs : List Char) : List Char :=
  ((Piece.scan afterColon cs).map ρ.piece).flatMap Piece.chars

theorem chars_nil (afterColon : Bool) : ρ.chars afterColon [] = [] := by
  rw [chars, Piece.scan]
  rfl

theorem chars_literal {afterColon : Bool} {c : Char} (h : ¬(c = ':' && !afterColon) = true)
    (cs : List Char) : ρ.chars afterColon (c :: cs) = c :: ρ.chars (c == ':') cs := by
  rw [chars, Piece.scan, if_neg h]
  rfl

theorem chars_placeholder (hread : Placeholder.read cs = some (p, rest)) :
    ρ.chars false (':' :: cs) = (ρ.placeholder p).raw.toList ++ ρ.chars false rest := by
  rw [chars, Piece.scan_placeholder hread]
  rfl

theorem chars_colon (hread : Placeholder.read cs = none) :
    ρ.chars false (':' :: cs) = ':' :: ρ.chars true cs := by
  rw [chars, Piece.scan_colon hread]
  rfl

theorem head?_chars (afterColon : Bool) (cs : List Char) :
    (ρ.chars afterColon cs).head? = cs.head? := by
  fun_cases Piece.scan afterColon cs with
  | case1 => rw [chars_nil]
  | case2 c cs hcolon p rest hread =>
    obtain ⟨rfl, rfl⟩ : c = ':' ∧ afterColon = false := by simpa using hcolon
    have hhead := ρ.head?_raw_placeholder (Placeholder.reads_of_read_eq hread)
    rw [ρ.chars_placeholder hread, List.head?_append, hhead]
    rfl
  | case3 c cs hcolon hread =>
    obtain ⟨rfl, rfl⟩ : c = ':' ∧ afterColon = false := by simpa using hcolon
    rw [ρ.chars_colon hread]
    rfl
  | case4 c cs hliteral =>
    rw [ρ.chars_literal hliteral]
    rfl

theorem mem_of_mem_chars {c : Char} (hc : isNameChar c = false) {afterColon : Bool}
    {cs : List Char} (hmem : c ∈ ρ.chars afterColon cs) : c ∈ cs := by
  fun_induction Piece.scan afterColon cs with
  | case1 =>
    rw [chars_nil] at hmem
    cases hmem
  | case2 afterColon d cs hcolon p rest hread ih =>
    obtain ⟨rfl, rfl⟩ : d = ':' ∧ afterColon = false := by simpa using hcolon
    have hreads := Placeholder.reads_of_read_eq hread
    rw [ρ.chars_placeholder hread, List.mem_append] at hmem
    rw [← hreads.raw_append, List.mem_append]
    exact hmem.imp (ρ.mem_raw_placeholder hreads hc) ih
  | case3 afterColon d cs hcolon hread ih =>
    obtain ⟨rfl, rfl⟩ : d = ':' ∧ afterColon = false := by simpa using hcolon
    rw [ρ.chars_colon hread, List.mem_cons] at hmem
    exact List.mem_cons.mpr (hmem.imp_right ih)
  | case4 afterColon d cs hliteral ih =>
    rw [ρ.chars_literal hliteral, List.mem_cons] at hmem
    exact List.mem_cons.mpr (hmem.imp_right ih)

theorem startsBlock_of_chars {afterColon : Bool} {cs : List Char}
    (h : StartsBlock (ρ.chars afterColon cs)) : StartsBlock cs := by
  rw [Placeholder.startsBlock_iff] at h ⊢
  exact ⟨ρ.head?_chars afterColon cs ▸ h.1, ρ.mem_of_mem_chars (by decide) h.2⟩

/-- No colon that stood for itself opens a placeholder between new names. -/
theorem opens_of_chars {cs : List Char} (h : Opens (ρ.chars true cs)) : Opens cs := by
  have hfirst : ∀ c rest, ρ.chars true cs = c :: rest →
      ∃ cs', cs = c :: cs' ∧ rest = ρ.chars (c == ':') cs' := by
    intro c rest hchars
    have hhead := ρ.head?_chars true cs
    rw [hchars] at hhead
    obtain ⟨cs', rfl⟩ := List.head?_eq_some_iff.mp hhead.symm
    rw [ρ.chars_literal (by simp)] at hchars
    cases hchars
    exact ⟨cs', rfl, rfl⟩
  obtain ⟨rest, hchars⟩ | ⟨modifier, c, rest, hc, hchars⟩ := h
  · obtain ⟨cs', rfl, -⟩ := hfirst _ _ hchars
    exact .inl ⟨cs', rfl⟩
  · obtain hsymbol | ⟨d, hsymbol⟩ :
        modifier.symbol.toList = [] ∨ ∃ d, modifier.symbol.toList = [d] := by
      cases modifier <;> simp [Modifier.symbol]
    all_goals rw [hsymbol] at hchars
    · obtain ⟨cs', rfl, -⟩ := hfirst _ _ hchars
      exact .inr ⟨modifier, c, cs', hc, by rw [hsymbol]; rfl⟩
    · obtain ⟨cs', rfl, hrest⟩ := hfirst _ _ hchars
      have hhead := ρ.head?_chars (d == ':') cs'
      rw [← hrest] at hhead
      obtain ⟨cs', rfl⟩ := List.head?_eq_some_iff.mp hhead.symm
      exact .inr ⟨modifier, c, cs', hc, by rw [hsymbol]; rfl⟩

/-- Scanning the renamed text finds the renamed pieces. -/
theorem scan_chars (afterColon : Bool) (cs : List Char) :
    Piece.scan afterColon (ρ.chars afterColon cs) = (Piece.scan afterColon cs).map ρ.piece := by
  fun_induction Piece.scan afterColon cs with
  | case1 =>
    rw [chars_nil, Piece.scan]
    rfl
  | case2 afterColon c cs hcolon p rest hread ih =>
    obtain ⟨rfl, rfl⟩ : c = ':' ∧ afterColon = false := by simpa using hcolon
    obtain ⟨cs', hraw, hreads⟩ := ρ.reads_placeholder (Placeholder.reads_of_read_eq hread)
      (ρ.head?_chars false rest) ρ.startsBlock_of_chars
    rw [ρ.chars_placeholder hread, hraw, Piece.scan_placeholder hreads.read_eq, ih]
    rfl
  | case3 afterColon c cs hcolon hread ih =>
    obtain ⟨rfl, rfl⟩ : c = ':' ∧ afterColon = false := by simpa using hcolon
    have hread' : Placeholder.read (ρ.chars true cs) = none := by
      rw [Placeholder.read_eq_none_iff] at hread ⊢
      exact fun hopens => hread (ρ.opens_of_chars hopens)
    rw [ρ.chars_colon hread, Piece.scan_colon hread', ih]
    rfl
  | case4 afterColon c cs hliteral ih =>
    rw [ρ.chars_literal hliteral, Piece.scan, if_neg hliteral, ih]
    rfl

theorem ofText_text (old : String) : ofText (ρ.text old) = ⟨(ofText old).pieces.map ρ.piece⟩ := by
  have hchars : (ρ.text old).toList = ρ.chars false old.toList := String.toList_ofList
  rw [ofText, hchars, scan_chars]
  rfl

example : Renaming.text ⟨fun name => ⟨'_' :: name.1, List.cons_ne_nil _ _,
      List.forall_mem_cons.mpr ⟨rfl, name.2.2⟩⟩,
    fun _ _ heq => Subtype.ext (List.cons.inj (congrArg Subtype.val heq)).2⟩
      ":a::a :ab :$a\x7ba\x7d :?" = ":_a::a :_ab :$_a\x7ba\x7d :?" := by decide +kernel

theorem filterMap_placeholder?_map_piece (pieces : List Piece) :
    (pieces.map ρ.piece).filterMap Piece.placeholder? =
      (pieces.filterMap Piece.placeholder?).map ρ.placeholder := by
  rw [List.filterMap_map, List.map_filterMap]
  congr 1
  funext piece
  cases piece <;> rfl

theorem placeholders_ofText_text (old : String) :
    (ofText (ρ.text old)).placeholders = (ofText old).placeholders.map ρ.placeholder := by
  rw [ofText_text, Template.placeholders, Template.placeholders,
    filterMap_placeholder?_map_piece]

theorem namedPlaceholders_ofText_text (old : String) :
    (ofText (ρ.text old)).namedPlaceholders = (ofText old).namedPlaceholders.map ρ.placeholder := by
  rw [Template.namedPlaceholders, Template.namedPlaceholders, placeholders_ofText_text,
    List.filter_map]
  congr 2
  funext p
  rw [Function.comp_apply, isPositional_placeholder]

theorem weave_map_piece (texts : List String) (pieces : List Piece) :
    Piece.weave texts (pieces.map ρ.piece) = Piece.weave texts pieces := by
  induction pieces generalizing texts with
  | nil => cases texts <;> rfl
  | cons piece pieces ih =>
    cases piece with
    | literal c => cases texts <;> simp only [List.map_cons, piece, Piece.weave, ih]
    | placeholder p => cases texts <;> simp only [List.map_cons, piece, Piece.weave, ih]

/-! ### Renamed parameters -/

theorem lookup_map_key (entries : List (String × Value)) (old : String) :
    (entries.map fun entry => (ρ.key entry.1, entry.2)).lookup (ρ.key old) =
      entries.lookup old := by
  induction entries with
  | nil => rfl
  | cons entry entries ih =>
    rw [List.map_cons, List.lookup_cons, List.lookup_cons, ih]
    by_cases hkey : old = entry.1
    · rw [hkey, BEq.rfl, BEq.rfl]
    · rw [beq_false_of_ne hkey, beq_false_of_ne fun heq => hkey (ρ.key_injective heq)]

variable {text : String} {params : Params}

theorem alike_placeholder {p : Placeholder} (hp : p ∈ (ofText text).placeholders) :
    Placeholder.Alike params (ρ.params params) p (ρ.placeholder p) where
  positional := (ρ.isPositional_placeholder p).symm
  modifier := (ρ.modifier_placeholder p).symm
  schema := (ρ.schema_placeholder p).symm
  value := by
    obtain ⟨cs, rest, hreads⟩ := Template.exists_reads_of_mem hp
    obtain rfl | hname := hreads.eq_positional_or_isName
    · rw [placeholder_positional]
      rfl
    · rw [ParamsOf.get?, ParamsOf.get?, ParamsOf.positionalKey, if_neg hname.key_ne,
        if_neg (ρ.isName_placeholder hname).key_ne, ρ.key_placeholder hname]
      exact (ρ.lookup_map_key _ _).symm

theorem corresponds (text : String) (params : Params) :
    Corresponds (ofText text) (ofText (ρ.text text)) params (ρ.params params) where
  placeholders := by
    rw [placeholders_ofText_text, List.forall₂_map_right_iff]
    exact List.forall₂_same.mpr fun p hp => ρ.alike_placeholder hp
  positional := rfl

theorem expected_iff (text : String) (params : Params) :
    (∀ key ∈ (ρ.params params).named.keys,
        ∃ q ∈ (ofText (ρ.text text)).namedPlaceholders, q.key = key) ↔
      ∀ key ∈ params.named.keys, ∃ p ∈ (ofText text).namedPlaceholders, p.key = key := by
  have hkeys : (ρ.params params).named.keys = params.named.keys.map ρ.key := by
    rw [OrderedMap.keys, OrderedMap.keys, Renaming.params, List.map_map, List.map_map]
    rfl
  have hkey : ∀ p ∈ (ofText text).namedPlaceholders, (ρ.placeholder p).key = ρ.key p.key :=
    fun p hp => ρ.key_placeholder (Template.isName_of_mem_named hp)
  rw [hkeys, namedPlaceholders_ofText_text, List.forall_mem_map]
  constructor
  · intro h key hmem
    obtain ⟨q, hq, hqkey⟩ := h key hmem
    obtain ⟨p, hp, rfl⟩ := List.mem_map.mp hq
    rw [hkey p hp] at hqkey
    exact ⟨p, hp, ρ.key_injective hqkey⟩
  · intro h key hmem
    obtain ⟨p, hp, rfl⟩ := h key hmem
    exact ⟨_, List.mem_map_of_mem hp, hkey p hp⟩

end Renaming

/-- A template with new names resolves under the new keys just as the old one under the old keys. -/
theorem Adapter.resolve_renamed (a : Adapter) (ρ : Renaming) (text : String) (params : Params)
    (sql : String) :
    a.resolve (ofText (ρ.text text)) (ρ.params params) = .ok sql ↔
      a.resolve (ofText text) params = .ok sql := by
  have hweave : ∀ texts, Piece.weave texts (ofText (ρ.text text)).pieces =
      Piece.weave texts (ofText text).pieces := by
    intro texts
    rw [ρ.ofText_text, ρ.weave_map_piece]
  have hcorresponds := ρ.corresponds text params
  have hexpected := ρ.expected_iff text params
  constructor
  · exact resolve_of_corresponds hcorresponds.symm hexpected.mp fun texts => (hweave texts).symm
  · exact resolve_of_corresponds hcorresponds hexpected.mpr hweave

end SqlTemplate
