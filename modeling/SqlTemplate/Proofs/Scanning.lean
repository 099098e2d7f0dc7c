import Mathlib.Data.List.Pairwise
import Mathlib.Data.String.Basic
import SqlTemplate.Proofs.Grammar

/-!
Which stretches of a text become tokens. `Scanned` says it of a list of tokens without a word about
scanning: by the bytes where tokens start, by what they cover and by their order. Scanning gives the
one list of this kind (`tokens_eq_iff_scanned`).
-/

namespace SqlTemplate

open String (utf8Len)

/-! ### Places in a text -/

theorem append_of_utf8Len_le {left right left' right' : List Char}
    (heq : left ++ right = left' ++ right') (hle : utf8Len left ≤ utf8Len left') :
    ∃ middle, left' = left ++ middle ∧ right = middle ++ right' := by
  obtain ⟨middle, hleft, hright⟩ | ⟨middle, hleft, hright⟩ := List.append_eq_append_iff.mp heq
  · exact ⟨middle, hleft, hright⟩
  · have hempty : middle = [] := by
      rw [hleft, String.utf8Len_append] at hle
      exact String.utf8Len_eq_zero.mp (by omega)
    subst hempty
    exact ⟨[], by simpa using hleft.symm, by simpa using hright.symm⟩

theorem split_unique {left right left' right' : List Char}
    (heq : left ++ right = left' ++ right') (hlen : utf8Len left = utf8Len left') :
    left = left' ∧ right = right' := by
  obtain ⟨middle, hleft, hright⟩ := append_of_utf8Len_le heq hlen.le
  have hempty : middle = [] := by
    rw [hleft, String.utf8Len_append] at hlen
    exact String.utf8Len_eq_zero.mp (by omega)
  subst hempty
  exact ⟨by simpa using hleft.symm, by simpa using hright⟩

/-- Whether the last character is a colon, where `afterColon` answers for an empty text. -/
def endsInColon (afterColon : Bool) (cs : List Char) : Bool :=
  cs.foldl (fun _ c => c == ':') afterColon

theorem endsInColon_append (afterColon : Bool) (cs ds : List Char) :
    endsInColon afterColon (cs ++ ds) = endsInColon (endsInColon afterColon cs) ds :=
  List.foldl_append

theorem endsInColon_eq_true_iff {cs : List Char} :
    endsInColon false cs = true ↔ cs.getLast? = some ':' := by
  obtain rfl | ⟨init, c, rfl⟩ := List.eq_nil_or_concat cs <;> simp [endsInColon]

namespace Placeholder

theorem endsInColon_name (afterColon : Bool) {name : List Char} (hname : IsName name) :
    endsInColon afterColon name = false := by
  obtain hnil | ⟨init, c, rfl⟩ := List.eq_nil_or_concat name
  · exact absurd hnil hname.1
  · have hc : isNameChar c = true := hname.2 c (by simp)
    have hcolon : c ≠ ':' := by
      rintro rfl
      exact absurd hc (by decide)
    simp [endsInColon, hcolon]

theorem Reads.endsInColon_raw {cs rest : List Char} {p : Placeholder} (h : Reads cs p rest)
    (afterColon : Bool) : endsInColon afterColon p.raw.toList = false := by
  cases h with
  | positional => rfl
  | @bare modifier name _ hname _ _ =>
    simp only [ofParts, write, braced, String.toList_ofList, List.append_nil, ← List.cons_append,
      endsInColon_append, endsInColon_name _ hname]
  | @block modifier name body _ hname _ _ =>
    simp only [ofParts, write, braced, String.toList_ofList, ← List.cons_append,
      ← List.append_assoc, endsInColon_append]
    rfl

theorem Opens.head?_ne {cs : List Char} (h : Opens cs) : cs.head? ≠ some ':' := by
  obtain ⟨rest, rfl⟩ | ⟨modifier, c, rest, hc, rfl⟩ := h
  · simp
  · have hcolon : c ≠ ':' := by
      rintro rfl
      exact absurd hc (by decide)
    cases modifier <;> simp [Modifier.symbol, hcolon]

end Placeholder

/-! ### The tokens of a scan -/

namespace Token

open Placeholder (Reads Opens)

theorem start_le_stop_of_mem {offset : Nat} {pieces : List Piece} {t : Token}
    (ht : t ∈ ofPieces offset pieces) : offset ≤ t.start ∧ t.start ≤ t.stop := by
  induction pieces generalizing offset with
  | nil => cases ht
  | cons piece pieces ih =>
    cases piece with
    | literal c =>
      have hrest := ih ht
      omega
    | placeholder p =>
      obtain rfl | ht := List.mem_cons.mp ht
      · simp
      · have hrest := ih ht
        omega

theorem pairwise_ofPieces (offset : Nat) (pieces : List Piece) :
    (ofPieces offset pieces).Pairwise fun t t' => t.stop ≤ t'.start := by
  induction pieces generalizing offset with
  | nil => exact .nil
  | cons piece pieces ih =>
    cases piece with
    | literal c => exact ih _
    | placeholder p => exact .cons (fun t ht => (start_le_stop_of_mem ht).1) (ih _)

/-- Each token of a scan is a placeholder of the grammar, at a colon that follows no other. -/
theorem exists_reads_of_mem {afterColon : Bool} {cs : List Char} {offset : Nat} {t : Token}
    (ht : t ∈ ofPieces offset (Piece.scan afterColon cs)) :
    ∃ before after rest, cs = before ++ ':' :: after ∧ endsInColon afterColon before = false ∧
      t.start = offset + utf8Len before ∧ t.stop = t.start + utf8Len t.placeholder.raw.toList ∧
      Reads after t.placeholder rest := by
  fun_induction Piece.scan afterColon cs generalizing offset with
  | case1 => cases ht
  | case2 afterColon c cs hcolon p rest hread ih =>
    obtain ⟨rfl, rfl⟩ : c = ':' ∧ afterColon = false := by simpa using hcolon
    have hreads := Placeholder.reads_of_read_eq hread
    obtain rfl | ht := List.mem_cons.mp ht
    · exact ⟨[], cs, rest, rfl, rfl, rfl, by simp, hreads⟩
    · obtain ⟨before, after, rest', hrest, hbefore, hstart, hstop, hreads'⟩ := ih ht
      refine ⟨p.raw.toList ++ before, after, rest', ?_, ?_, ?_, hstop, hreads'⟩
      · rw [List.append_assoc, ← hrest, hreads.raw_append]
      · rw [endsInColon_append, hreads.endsInColon_raw, hbefore]
      · simp [hstart, Nat.add_assoc]
  | case3 afterColon c cs hcolon hread ih =>
    obtain ⟨before, after, rest, rfl, hbefore, hstart, hstop, hreads⟩ := ih ht
    obtain ⟨rfl, rfl⟩ : c = ':' ∧ afterColon = false := by simpa using hcolon
    refine ⟨':' :: before, after, rest, rfl, hbefore, ?_, hstop, hreads⟩
    rw [hstart, String.utf8Len_cons]
    omega
  | case4 afterColon c cs hcolon ih =>
    obtain ⟨before, after, rest, rfl, hbefore, hstart, hstop, hreads⟩ := ih ht
    refine ⟨c :: before, after, rest, rfl, hbefore, ?_, hstop, hreads⟩
    rw [hstart, String.utf8Len_cons]
    omega

/-- A colon that follows no other and opens a placeholder starts a token, unless it lies in one. -/
theorem exists_mem_of_opens {afterColon : Bool} {cs before after : List Char} {offset : Nat}
    (hcs : cs = before ++ ':' :: after) (hbefore : endsInColon afterColon before = false)
    (hopens : Opens after)
    (hfree : ∀ t ∈ ofPieces offset (Piece.scan afterColon cs),
      t.start < offset + utf8Len before → t.stop ≤ offset + utf8Len before) :
    ∃ t ∈ ofPieces offset (Piece.scan afterColon cs), t.start = offset + utf8Len before := by
  fun_induction Piece.scan afterColon cs generalizing offset before with
  | case1 => simp at hcs
  | case2 afterColon c cs hcolon p rest hread ih =>
    obtain ⟨rfl, rfl⟩ : c = ':' ∧ afterColon = false := by simpa using hcolon
    have hreads := Placeholder.reads_of_read_eq hread
    obtain rfl | hne := eq_or_ne before []
    · exact ⟨_, List.mem_cons_self, rfl⟩
    · -- The token that starts here ends before the colon in question.
      have hpos : 0 < utf8Len before :=
        Nat.pos_of_ne_zero fun hzero => hne (String.utf8Len_eq_zero.mp hzero)
      have hle : utf8Len p.raw.toList ≤ utf8Len before := by
        have hstop := hfree _ List.mem_cons_self (by simpa using hpos)
        simpa using hstop
      rw [← hreads.raw_append] at hcs
      obtain ⟨middle, rfl, hrest⟩ := append_of_utf8Len_le hcs hle
      rw [endsInColon_append, hreads.endsInColon_raw] at hbefore
      simp only [String.utf8Len_append, String.utf8Len_toList, ← Nat.add_assoc] at hfree ⊢
      obtain ⟨t, ht, hstart⟩ := ih hrest hbefore fun t ht =>
        hfree t (List.mem_cons_of_mem _ ht)
      exact ⟨t, List.mem_cons_of_mem _ ht, hstart⟩
  | case3 afterColon c cs hcolon hread ih =>
    cases before with
    | nil =>
      obtain ⟨rfl, rfl⟩ := List.cons.inj hcs
      have hsome := Placeholder.isSome_read_iff.mpr hopens
      rw [hread] at hsome
      cases hsome
    | cons d before =>
      obtain ⟨rfl, rfl⟩ := List.cons.inj hcs
      obtain ⟨rfl, rfl⟩ : c = ':' ∧ afterColon = false := by simpa using hcolon
      have hlen : offset + utf8Len (':' :: before) =
          offset + Char.utf8Size ':' + utf8Len before := by
        rw [String.utf8Len_cons]
        omega
      rw [hlen] at hfree ⊢
      exact ih rfl hbefore hfree
  | case4 afterColon c cs hcolon ih =>
    cases before with
    | nil =>
      obtain ⟨rfl, rfl⟩ := List.cons.inj hcs
      have hbefore : afterColon = false := hbefore
      simp [hbefore] at hcolon
    | cons d before =>
      obtain ⟨rfl, rfl⟩ := List.cons.inj hcs
      have hlen : offset + utf8Len (c :: before) = offset + c.utf8Size + utf8Len before := by
        rw [String.utf8Len_cons]
        omega
      rw [hlen] at hfree ⊢
      exact ih rfl hbefore hfree

end Token

/-- The tokens are the placeholders of the text, from left to right and each as long as can be. -/
structure Scanned (text : String) (tokens : List Token) : Prop where
  /-- A token starts at a colon that lies in no earlier token, touches no other colon and is
  followed by what opens a placeholder. -/
  starts (i : Nat) : (∃ t ∈ tokens, t.start = i) ↔
    ∃ before after, text.toList = before ++ ':' :: after ∧ utf8Len before = i ∧
      (∀ t ∈ tokens, t.start < i → t.stop ≤ i) ∧
      before.getLast? ≠ some ':' ∧ after.head? ≠ some ':' ∧ Placeholder.Opens after
  covers : ∀ t ∈ tokens, ∃ before after rest, text.toList = before ++ ':' :: after ∧
    ':' :: after = t.placeholder.raw.toList ++ rest ∧ Placeholder.Reads after t.placeholder rest ∧
    t.start = utf8Len before ∧ t.stop = utf8Len (before ++ t.placeholder.raw.toList)
  ordered : tokens.Pairwise fun t t' => t.stop ≤ t'.start

namespace Scanned

variable {text : String} {tokens tokens' : List Token}

theorem start_lt_stop (h : Scanned text tokens) {t : Token} (ht : t ∈ tokens) :
    t.start < t.stop := by
  obtain ⟨before, after, rest, -, -, hreads, hstart, hstop⟩ := h.covers t ht
  have hne : t.placeholder.raw.toList ≠ [] := Placeholder.raw_ne_nil_of_read hreads.read_eq
  have hpos := Nat.pos_of_ne_zero fun hzero => hne (String.utf8Len_eq_zero.mp hzero)
  rw [String.utf8Len_append] at hstop
  omega

theorem nodup (h : Scanned text tokens) : tokens.Nodup := by
  refine List.Pairwise.imp_of_mem ?_ h.ordered
  rintro t t' ht - hle rfl
  have hlt := h.start_lt_stop ht
  omega

theorem eq_of_start_eq (h : Scanned text tokens) (h' : Scanned text tokens') {t t' : Token}
    (ht : t ∈ tokens) (ht' : t' ∈ tokens') (hstart : t.start = t'.start) : t = t' := by
  obtain ⟨before, after, rest, htext, -, hreads, hs, he⟩ := h.covers t ht
  obtain ⟨before', after', rest', htext', -, hreads', hs', he'⟩ := h'.covers t' ht'
  obtain ⟨rfl, hafter⟩ := split_unique (htext.symm.trans htext') (by omega)
  cases hafter
  obtain ⟨hplaceholder, -⟩ := hreads.unique hreads'
  rw [hplaceholder] at he
  cases t
  cases t'
  simp_all

theorem mem_of_mem (h : Scanned text tokens) (h' : Scanned text tokens') (t : Token)
    (ht : t ∈ tokens) (hearlier : ∀ t', t'.start < t.start → t' ∈ tokens' → t' ∈ tokens) :
    t ∈ tokens' := by
  obtain ⟨before, after, htext, hlen, hfree, hends⟩ := (h.starts t.start).mp ⟨t, ht, rfl⟩
  have hfree' : ∀ t' ∈ tokens', t'.start < t.start → t'.stop ≤ t.start :=
    fun t' ht' hlt => hfree t' (hearlier t' hlt ht') hlt
  obtain ⟨t', ht', hstart⟩ :=
    (h'.starts t.start).mpr ⟨before, after, htext, hlen, hfree', hends⟩
  rwa [h.eq_of_start_eq h' ht ht' hstart.symm]

theorem mem_iff (h : Scanned text tokens) (h' : Scanned text tokens') (t : Token) :
    t ∈ tokens ↔ t ∈ tokens' := by
  induction hstart : t.start using Nat.strong_induction_on generalizing t with
  | _ i ih =>
    subst hstart
    exact ⟨fun ht => h.mem_of_mem h' t ht fun t' hlt => (ih _ hlt t' rfl).mpr,
      fun ht => h'.mem_of_mem h t ht fun t' hlt => (ih _ hlt t' rfl).mp⟩

theorem unique (h : Scanned text tokens) (h' : Scanned text tokens') : tokens = tokens' := by
  have hperm : tokens.Perm tokens' :=
    (List.perm_ext_iff_of_nodup h.nodup h'.nodup).mpr fun t => h.mem_iff h' t
  refine hperm.eq_of_pairwise ?_ h.ordered h'.ordered
  intro t t' ht ht' hle hle'
  have hlt := h.start_lt_stop ht
  have hlt' := h'.start_lt_stop ht'
  omega

end Scanned

namespace Template

theorem stop_le_or_le_of_mem {t : Template} {u u' : Token} (hu : u ∈ t.tokens)
    (hu' : u' ∈ t.tokens) (hne : u ≠ u') : u.stop ≤ u'.start ∨ u'.stop ≤ u.start := by
  have hsymm : Std.Symm fun u u' : Token => u.stop ≤ u'.start ∨ u'.stop ≤ u.start :=
    { symm := fun _ _ h => h.symm }
  have hordered := (Token.pairwise_ofPieces 0 t.pieces).imp
    fun {u u' : Token} (h : u.stop ≤ u'.start) => (Or.inl h : _ ∨ u'.stop ≤ u.start)
  exact hordered.forall hu hu' hne

theorem scanned_ofText (text : String) : Scanned text (ofText text).tokens where
  starts i := by
    constructor
    · rintro ⟨t, ht, rfl⟩
      obtain ⟨before, after, rest, htext, hbefore, hstart, -, hreads⟩ :=
        Token.exists_reads_of_mem ht
      have hopens : Placeholder.Opens after :=
        Placeholder.isSome_read_iff.mp (by rw [hreads.read_eq]; rfl)
      refine ⟨before, after, htext, by omega, ?_, ?_, hopens.head?_ne, hopens⟩
      · intro t' ht' hlt
        have hne : t' ≠ t := fun heq => by simp [heq] at hlt
        have hle := (Token.start_le_stop_of_mem ht).2
        have hapart := stop_le_or_le_of_mem ht' ht hne
        omega
      · intro hlast
        rw [endsInColon_eq_true_iff.mpr hlast] at hbefore
        cases hbefore
    · rintro ⟨before, after, htext, rfl, hfree, hlast, -, hopens⟩
      have hbefore : endsInColon false before = false :=
        Bool.eq_false_iff.mpr fun htrue => hlast (endsInColon_eq_true_iff.mp htrue)
      rw [← Nat.zero_add (utf8Len before)] at hfree ⊢
      exact Token.exists_mem_of_opens htext hbefore hopens hfree
  covers t ht := by
    obtain ⟨before, after, rest, htext, -, hstart, hstop, hreads⟩ := Token.exists_reads_of_mem ht
    refine ⟨before, after, rest, htext, hreads.raw_append.symm, hreads, by omega, ?_⟩
    rw [String.utf8Len_append]
    omega
  ordered := Token.pairwise_ofPieces 0 _

theorem exists_reads_of_mem {text : String} {p : Placeholder}
    (hp : p ∈ (ofText text).placeholders) : ∃ cs rest, Placeholder.Reads cs p rest := by
  rw [← map_placeholder_tokens] at hp
  obtain ⟨t, ht, rfl⟩ := List.mem_map.mp hp
  obtain ⟨-, after, rest, -, -, -, -, hreads⟩ := Token.exists_reads_of_mem ht
  exact ⟨after, rest, hreads⟩

theorem mem_placeholders_of_mem_named {t : Template} {p : Placeholder}
    (hp : p ∈ t.namedPlaceholders) : p ∈ t.placeholders ∧ p.isPositional = false := by
  simpa [namedPlaceholders] using hp

theorem isName_of_mem_named {text : String} {p : Placeholder}
    (hp : p ∈ (ofText text).namedPlaceholders) : Placeholder.IsName p.name.toList := by
  obtain ⟨hmem, hnamed⟩ := mem_placeholders_of_mem_named hp
  obtain ⟨cs, rest, hreads⟩ := exists_reads_of_mem hmem
  exact hreads.isName hnamed

theorem eq_of_raw_eq {text : String} {p q : Placeholder} (hp : p ∈ (ofText text).placeholders)
    (hq : q ∈ (ofText text).placeholders) (hraw : p.raw = q.raw) : p = q := by
  obtain ⟨cs, rest, hreads⟩ := exists_reads_of_mem hp
  obtain ⟨cs', rest', hreads'⟩ := exists_reads_of_mem hq
  exact hreads.eq_of_raw_eq hreads' hraw

end Template

/-- Scanning gives the placeholders of the grammar and nothing else, and a colon next to another one
starts none. -/
theorem tokens_eq_iff_scanned (text : String) (tokens : List Token) :
    ((Template.ofText text).tokens = tokens ↔ Scanned text tokens) ∧
      ∀ before after, text.toList = before ++ ':' :: ':' :: after →
        ∀ t ∈ (Template.ofText text).tokens,
          t.start ≠ utf8Len before ∧ t.start ≠ utf8Len before + 1 := by
  have hscanned := Template.scanned_ofText text
  refine ⟨⟨fun heq => heq ▸ hscanned, fun h => hscanned.unique h⟩, ?_⟩
  intro before after htext t ht
  obtain ⟨before', after', htext', hlen, -, hlast, hhead, -⟩ :=
    (hscanned.starts t.start).mp ⟨t, ht, rfl⟩
  constructor
  · intro hstart
    obtain ⟨-, hafter⟩ := split_unique (htext'.symm.trans htext) (by omega)
    cases hafter
    exact hhead rfl
  · intro hstart
    have hsecond : text.toList = (before ++ [':']) ++ ':' :: after := by simpa using htext
    have hcolon : utf8Len (before ++ [':']) = utf8Len before + 1 := by
      rw [String.utf8Len_append]
      rfl
    obtain ⟨rfl, -⟩ := split_unique (htext'.symm.trans hsecond) (by omega)
    simp at hlast

theorem scanned_after_cast : Scanned "x::int :a:b" [⟨7, 9, ⟨":a", .plain, "a", none⟩⟩,
    ⟨9, 11, ⟨":b", .plain, "b", none⟩⟩] := by
  exact (tokens_eq_iff_scanned _ _).1.mp (by decide +kernel)

end SqlTemplate
