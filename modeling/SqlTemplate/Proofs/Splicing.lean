import SqlTemplate.Proofs.Scanning
import SqlTemplate.Resolution

/-!
Texts in the places of placeholders. Splicing goes from piece to piece; `interleave` says by the
bytes where tokens start and stop what comes of it, and the two agree (`interleave_tokens`).
-/

namespace SqlTemplate

open String (utf8Len)

/-- The part of a text from one byte up to another. -/
def between (text : String) (start stop : Nat) : String :=
  String.Pos.Raw.extract text ⟨start⟩ ⟨stop⟩

/-- The texts in the places of their tokens, with the template as it is between them. -/
def interleave (text : String) : Nat → List (Token × String) → String
  | last, [] => between text last text.utf8ByteSize
  | last, (token, s) :: filled =>
    between text last token.start ++ s ++ interleave text token.stop filled

/-- The pieces with a text for each placeholder. -/
def Piece.weave : List String → List Piece → List Char
  | _, [] => []
  | texts, .literal c :: pieces => c :: weave texts pieces
  | [], .placeholder _ :: pieces => weave [] pieces
  | s :: texts, .placeholder _ :: pieces => s.toList ++ weave texts pieces

/-- The texts fill the placeholders, where each `:?` takes the next item. -/
inductive Fills (a : Adapter) (params : Params) :
    List Value → List Placeholder → List String → Prop where
  | nil (items : List Value) : Fills a params items [] []
  | positional {item : Value} {items : List Value} {p : Placeholder} {ps : List Placeholder}
      {s : String} {texts : List String} (hp : p.isPositional = true)
      (hs : a.staticText ParamsOf.positionalKey item = .ok s)
      (hrest : Fills a params items ps texts) :
      Fills a params (item :: items) (p :: ps) (s :: texts)
  | named {items : List Value} {p : Placeholder} {ps : List Placeholder} {s : String}
      {texts : List String} (hp : p.isPositional = false)
      (hs : a.text (params.get? p.key) p = .ok s) (hrest : Fills a params items ps texts) :
      Fills a params items (p :: ps) (s :: texts)

/-! ### Places of tokens -/

theorem between_eq {text : String} {left middle right : List Char}
    (htext : text.toList = left ++ (middle ++ right)) :
    between text (utf8Len left) (utf8Len (left ++ middle)) = String.ofList middle := by
  have hofList : text = String.ofList (left ++ middle ++ right) := by
    rw [List.append_assoc, ← htext, String.ofList_toList]
  rw [between, hofList, String.utf8Len_append]
  exact String.extract_of_valid left middle right

/-- What stands pending between the last token and the pieces is part of the next gap. -/
theorem interleave_ofPieces {text : String} {before pending : List Char} {pieces : List Piece}
    {texts : List String} (htext : text.toList = before ++ (pending ++ pieces.flatMap Piece.chars))
    (hlength : texts.length = (pieces.filterMap Piece.placeholder?).length) :
    interleave text (utf8Len before)
        ((Token.ofPieces (utf8Len (before ++ pending)) pieces).zip texts) =
      String.ofList (pending ++ Piece.weave texts pieces) := by
  induction pieces generalizing before pending texts with
  | nil =>
    have hsize : text.utf8ByteSize = utf8Len (before ++ pending) := by
      rw [← String.utf8Len_toList, htext, List.flatMap_nil, List.append_nil]
    rw [Token.ofPieces, List.zip_nil_left, interleave, hsize, between_eq htext, Piece.weave,
      List.append_nil]
  | cons piece pieces ih =>
    cases piece with
    | literal c =>
      have hoffset : utf8Len (before ++ pending) + c.utf8Size =
          utf8Len (before ++ (pending ++ [c])) := by
        rw [← List.append_assoc, String.utf8Len_append _ [c]]
        simp
      rw [Token.ofPieces, hoffset, ih (by simpa [Piece.chars] using htext)
        (by simpa [List.filterMap_cons, Piece.placeholder?] using hlength), Piece.weave]
      simp
    | placeholder p =>
      obtain ⟨s, texts, rfl⟩ : ∃ s rest, texts = s :: rest :=
        List.exists_cons_of_length_pos (by simp [hlength, Piece.placeholder?])
      have hstop : utf8Len (before ++ pending) + p.raw.utf8ByteSize =
          utf8Len (before ++ pending ++ p.raw.toList ++ []) := by
        rw [List.append_nil, String.utf8Len_append _ p.raw.toList, String.utf8Len_toList]
      have hgap : between text (utf8Len before) (utf8Len (before ++ pending)) =
          String.ofList pending := between_eq htext
      have hrest := @ih (before ++ pending ++ p.raw.toList) [] texts
        (by simpa [Piece.chars] using htext) (by simpa [Piece.placeholder?] using hlength)
      rw [Token.ofPieces, hstop, List.zip_cons_cons, interleave, hgap]
      rw [List.append_nil] at hrest ⊢
      rw [hrest, Piece.weave]
      simp [String.ofList_append, String.append_assoc]

theorem interleave_tokens (text : String) {texts : List String}
    (hlength : texts.length = (Template.ofText text).placeholders.length) :
    interleave text 0 ((Template.ofText text).tokens.zip texts) =
      String.ofList (Piece.weave texts (Template.ofText text).pieces) := by
  have htext : text.toList = [] ++ ([] ++ (Template.ofText text).pieces.flatMap Piece.chars) := by
    simp [Template.ofText, Piece.flatMap_chars_scan]
  exact interleave_ofPieces htext hlength

/-! ### Splicing -/

variable {a : Adapter} {params : Params}

theorem Fills.length_eq {items : List Value} {ps : List Placeholder} {texts : List String}
    (h : Fills a params items ps texts) : texts.length = ps.length := by
  induction h with
  | nil => rfl
  | positional _ _ _ ih | named _ _ _ ih => rw [List.length_cons, List.length_cons, ih]

theorem fills_positional_iff {item : Value} {items : List Value} {p : Placeholder}
    {ps : List Placeholder} {s : String} {texts : List String} (hp : p.isPositional = true) :
    Fills a params (item :: items) (p :: ps) (s :: texts) ↔
      a.staticText ParamsOf.positionalKey item = .ok s ∧ Fills a params items ps texts := by
  constructor
  · intro h
    cases h with
    | positional _ hs hrest => exact ⟨hs, hrest⟩
    | named hp' => cases hp.symm.trans hp'
  · exact fun h => .positional hp h.1 h.2

theorem fills_named_iff {items : List Value} {p : Placeholder} {ps : List Placeholder} {s : String}
    {texts : List String} (hp : p.isPositional = false) :
    Fills a params items (p :: ps) (s :: texts) ↔
      a.text (params.get? p.key) p = .ok s ∧ Fills a params items ps texts := by
  constructor
  · intro h
    cases h with
    | positional hp' => cases hp.symm.trans hp'
    | named _ hs hrest => exact ⟨hs, hrest⟩
  · exact fun h => .named hp h.1 h.2

instance decidableFills : (items : List Value) → (ps : List Placeholder) → (texts : List String) →
    Decidable (Fills a params items ps texts)
  | items, [], [] => .isTrue (.nil items)
  | _, [], _ :: _ => .isFalse fun h => nomatch h
  | _, _ :: _, [] => .isFalse fun h => nomatch h
  | items, p :: ps, s :: texts =>
    match hp : p.isPositional, items with
    | false, items =>
      have := decidableFills items ps texts
      decidable_of_iff _ (fills_named_iff hp).symm
    | true, [] => .isFalse fun h => by
      cases h with
      | named hp' => cases hp.symm.trans hp'
    | true, item :: items =>
      have := decidableFills items ps texts
      decidable_of_iff _ (fills_positional_iff hp).symm

/-- The texts are determined by the parameters. -/
theorem Fills.unique {items : List Value} {ps : List Placeholder} {texts texts' : List String}
    (h : Fills a params items ps texts) (h' : Fills a params items ps texts') : texts = texts' := by
  induction h generalizing texts' with
  | nil =>
    cases h'
    rfl
  | positional hp hs _ ih =>
    obtain ⟨s', texts', rfl⟩ := List.exists_cons_of_length_eq_add_one h'.length_eq
    obtain ⟨hs', hrest'⟩ := (fills_positional_iff hp).mp h'
    cases hs.symm.trans hs'
    rw [ih hrest']
  | named hp hs _ ih =>
    obtain ⟨s', texts', rfl⟩ := List.exists_cons_of_length_eq_add_one h'.length_eq
    obtain ⟨hs', hrest'⟩ := (fills_named_iff hp).mp h'
    cases hs.symm.trans hs'
    rw [ih hrest']

theorem Fills.congr {params' : Params} {items : List Value} {ps : List Placeholder}
    {texts : List String} (h : Fills a params items ps texts)
    (hsame : ∀ p ∈ ps, p.isPositional = false →
      a.text (params.get? p.key) p = a.text (params'.get? p.key) p) :
    Fills a params' items ps texts := by
  induction h with
  | nil items => exact .nil items
  | positional hp hs _ ih => exact .positional hp hs (ih (List.forall_mem_cons.mp hsame).2)
  | named hp hs _ ih =>
    obtain ⟨htext, hsame⟩ := List.forall_mem_cons.mp hsame
    exact .named hp ((htext hp).symm.trans hs) (ih hsame)

theorem Fills.text_eq_of_mem_zip {items : List Value} {ps : List Placeholder}
    {texts : List String} (h : Fills a params items ps texts) {p : Placeholder} {s : String}
    (hmem : (p, s) ∈ ps.zip texts) (hp : p.isPositional = false) :
    a.text (params.get? p.key) p = .ok s := by
  induction h with
  | nil items => cases hmem
  | positional hq _ _ ih =>
    obtain heq | hmem := List.mem_cons.mp hmem
    · cases heq
      cases hp.symm.trans hq
    · exact ih hmem
  | named _ hs _ ih =>
    obtain heq | hmem := List.mem_cons.mp hmem
    · cases heq
      exact hs
    · exact ih hmem

/-- A table that has every named placeholder and an item for each `:?` leave nothing open. -/
theorem splice_eq_ok {table : Replacements} {items : List Value} {positional : List String}
    {pieces : List Piece}
    (htable : ∀ p ∈ pieces.filterMap Piece.placeholder?, p.isPositional = false →
      ∃ s, table.lookup p.raw = some s ∧ a.text (params.get? p.key) p = .ok s)
    (hitems : List.Forall₂ (fun item s => a.staticText ParamsOf.positionalKey item = .ok s) items
      positional)
    (hcount : (pieces.filterMap Piece.placeholder?).countP Placeholder.isPositional ≤
      items.length) :
    ∃ texts, Template.splice table positional pieces = .ok (Piece.weave texts pieces) ∧
      Fills a params items (pieces.filterMap Piece.placeholder?) texts := by
  induction pieces generalizing items positional with
  | nil => exact ⟨[], rfl, .nil items⟩
  | cons piece pieces ih =>
    cases piece with
    | literal c =>
      obtain ⟨texts, hsplice, hfills⟩ := ih htable hitems hcount
      refine ⟨texts, ?_, hfills⟩
      rw [Template.splice, hsplice, Piece.weave]
      rfl
    | placeholder p =>
      have hplaceholders : (Piece.placeholder p :: pieces).filterMap Piece.placeholder? =
          p :: pieces.filterMap Piece.placeholder? := rfl
      rw [hplaceholders] at htable hcount ⊢
      have htable' := fun q hq => htable q (List.mem_cons_of_mem p hq)
      cases hp : p.isPositional with
      | true =>
        rw [List.countP_cons_of_pos hp] at hcount
        cases hitems with
        | nil => simp at hcount
        | @cons item s items positional hs hitems =>
          rw [List.length_cons] at hcount
          obtain ⟨texts, hsplice, hfills⟩ := ih htable' hitems (by omega)
          refine ⟨s :: texts, ?_, .positional hp hs hfills⟩
          simp only [Template.splice, hp, if_true, hsplice, Piece.weave]
          rfl
      | false =>
        rw [List.countP_cons_of_neg (by simp [hp])] at hcount
        obtain ⟨s, hlookup, hs⟩ := htable p List.mem_cons_self hp
        obtain ⟨texts, hsplice, hfills⟩ := ih htable' hitems hcount
        refine ⟨s :: texts, ?_, .named hp hs hfills⟩
        simp only [Template.splice, hp, Bool.false_eq_true, if_false, hlookup, hsplice, Piece.weave]
        rfl

end SqlTemplate
