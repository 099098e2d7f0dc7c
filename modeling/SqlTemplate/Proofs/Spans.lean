import SqlTemplate.Proofs.Resolution
import SqlTemplate.Proofs.Rounds

/-!
The bytes that tokens cover. A slice of a text can only be taken between borders of characters that are
in order. Where tokens start and stop are such borders (`Spans`), so putting texts in the places of
tokens slice by slice never fails on a slice, and does the same as going from piece to piece
(`spliceSlices_tokens`). A resolution that comes so far has a text for every token
(`SplicesWith.complete`).
-/

namespace SqlTemplate

open String (utf8Len)
open Template (ofText)

/-! ### Slices -/

/-- The byte stands between two characters, or at an end of the text. -/
def IsBorder (text : String) (place : Nat) : Prop := String.Pos.Raw.IsValid text ⟨place⟩

/-- The text between two bytes, which have to be borders of characters and in order. -/
def slice? (text : String) (start stop : Nat) : Option String :=
  if start ≤ stop ∧ String.Pos.Raw.isValid text ⟨start⟩ ∧ String.Pos.Raw.isValid text ⟨stop⟩ then
    some (between text start stop)
  else none

theorem isBorder_of_append {text : String} {left right : List Char}
    (htext : text.toList = left ++ right) : IsBorder text (utf8Len left) := by
  apply String.Pos.Raw.isValid_iff_exists_append.mpr
  refine ⟨String.ofList left, String.ofList right, ?_, ?_⟩
  · rw [← String.ofList_append, ← htext, String.ofList_toList]
  · rw [String.Pos.Raw.ext_iff, String.byteIdx_rawEndPos, ← String.utf8Len_toList,
      String.toList_ofList]

theorem slice?_eq_some_iff {text part : String} {start stop : Nat} :
    slice? text start stop = some part ↔
      start ≤ stop ∧ IsBorder text start ∧ IsBorder text stop ∧ between text start stop = part := by
  unfold slice? IsBorder
  simp only [String.Pos.Raw.isValid_eq_true_iff]
  split
  · next h => simp [h]
  · next h =>
    constructor
    · intro hnone
      cases hnone
    · rintro ⟨hle, hstart, hstop, -⟩
      exact absurd ⟨hle, hstart, hstop⟩ h

theorem slice?_eq {text : String} {left middle right : List Char}
    (htext : text.toList = left ++ (middle ++ right)) :
    slice? text (utf8Len left) (utf8Len (left ++ middle)) = some (String.ofList middle) := by
  refine slice?_eq_some_iff.mpr ⟨?_, isBorder_of_append htext, ?_, between_eq htext⟩
  · rw [String.utf8Len_append]
    exact Nat.le_add_right _ _
  · exact isBorder_of_append (by rw [htext, List.append_assoc])

/-! ### Spans -/

/-- The tokens cover separate stretches of the text, one after the other, and each has the text of its
stretch for its own. -/
structure Spans (text : String) (tokens : List Token) : Prop where
  nonempty : ∀ t ∈ tokens, t.start < t.stop
  increasing : tokens.Pairwise fun t t' => t.start < t'.start
  disjoint : tokens.Pairwise fun t t' => t.stop ≤ t'.start
  inside : ∀ t ∈ tokens, t.stop ≤ text.utf8ByteSize
  borders : ∀ t ∈ tokens, IsBorder text t.start ∧ IsBorder text t.stop
  raw : ∀ t ∈ tokens, slice? text t.start t.stop = some t.placeholder.raw
  /-- The tokens and what is between them make up the text. -/
  whole : interleave text 0 (tokens.map fun t => (t, t.placeholder.raw)) = text

theorem Piece.weave_raw (pieces : List Piece) :
    weave ((pieces.filterMap placeholder?).map Placeholder.raw) pieces = pieces.flatMap chars := by
  induction pieces with
  | nil => rfl
  | cons piece pieces ih =>
    cases piece with
    | literal c =>
      rw [List.flatMap_cons, ← ih]
      cases h : (pieces.filterMap placeholder?).map Placeholder.raw <;>
        simp [List.filterMap_cons, placeholder?, weave, chars, h]
    | placeholder p =>
      rw [List.flatMap_cons, ← ih]
      rfl

namespace Template

theorem slice?_of_mem_tokens {text : String} {t : Token} (ht : t ∈ (ofText text).tokens) :
    slice? text t.start t.stop = some t.placeholder.raw := by
  obtain ⟨before, after, rest, htext, hraw, -, hstart, hstop⟩ := (scanned_ofText text).covers t ht
  rw [hraw] at htext
  rw [hstart, hstop, slice?_eq htext, String.ofList_toList]

theorem spans_tokens (text : String) : Spans text (ofText text).tokens := by
  have hscanned := scanned_ofText text
  have hraw : ∀ t ∈ (ofText text).tokens, slice? text t.start t.stop = some t.placeholder.raw :=
    fun t ht => slice?_of_mem_tokens ht
  have hnonempty : ∀ t ∈ (ofText text).tokens, t.start < t.stop :=
    fun t ht => hscanned.start_lt_stop ht
  exact
    { nonempty := hnonempty
      increasing := hscanned.ordered.imp_of_mem fun ht _ hle => (hnonempty _ ht).trans_le hle
      disjoint := hscanned.ordered
      inside := fun t ht => (slice?_eq_some_iff.mp (hraw t ht)).2.2.1.le_utf8ByteSize
      borders := fun t ht =>
        let h := slice?_eq_some_iff.mp (hraw t ht)
        ⟨h.2.1, h.2.2.1⟩
      raw := hraw
      whole := by
        have hzip : ((ofText text).tokens.map fun t => (t, t.placeholder.raw)) =
            (ofText text).tokens.zip ((ofText text).placeholders.map Placeholder.raw) := by
          rw [← map_placeholder_tokens, List.map_map]
          simpa using (@List.zip_map' _ _ _ id (Placeholder.raw ∘ Token.placeholder)
            (ofText text).tokens).symm
        rw [hzip, interleave_tokens text (List.length_map _), placeholders, Piece.weave_raw]
        exact text_ofText text }

/-! ### Splicing by slices -/

/-- The text for a placeholder, and the positional texts that are left for the next ones. -/
def replacement (table : Replacements) (positional : List String) (p : Placeholder) :
    Except Error (String × List String) :=
  if p.isPositional then
    match positional with
    | [] => .error (.missing [p.key])
    | s :: positional => .ok (s, positional)
  else
    match table.lookup p.raw with
    | none => .error (.missing [p.key])
    | some s => .ok (s, positional)

/-- Puts texts in the places of the tokens, where `last` is the byte up to which the text is dealt with.
There is no outcome at all if some slice of the text cannot be taken. -/
def spliceSlices (text : String) (table : Replacements) :
    Nat → List String → List Token → Option (Except Error String)
  | last, _, [] => (slice? text last text.utf8ByteSize).map .ok
  | last, positional, token :: tokens => do
    let gap ← slice? text last token.start
    match replacement table positional token.placeholder with
    | .error e => some (.error e)
    | .ok (s, positional) =>
      let rest ← spliceSlices text table token.stop positional tokens
      return rest.map fun rest => gap ++ s ++ rest

theorem splice_placeholder (table : Replacements) (positional : List String) (p : Placeholder)
    (pieces : List Piece) :
    splice table positional (.placeholder p :: pieces) =
      match replacement table positional p with
      | .error e => .error e
      | .ok (s, positional) => (splice table positional pieces).map (s.toList ++ ·) := by
  cases hp : p.isPositional with
  | true =>
    simp only [replacement, hp, if_true]
    cases positional with
    | nil => simp only [splice, hp, if_true]
    | cons s positional =>
      simp only [splice, hp, if_true]
      cases splice table positional pieces <;> rfl
  | false =>
    simp only [splice, replacement, hp, Bool.false_eq_true, if_false]
    cases table.lookup p.raw with
    | none => rfl
    | some s =>
      dsimp only
      cases splice table positional pieces <;> rfl

/-- What stands pending between the last token and the pieces is part of the next slice. -/
theorem spliceSlices_ofPieces {text : String} (table : Replacements) {before pending : List Char}
    (positional : List String) {pieces : List Piece}
    (htext : text.toList = before ++ (pending ++ pieces.flatMap Piece.chars)) :
    spliceSlices text table (utf8Len before) positional
        (Token.ofPieces (utf8Len (before ++ pending)) pieces) =
      some ((splice table positional pieces).map fun cs => String.ofList (pending ++ cs)) := by
  induction pieces generalizing before pending positional with
  | nil =>
    have hsize : text.utf8ByteSize = utf8Len (before ++ pending) := by
      rw [← String.utf8Len_toList, htext, List.flatMap_nil, List.append_nil]
    rw [Token.ofPieces, spliceSlices, hsize, slice?_eq htext, splice]
    simp [Except.map]
  | cons piece pieces ih =>
    cases piece with
    | literal c =>
      have hoffset : utf8Len (before ++ pending) + c.utf8Size =
          utf8Len (before ++ (pending ++ [c])) := by
        rw [← List.append_assoc, String.utf8Len_append _ [c]]
        simp
      rw [Token.ofPieces, hoffset, ih positional (by simpa [Piece.chars] using htext), splice]
      cases splice table positional pieces <;> simp [Except.map, Bind.bind, Except.bind, pure,
        Except.pure]
    | placeholder p =>
      have hstop : utf8Len (before ++ pending) + p.raw.utf8ByteSize =
          utf8Len (before ++ pending ++ p.raw.toList ++ []) := by
        rw [List.append_nil, String.utf8Len_append _ p.raw.toList, String.utf8Len_toList]
      have hgap : slice? text (utf8Len before) (utf8Len (before ++ pending)) =
          some (String.ofList pending) := slice?_eq htext
      have hrest := fun positional => @ih (before ++ pending ++ p.raw.toList) [] positional
        (by simpa [Piece.chars] using htext)
      rw [Token.ofPieces, hstop, spliceSlices, hgap, splice_placeholder]
      simp only [List.append_nil] at hrest ⊢
      cases replacement table positional p with
      | error e => rfl
      | ok found =>
        obtain ⟨s, positional⟩ := found
        simp only [Option.bind_eq_bind, Option.bind_some, hrest]
        cases splice table positional pieces <;>
          simp [Except.map, String.ofList_append, String.append_assoc]

/-- Every slice that is taken exists, and the slices come to what the pieces do. -/
theorem spliceSlices_tokens (text : String) (table : Replacements) (positional : List String) :
    spliceSlices text table 0 positional (ofText text).tokens =
      some ((splice table positional (ofText text).pieces).map String.ofList) := by
  have htext : text.toList = [] ++ ([] ++ (ofText text).pieces.flatMap Piece.chars) := by
    simp [ofText, Piece.flatMap_chars_scan]
  exact spliceSlices_ofPieces table positional htext

end Template

/-! ### Resolution -/

/-- A resolution comes as far as splicing, with a table of texts for the named placeholders and a list
of texts for the others. -/
def Adapter.SplicesWith (a : Adapter) (t : Template) (params : Params) (table : Replacements)
    (positional : List String) : Prop :=
  ∃ v filled, t.validate params = .ok v ∧ v.isValid = true ∧
    t.positionalTexts a params = .ok positional ∧
    (Template.longestFirst (a.fillers params.named.entries)).foldlM (t.fillKey v) [] = .ok filled ∧
    table = t.erased v ++ filled

section SplicesWith

variable {a : Adapter} {params : Params} {table : Replacements} {positional : List String}

theorem Adapter.SplicesWith.resolve_eq {t : Template}
    (h : a.SplicesWith t params table positional) :
    a.resolve t params = (Template.splice table positional t.pieces).map String.ofList := by
  obtain ⟨v, filled, hvalidate, hvalid, hpositional, hfilled, rfl⟩ := h
  rw [resolve_eq_assemble, ← fillers_eq_map, Template.assemble, hvalidate]
  simp only [Bind.bind, Except.bind, hvalid, if_true, hpositional, hfilled]
  cases Template.splice (t.erased v ++ filled) positional t.pieces <;> rfl

theorem Template.length_positionalTexts {t : Template} (hvalid : (t.report params).missing = [])
    (h : t.positionalTexts a params = .ok positional) : positional.length = t.positionalCount := by
  unfold positionalTexts at h
  by_cases hcount : t.positionalCount = 0
  · rw [if_pos hcount] at h
    cases h
    exact hcount.symm
  · obtain ⟨items, hitems, hlength⟩ := exists_items_of_missing_eq_nil hvalid (by omega)
    rw [if_neg hcount, hitems] at h
    exact (mapM_eq_ok_iff.mp h).length_eq.symm.trans hlength

/-- Everything that splicing asks for is there: a text for each `:?` and none to spare, and one for
each named placeholder. -/
theorem Adapter.SplicesWith.complete {text : String}
    (h : a.SplicesWith (ofText text) params table positional) :
    positional.length = (ofText text).positionalCount ∧
      (∀ p ∈ (ofText text).namedPlaceholders, ∃ s, table.lookup p.raw = some s) ∧
      ∃ cs, Template.splice table positional (ofText text).pieces = .ok cs := by
  obtain ⟨v, filled, hvalidate, hvalid, hpositional, hfilled, rfl⟩ := h
  obtain ⟨-, rfl⟩ := Template.validate_eq_ok_iff.mp hvalidate
  have hmissing := Validation.isValid_iff.mp hvalid
  obtain ⟨-, hfits⟩ := (Template.fillKeys_checkedBy a text params).check_eq_ok hfilled
  have htable := fun p hp => Template.exists_lookup_of_fits (p := p) hfits hmissing hp
  refine ⟨Template.length_positionalTexts hmissing hpositional, fun p hp => ?_, ?_⟩
  · obtain ⟨s, hs, -⟩ := htable p hp
    exact ⟨s, hs⟩
  · obtain ⟨items, -, -, hcount, htexts⟩ := Template.positionalTexts_eq_ok hmissing hpositional
    have hnamed := fun p hp (hnamed : p.isPositional = false) =>
      htable p (List.mem_filter.mpr ⟨hp, by rw [hnamed]; rfl⟩)
    obtain ⟨texts, hsplice, -⟩ := splice_eq_ok hnamed htexts hcount
    exact ⟨_, hsplice⟩

end SplicesWith

/-- Scanning comes to an end, with tokens that cover stretches of the text. Slices between them can
always be taken, and a resolution that comes to taking them never lacks a text. -/
theorem Adapter.tokens_spliced_within_text (a : Adapter) (text : String) :
    (∃ last, (Scanner.start text).Runs last ∧ last.next? = none ∧
        last.found = (ofText text).tokens) ∧
      Spans text (ofText text).tokens ∧
      (∀ table positional, Template.spliceSlices text table 0 positional (ofText text).tokens =
        some ((Template.splice table positional (ofText text).pieces).map String.ofList)) ∧
      ∀ params table positional, a.SplicesWith (ofText text) params table positional →
        positional.length = (ofText text).positionalCount ∧
        (∀ p ∈ (ofText text).namedPlaceholders, ∃ s, table.lookup p.raw = some s) ∧
        ∃ sql, Template.spliceSlices text table 0 positional (ofText text).tokens =
          some (.ok sql) ∧ a.resolve (ofText text) params = .ok sql := by
  obtain ⟨last, hruns, hlast, hfound⟩ := (Scanner.start text).exists_last_round
  refine ⟨⟨last, hruns, hlast, hfound.trans (Scanner.tokens_start text)⟩,
    Template.spans_tokens text, Template.spliceSlices_tokens text, ?_⟩
  intro params table positional h
  obtain ⟨hlength, htable, cs, hcs⟩ := h.complete
  refine ⟨hlength, htable, String.ofList cs, ?_, ?_⟩
  · rw [Template.spliceSlices_tokens, hcs]
    rfl
  · rw [h.resolve_eq, hcs]
    rfl

theorem Adapter.tokens_spliced_after_accent :
    Dialect.sqlite.adapter.SplicesWith (ofText "é:a::b:? :*l\x7b*\x7dé")
        (.withPositional (.ofList [("a", .scalar (.text "ü"))]) [.scalar .null])
        [(":*l\x7b*\x7d", ""), (":a", "'ü'")] ["NULL"] ∧
      ∃ sql, Template.spliceSlices "é:a::b:? :*l\x7b*\x7dé"
          [(":*l\x7b*\x7d", ""), (":a", "'ü'")] 0 ["NULL"]
          (ofText "é:a::b:? :*l\x7b*\x7dé").tokens = some (.ok sql) ∧
        Dialect.sqlite.adapter.resolve (ofText "é:a::b:? :*l\x7b*\x7dé")
          (.withPositional (.ofList [("a", .scalar (.text "ü"))]) [.scalar .null]) = .ok sql := by
  have hsplices : Dialect.sqlite.adapter.SplicesWith (ofText "é:a::b:? :*l\x7b*\x7dé")
      (.withPositional (.ofList [("a", .scalar (.text "ü"))]) [.scalar .null])
      [(":*l\x7b*\x7d", ""), (":a", "'ü'")] ["NULL"] := by
    refine ⟨⟨[], ["*l"], [("a", ⟨":a", .plain, "a", none⟩),
      ("*l", ⟨":*l\x7b*\x7d", .optional, "l", some "*"⟩)]⟩, [(":a", "'ü'")], ?_, rfl, ?_, ?_, ?_⟩
    all_goals decide +kernel
  exact ⟨hsplices, ((tokens_spliced_within_text _ _).2.2.2 _ _ _ hsplices).2.2⟩

end SqlTemplate
