import SqlTemplate.Proofs.Lexing
import SqlTemplate.Proofs.Resolution

/-!
Whether values change how the text of their template is read. A literal is read from where the
template put it, so two runs over one template stand in code at the same placeholders, as long as no
literal joins the text around it to another token (`inCode_iff_apart`). Nothing keeps literals from
doing so: the sign of a number after a dash makes a comment of the text that follows
(`inCode_changed_by_joins`).
-/

namespace SqlTemplate

open Lexer (Mode Kind Shape run)
open Template (ofText)

/-- Where the text of a placeholder stands in a resolved text. -/
structure Site where
  before : List Char
  inserted : List Char
  after : List Char
deriving DecidableEq, Repr

namespace Site

/-- The inserted text starts and ends in plain code. -/
structure InCode (site : Site) : Prop where
  starts : (run .code site.before).InCode (site.inserted ++ site.after)
  ends : (run .code (site.before ++ site.inserted)).InCode site.after

/-- The inserted text makes no other token with what stands around it. -/
structure Apart (site : Site) : Prop where
  sign : site.before.getLast? = some '-' → site.inserted.head? ≠ some '-'
  opening : site.before.getLast? = some '\'' → site.inserted.head? ≠ some '\''
  closing : site.inserted.getLast? = some '\'' → site.after.head? ≠ some '\''

variable {site : Site}

instance : Decidable site.InCode :=
  decidable_of_iff (_ ∧ _) ⟨fun h => ⟨h.1, h.2⟩, fun h => ⟨h.starts, h.ends⟩⟩

instance : Decidable site.Apart :=
  decidable_of_iff (_ ∧ _ ∧ _) ⟨fun h => ⟨h.1, h.2.1, h.2.2⟩, fun h => ⟨h.sign, h.opening, h.closing⟩⟩

theorem InCode.apart (h : site.InCode) (hshape : Shape site.inserted) : site.Apart where
  sign hlast hhead := by
    have hdash := Lexer.run_eq_dash_of_getLast? hlast h.starts.1
    have houtside := h.ends.1
    rw [Lexer.run_append, hdash, hshape.run_dash hhead] at houtside
    cases houtside
  opening hlast hhead := by
    have hquote := Lexer.isQuote_run_of_getLast? hlast h.starts.1
    apply h.starts.2 hquote
    rw [List.head?_append, hhead]
    rfl
  closing hlast := by
    have hlast' : (site.before ++ site.inserted).getLast? = some '\'' := by
      rw [List.getLast?_append, hlast]
      rfl
    exact h.ends.2 (Lexer.isQuote_run_of_getLast? hlast' h.ends.1)

/-- From code, a literal apart from the text around it leads back into code. -/
theorem Apart.isSettled_run (h : site.Apart) (hshape : Shape site.inserted)
    (houtside : (run .code site.before).isOutside = true) :
    (run .code (site.before ++ site.inserted)).isSettled = true := by
  rw [Lexer.run_append]
  apply hshape.isSettled_run houtside
  · exact fun hdash => h.sign (Lexer.getLast?_of_run_eq_dash hdash)
  · exact fun hquote => h.opening (Lexer.getLast?_of_isQuote_run hquote)

theorem Apart.inCode (h : site.Apart) (hshape : Shape site.inserted)
    (houtside : (run .code site.before).isOutside = true) : site.InCode where
  starts := by
    refine ⟨houtside, fun hquote => ?_⟩
    rw [List.head?_append_of_ne_nil _ hshape.ne_nil]
    exact h.opening (Lexer.getLast?_of_isQuote_run hquote)
  ends := by
    have hsettled := h.isSettled_run hshape houtside
    refine ⟨Mode.isOutside_of_isSettled hsettled, fun hquote => ?_⟩
    have hlast := Lexer.getLast?_of_isQuote_run hquote
    rw [List.getLast?_append_of_ne_nil _ hshape.ne_nil] at hlast
    exact h.closing hlast

end Site

namespace Piece

/-- The places of the texts, where `before` stands before the pieces. -/
def sites (before : List Char) : List String → List Piece → List Site
  | _, [] => []
  | texts, .literal c :: pieces => sites (before ++ [c]) texts pieces
  | [], .placeholder _ :: pieces => sites before [] pieces
  | s :: texts, .placeholder _ :: pieces =>
    ⟨before, s.toList, weave texts pieces⟩ :: sites (before ++ s.toList) texts pieces

theorem weave_of_mem_sites {before : List Char} {texts : List String} {pieces : List Piece}
    {site : Site} (h : site ∈ sites before texts pieces) :
    before ++ weave texts pieces = site.before ++ site.inserted ++ site.after := by
  fun_induction sites before texts pieces with
  | case1 => cases h
  | case2 before texts c pieces ih =>
    rw [← ih h]
    cases texts <;> simp [weave]
  | case3 before _ pieces ih => exact ih h
  | case4 before s texts _ pieces ih =>
    obtain rfl | h := List.mem_cons.mp h
    · rw [weave, List.append_assoc]
    · rw [← ih h, weave, List.append_assoc]

/-- Each placeholder has its place. -/
theorem map_inserted_sites {before : List Char} {texts : List String} {pieces : List Piece}
    (hlength : texts.length = (pieces.filterMap placeholder?).length) :
    (sites before texts pieces).map Site.inserted = texts.map String.toList := by
  fun_induction sites before texts pieces with
  | case1 before texts =>
    rw [List.eq_nil_of_length_eq_zero hlength]
    rfl
  | case2 before texts c pieces ih => exact ih hlength
  | case3 before p pieces => cases hlength
  | case4 before s texts p pieces ih =>
    rw [List.map_cons, List.map_cons, ih (Nat.succ.inj hlength)]

/-- The pieces start with a string that has escapes. -/
def startsEscape : List Piece → Bool
  | .literal c :: .literal '\'' :: _ => c == 'E' || c == 'e'
  | _ => false

/-- No placeholder touches a string of the template that has escapes. -/
def clearOfEscapes : List Piece → Bool
  | [] => true
  | .literal _ :: pieces => clearOfEscapes pieces
  | .placeholder _ :: pieces => !startsEscape pieces && clearOfEscapes pieces

end Piece

/-! ### Two runs over one template -/

/-- Where the lexer stands in two runs with these pieces to come. -/
inductive Abreast : Mode → Mode → List Piece → Prop where
  | same (m : Mode) (pieces : List Piece) : Abreast m m pieces
  /-- Both have just read a literal. -/
  | settled {m m' : Mode} {pieces : List Piece} (hm : m.isSettled = true)
      (hm' : m'.isSettled = true)
      (hquote : ∀ rest, pieces = .literal '\'' :: rest → m.isQuote = false ∧ m'.isQuote = false)
      (hescape : Piece.startsEscape pieces = false) : Abreast m m' pieces
  /-- Both have read an `E` after a literal, which went on with a word or began one. -/
  | inWord {m m' : Mode} {pieces : List Piece} (hm : m.isInWord = true)
      (hm' : m'.isInWord = true) (hquote : ∀ rest, pieces ≠ .literal '\'' :: rest) :
      Abreast m m' pieces

namespace Abreast

variable {m m' : Mode} {pieces : List Piece}

/-- A character of the template keeps the two runs abreast. -/
theorem next {c : Char} (h : Abreast m m' (.literal c :: pieces)) :
    Abreast (m.next (.of c)) (m'.next (.of c)) pieces := by
  cases h with
  | same => exact .same _ _
  | settled hm hm' hquote hescape =>
    by_cases hkind : Kind.of c = .escape
    · rw [hkind]
      apply Abreast.inWord
      · exact Mode.isInWord_next_escape (Mode.isOutside_of_isSettled hm)
      · exact Mode.isInWord_next_escape (Mode.isOutside_of_isSettled hm')
      · rintro rest rfl
        obtain rfl | rfl := Kind.of_eq_escape_iff.mp hkind <;> cases hescape
    · have hquote' : Kind.of c = .quote → m.isQuote = false ∧ m'.isQuote = false := by
        intro hkind
        rw [Kind.of_eq_quote_iff.mp hkind] at hquote
        exact hquote pieces rfl
      rw [Mode.next_eq_next_of_isSettled hm hm' hkind hquote']
      exact .same _ _
  | inWord hm hm' hquote =>
    have hkind : Kind.of c ≠ .quote := by
      intro hkind
      rw [Kind.of_eq_quote_iff.mp hkind] at hquote
      exact hquote pieces rfl
    rw [Mode.next_eq_next_of_isInWord hm hm' hkind]
    exact .same _ _

theorem isOutside (h : Abreast m m' pieces) (houtside : m.isOutside = true) :
    m'.isOutside = true := by
  cases h with
  | same => exact houtside
  | settled _ hm' _ _ => exact Mode.isOutside_of_isSettled hm'
  | inWord _ hm' _ => exact Mode.isOutside_of_isInWord hm'

end Abreast

/-- Where the first run stays in code and the second one joins nothing, the second one stays in code
as well. -/
theorem Abreast.inCode {pieces : List Piece} {before before' : List Char}
    {texts texts' : List String}
    (h : Abreast (run .code before) (run .code before') pieces)
    (hclear : Piece.clearOfEscapes pieces = true)
    (hlength : texts.length = (pieces.filterMap Piece.placeholder?).length)
    (hlength' : texts'.length = (pieces.filterMap Piece.placeholder?).length)
    (hshapes : ∀ s ∈ texts, Shape s.toList) (hshapes' : ∀ s ∈ texts', Shape s.toList)
    (hcode : ∀ site ∈ Piece.sites before texts pieces, site.InCode)
    (hapart : ∀ site ∈ Piece.sites before' texts' pieces, site.Apart) :
    ∀ site ∈ Piece.sites before' texts' pieces, site.InCode := by
  induction pieces generalizing before before' texts texts' with
  | nil => exact fun site hsite => by cases hsite
  | cons piece pieces ih =>
    cases piece with
    | literal c =>
      have hnext := h.next
      rw [← Lexer.run_concat, ← Lexer.run_concat] at hnext
      exact ih hnext hclear hlength hlength' hshapes hshapes' hcode hapart
    | placeholder p =>
      obtain ⟨s, texts, rfl⟩ := List.exists_cons_of_length_eq_add_one hlength
      obtain ⟨s', texts', rfl⟩ := List.exists_cons_of_length_eq_add_one hlength'
      obtain ⟨hshape, hshapes⟩ := List.forall_mem_cons.mp hshapes
      obtain ⟨hshape', hshapes'⟩ := List.forall_mem_cons.mp hshapes'
      obtain ⟨hsite, hcode⟩ := List.forall_mem_cons.mp hcode
      obtain ⟨hsite', hapart⟩ := List.forall_mem_cons.mp hapart
      obtain ⟨hescape, hclear⟩ : Piece.startsEscape pieces = false ∧
          Piece.clearOfEscapes pieces = true := by
        simpa [Piece.clearOfEscapes] using hclear
      -- Being in code, the first run joins nothing either, so both literals lead to a settled mode.
      have houtside' := h.isOutside hsite.starts.1
      have hcode' := hsite'.inCode hshape' houtside'
      have hquote : ∀ rest, pieces = .literal '\'' :: rest →
          (run .code (before ++ s.toList)).isQuote = false ∧
            (run .code (before' ++ s'.toList)).isQuote = false := by
        rintro rest rfl
        exact ⟨Bool.eq_false_iff.mpr fun hquote => hsite.ends.2 hquote rfl,
          Bool.eq_false_iff.mpr fun hquote => hcode'.ends.2 hquote rfl⟩
      have hsettled : Abreast (run .code (before ++ s.toList)) (run .code (before' ++ s'.toList))
          pieces :=
        .settled ((hsite.apart hshape).isSettled_run hshape hsite.starts.1)
          (hsite'.isSettled_run hshape' houtside') hquote hescape
      refine List.forall_mem_cons.mpr ⟨hcode', ?_⟩
      exact ih hsettled hclear (Nat.succ.inj hlength) (Nat.succ.inj hlength') hshapes hshapes'
        hcode hapart

/-! ### Literals in their places -/

/-- Every value is a scalar, or a sequence of scalars for `:?`. -/
structure ParamsOf.OfScalars (params : Params) : Prop where
  named : ∀ entry ∈ params.named.entries, ∃ s, entry.2 = .scalar s
  positional : ∀ value, params.positional = some value →
    ∃ scalars : List Scalar, value = .sequence (scalars.map .scalar)

namespace ParamsOf.OfScalars

variable {params : Params}

theorem exists_scalar (h : params.OfScalars) {key : String} {value : Value}
    (hvalue : params.named.entries.lookup key = some value) : ∃ s, value = .scalar s := by
  obtain ⟨before, after, hentries, -⟩ := List.lookup_eq_some_iff.mp hvalue
  exact h.named (key, value) (by rw [hentries]; simp)

theorem items (h : params.OfScalars) : ∀ item ∈ params.items, ∃ s, item = .scalar s := by
  intro item hitem
  unfold ParamsOf.items at hitem
  cases hvalue : params.positional with
  | none =>
    rw [hvalue] at hitem
    cases hitem
  | some value =>
    obtain ⟨scalars, rfl⟩ := h.positional value hvalue
    rw [hvalue] at hitem
    obtain ⟨s, -, rfl⟩ := List.mem_map.mp hitem
    exact ⟨s, rfl⟩

end ParamsOf.OfScalars

/-- All placeholders are `:name` or `:?`. -/
def Template.IsPlain (t : Template) : Prop := ∀ p ∈ t.placeholders, p.modifier = .plain

instance (t : Template) : Decidable t.IsPlain :=
  inferInstanceAs (Decidable (∀ p ∈ t.placeholders, p.modifier = .plain))

/-- Resolving puts a text in this place. -/
def Adapter.Inserts (a : Adapter) (text : String) (params : Params) (site : Site) : Prop :=
  ∃ texts, Fills a params params.items (ofText text).placeholders texts ∧
    site ∈ Piece.sites [] texts (ofText text).pieces

/-- The text of every placeholder starts and ends in plain code. -/
def Adapter.StaysInCode (a : Adapter) (text : String) (params : Params) : Prop :=
  ∀ site, a.Inserts text params site → site.InCode

/-- The text of no placeholder makes another token with what stands around it. -/
def Adapter.KeepsApart (a : Adapter) (text : String) (params : Params) : Prop :=
  ∀ site, a.Inserts text params site → site.Apart

variable {a : Adapter} {text sql : String} {params : Params}

theorem Adapter.Inserts.toList_eq {site : Site} (h : a.Inserts text params site)
    (hsql : a.resolve (ofText text) params = .ok sql) :
    sql.toList = site.before ++ site.inserted ++ site.after := by
  obtain ⟨texts, hfills, hsite⟩ := h
  obtain ⟨texts', hfills', rfl⟩ :=
    Adapter.renders_iff_weave.mp (Adapter.resolve_eq_ok_iff_renders.mp hsql).2
  rw [String.toList_ofList, hfills'.unique hfills, ← Piece.weave_of_mem_sites hsite]
  rfl

theorem Adapter.forall_inserts_iff {texts : List String} {P : Site → Prop}
    (hfills : Fills a params params.items (ofText text).placeholders texts) :
    (∀ site, a.Inserts text params site → P site) ↔
      ∀ site ∈ Piece.sites [] texts (ofText text).pieces, P site := by
  constructor
  · exact fun h site hsite => h site ⟨texts, hfills, hsite⟩
  · rintro h site ⟨texts', hfills', hsite⟩
    rw [hfills'.unique hfills] at hsite
    exact h site hsite

theorem Adapter.text_scalar {p : Placeholder} (hplain : p.modifier = .plain) (x : Scalar) :
    a.text (some (.scalar x)) p = .ok (a.literal x) := by
  simp only [Adapter.text, Adapter.filler, Adapter.valueText, hplain, Adapter.staticText]

/-- What fills the placeholders are literals. -/
theorem Fills.shape {items : List Value} {ps : List Placeholder} {texts : List String}
    (h : Fills Dialect.postgres.adapter params items ps texts)
    (hplain : (ofText text).IsPlain) (hps : ∀ p ∈ ps, p ∈ (ofText text).placeholders)
    (hparams : params.OfScalars) (hitems : ∀ item ∈ items, ∃ s, item = .scalar s) :
    ∀ s ∈ texts, Shape s.toList := by
  induction h with
  | nil => exact fun s hs => by cases hs
  | positional _ hs _ ih =>
    obtain ⟨⟨x, rfl⟩, hrest⟩ := List.forall_mem_cons.mp hitems
    obtain ⟨-, hps⟩ := List.forall_mem_cons.mp hps
    cases hs
    exact List.forall_mem_cons.mpr ⟨Lexer.shape_literal x, ih hps hrest⟩
  | @named _ p _ s _ hp hs _ ih =>
    obtain ⟨hmem, hps⟩ := List.forall_mem_cons.mp hps
    refine List.forall_mem_cons.mpr ⟨?_, ih hps hitems⟩
    have hnamed : p ∈ (ofText text).namedPlaceholders :=
      List.mem_filter.mpr ⟨hmem, by rw [hp]; rfl⟩
    rw [Template.get?_key_of_mem_named hnamed] at hs
    cases hvalue : params.named.entries.lookup p.key with
    | none =>
      rw [hvalue, Adapter.text, hplain p hmem] at hs
      cases hs
    | some value =>
      obtain ⟨x, rfl⟩ := hparams.exists_scalar hvalue
      rw [hvalue, Adapter.text_scalar (hplain p hmem)] at hs
      cases hs
      exact Lexer.shape_literal x

/-! ### Reading resolved texts -/

section Postgres

variable {params' : Params} {sql' : String}

theorem exists_fills_postgres (hplain : (ofText text).IsPlain) (hparams : params.OfScalars)
    (hsql : Dialect.postgres.adapter.resolve (ofText text) params = .ok sql) :
    ∃ texts, Fills Dialect.postgres.adapter params params.items (ofText text).placeholders texts ∧
      ∀ s ∈ texts, Shape s.toList := by
  obtain ⟨texts, hfills, -⟩ :=
    Adapter.renders_iff_weave.mp (Adapter.resolve_eq_ok_iff_renders.mp hsql).2
  exact ⟨texts, hfills, hfills.shape hplain (fun _ hp => hp) hparams hparams.items⟩

/-- If one run of a template over scalars stands in plain code at all placeholders, another one does
just where none of its literals makes another token with the text around it. -/
theorem inCode_iff_apart (hplain : (ofText text).IsPlain)
    (hclear : Piece.clearOfEscapes (ofText text).pieces = true)
    (hparams : params.OfScalars) (hparams' : params'.OfScalars)
    (hsql : Dialect.postgres.adapter.resolve (ofText text) params = .ok sql)
    (hsql' : Dialect.postgres.adapter.resolve (ofText text) params' = .ok sql')
    (hcode : Dialect.postgres.adapter.StaysInCode text params) :
    Dialect.postgres.adapter.StaysInCode text params' ↔
      Dialect.postgres.adapter.KeepsApart text params' := by
  obtain ⟨texts, hfills, hshapes⟩ := exists_fills_postgres hplain hparams hsql
  obtain ⟨texts', hfills', hshapes'⟩ := exists_fills_postgres hplain hparams' hsql'
  rw [Adapter.StaysInCode, Adapter.forall_inserts_iff hfills] at hcode
  rw [Adapter.StaysInCode, Adapter.KeepsApart, Adapter.forall_inserts_iff hfills',
    Adapter.forall_inserts_iff hfills']
  constructor
  · intro hcode' site hsite
    have hinserted := List.mem_map_of_mem (f := Site.inserted) hsite
    rw [Piece.map_inserted_sites hfills'.length_eq] at hinserted
    obtain ⟨s, hs, hinserted⟩ := List.mem_map.mp hinserted
    exact (hcode' site hsite).apart (hinserted ▸ hshapes' s hs)
  · intro hapart
    have habreast : Abreast (run .code []) (run .code []) (ofText text).pieces := .same _ _
    exact habreast.inCode hclear hfills.length_eq hfills'.length_eq hshapes hshapes' hcode hapart

theorem inCode_text_with_marks :
    Dialect.postgres.adapter.resolve (ofText "SELECT -:a, :b")
        ⟨⟨[("a", .scalar (.int 7)), ("b", .scalar (.text "\\' --"))]⟩, none⟩ =
          .ok "SELECT -7, E'\\\\'' --'" ∧
      Dialect.postgres.adapter.StaysInCode "SELECT -:a, :b"
        ⟨⟨[("a", .scalar (.int 7)), ("b", .scalar (.text "\\' --"))]⟩, none⟩ := by
  have hsql : Dialect.postgres.adapter.resolve (ofText "SELECT -:a, :b")
      ⟨⟨[("a", .scalar (.int 5)), ("b", .scalar .null)]⟩, none⟩ = .ok "SELECT -5, NULL" := by
    decide +kernel
  have hsql' : Dialect.postgres.adapter.resolve (ofText "SELECT -:a, :b")
      ⟨⟨[("a", .scalar (.int 7)), ("b", .scalar (.text "\\' --"))]⟩, none⟩ =
        .ok "SELECT -7, E'\\\\'' --'" := by decide +kernel
  have hfills : Fills Dialect.postgres.adapter
      ⟨⟨[("a", .scalar (.int 5)), ("b", .scalar .null)]⟩, none⟩ []
      (ofText "SELECT -:a, :b").placeholders ["5", "NULL"] := by decide +kernel
  have hfills' : Fills Dialect.postgres.adapter
      ⟨⟨[("a", .scalar (.int 7)), ("b", .scalar (.text "\\' --"))]⟩, none⟩ []
      (ofText "SELECT -:a, :b").placeholders ["7", "E'\\\\'' --'"] := by decide +kernel
  refine ⟨hsql', (inCode_iff_apart (by decide +kernel) (by decide +kernel)
    ⟨by simp, by simp⟩ ⟨by simp, by simp⟩ hsql hsql' ?_).mpr ?_⟩
  · exact (Adapter.forall_inserts_iff hfills).mpr (by decide +kernel)
  · exact (Adapter.forall_inserts_iff hfills').mpr (by decide +kernel)

/-- What one might expect of any two runs over scalars. -/
def KeepsInCode (text : String) (params params' : Params) : Prop :=
  (ofText text).IsPlain → params.OfScalars → params'.OfScalars →
    (∃ sql, Dialect.postgres.adapter.resolve (ofText text) params = .ok sql) →
    (∃ sql, Dialect.postgres.adapter.resolve (ofText text) params' = .ok sql) →
    Dialect.postgres.adapter.StaysInCode text params →
    Dialect.postgres.adapter.StaysInCode text params'

theorem not_keepsInCode_of_fills (sql sql' : String) (texts texts' : List String)
    (hplain : (ofText text).IsPlain) (hparams : params.OfScalars) (hparams' : params'.OfScalars)
    (hsql : Dialect.postgres.adapter.resolve (ofText text) params = .ok sql)
    (hsql' : Dialect.postgres.adapter.resolve (ofText text) params' = .ok sql')
    (hfills : Fills Dialect.postgres.adapter params params.items (ofText text).placeholders texts)
    (hfills' :
      Fills Dialect.postgres.adapter params' params'.items (ofText text).placeholders texts')
    (hcode : ∀ site ∈ Piece.sites [] texts (ofText text).pieces, site.InCode)
    (hleaves : ¬∀ site ∈ Piece.sites [] texts' (ofText text).pieces, site.InCode) :
    ¬KeepsInCode text params params' := by
  intro hkeeps
  have hcode' := hkeeps hplain hparams hparams' ⟨sql, hsql⟩ ⟨sql', hsql'⟩
    ((Adapter.forall_inserts_iff hfills).mpr hcode)
  exact hleaves ((Adapter.forall_inserts_iff hfills').mp hcode')

/-- A sign makes a comment after a dash, and a word takes the `E` from a string of the template that
has escapes. -/
theorem inCode_changed_by_joins :
    ¬KeepsInCode "SELECT 1 -:a, 2" ⟨⟨[("a", .scalar (.int 5))]⟩, none⟩
        ⟨⟨[("a", .scalar (.int (-5)))]⟩, none⟩ ∧
      ¬KeepsInCode ":?E'\\'' :?" (.withPositional .empty [.scalar (.text "x"), .scalar .null])
        (.withPositional .empty [.scalar .null, .scalar .null]) := by
  constructor
  · exact not_keepsInCode_of_fills "SELECT 1 -5, 2" "SELECT 1 --5, 2" ["5"] ["-5"]
      (by decide +kernel) ⟨by simp, by simp⟩ ⟨by simp, by simp⟩ (by decide +kernel)
      (by decide +kernel) (by decide +kernel) (by decide +kernel) (by decide +kernel)
      (by decide +kernel)
  · have hscalars : ∀ scalars : List Scalar,
        (ParamsOf.withPositional .empty (scalars.map .scalar)).OfScalars := by
      intro scalars
      refine ⟨List.forall_mem_nil _, ?_⟩
      rintro value hvalue
      cases hvalue
      exact ⟨scalars, rfl⟩
    exact not_keepsInCode_of_fills "'x'E'\\'' NULL" "NULLE'\\'' NULL" ["'x'", "NULL"]
      ["NULL", "NULL"] (by decide +kernel) (hscalars [.text "x", .null]) (hscalars [.null, .null])
      (by decide +kernel) (by decide +kernel) (by decide +kernel) (by decide +kernel)
      (by decide +kernel) (by decide +kernel)

end Postgres

end SqlTemplate
