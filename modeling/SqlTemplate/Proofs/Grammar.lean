import Mathlib.Data.List.TakeWhile
import SqlTemplate.Template

/-!
The grammar of placeholders as a relation that knows nothing of the order in which a text is read.
`read_eq_some_iff` says that reading finds what the grammar allows and nothing else. A placeholder's
own text gives it back (`Reads.of_raw`), so no two placeholders have one text
(`Reads.eq_of_raw_eq`).
-/

namespace SqlTemplate.Placeholder

/-- A non-empty run of letters, digits and underscores. -/
def IsName (name : List Char) : Prop := name ≠ [] ∧ ∀ c ∈ name, isNameChar c = true

instance (name : List Char) : Decidable (IsName name) :=
  decidable_of_iff (name ≠ [] ∧ name.all isNameChar = true) (and_congr_right fun _ => List.all_eq_true)

/-- The text starts with a block in braces that is closed. -/
def StartsBlock (cs : List Char) : Prop :=
  ∃ body after, cs = '\x7b' :: (body ++ '\x7d' :: after)

theorem startsBlock_iff {cs : List Char} :
    StartsBlock cs ↔ cs.head? = some '\x7b' ∧ '\x7d' ∈ cs := by
  constructor
  · rintro ⟨body, after, rfl⟩
    simp
  · rintro ⟨hhead, hclose⟩
    obtain ⟨rest, rfl⟩ := List.head?_eq_some_iff.mp hhead
    obtain heq | hclose := List.mem_cons.mp hclose
    · cases heq
    · obtain ⟨body, after, rfl⟩ := List.append_of_mem hclose
      exact ⟨body, after, rfl⟩

/-- A placeholder, as long as it can be, stands between a colon and the rest of a text. -/
inductive Reads : List Char → Placeholder → List Char → Prop where
  | positional (rest : List Char) : Reads ('?' :: rest) positional rest
  | bare {modifier : Modifier} {name rest : List Char} (hname : IsName name)
      (hstop : ∀ c ∈ rest.head?, isNameChar c = false)
      (hblock : modifier.takesSchema = true → ¬StartsBlock rest) :
      Reads (modifier.symbol.toList ++ (name ++ rest)) (ofParts modifier name none) rest
  | block {modifier : Modifier} {name body rest : List Char} (hname : IsName name)
      (htakes : modifier.takesSchema = true) (hbody : '\x7d' ∉ body) :
      Reads (modifier.symbol.toList ++ (name ++ '\x7b' :: (body ++ '\x7d' :: rest)))
        (ofParts modifier name (some body)) rest

/-- What follows a colon makes the colon open a placeholder. -/
def Opens (cs : List Char) : Prop :=
  (∃ rest, cs = '?' :: rest) ∨
    ∃ (modifier : Modifier) (c : Char) (rest : List Char),
      isNameChar c = true ∧ cs = modifier.symbol.toList ++ c :: rest

/-! ### The pieces of a placeholder -/

theorem ofChar?_eq_none_of_isNameChar {c : Char} (hc : isNameChar c = true) :
    Modifier.ofChar? c = none := by
  unfold Modifier.ofChar?
  split <;> first | rfl | exact absurd hc (by decide)

theorem readModifier_of_isNameChar (modifier : Modifier) {c : Char} (hc : isNameChar c = true)
    (rest : List Char) :
    readModifier (modifier.symbol.toList ++ c :: rest) = (modifier, c :: rest) := by
  cases modifier with
  | plain => simp [Modifier.symbol, readModifier, ofChar?_eq_none_of_isNameChar hc]
  | _ => rfl

theorem takeWhile_append_of_stops {p : Char → Bool} {run rest : List Char}
    (hrun : ∀ c ∈ run, p c = true) (hstop : ∀ c ∈ rest.head?, p c = false) :
    (run ++ rest).takeWhile p = run ∧ (run ++ rest).dropWhile p = rest := by
  rw [List.takeWhile_append_of_pos hrun, List.dropWhile_append_of_pos hrun]
  cases rest with
  | nil => simp
  | cons c rest => simp [hstop c rfl]

theorem stops_dropWhile (p : Char → Bool) (cs : List Char) :
    ∀ c ∈ (cs.dropWhile p).head?, p c = false := by
  intro c hc
  have hnot := List.head?_dropWhile_not p cs
  rw [Option.mem_def.mp hc] at hnot
  simpa using hnot

theorem readSchema_of_block {body : List Char} (hbody : '\x7d' ∉ body) (rest : List Char) :
    readSchema ('\x7b' :: (body ++ '\x7d' :: rest)) = (some body, rest) := by
  have hrun : ∀ c ∈ body, (c != '\x7d') = true := by
    intro c hc
    exact bne_iff_ne.mpr fun heq => hbody (heq ▸ hc)
  have hstop : ∀ c ∈ ('\x7d' :: rest).head?, (c != '\x7d') = false := by simp
  obtain ⟨htake, hdrop⟩ := takeWhile_append_of_stops hrun hstop
  simp only [readSchema, htake, hdrop]

theorem readSchema_of_not_startsBlock {cs : List Char} (h : ¬StartsBlock cs) :
    readSchema cs = (none, cs) := by
  fun_cases readSchema cs with
  | case1 rest c after hrest =>
    exfalso
    have hclose : c = '\x7d' := by
      have hstop := stops_dropWhile (· != '\x7d') rest c (by rw [hrest]; rfl)
      simpa using hstop
    subst hclose
    refine h ⟨rest.takeWhile (· != '\x7d'), after, ?_⟩
    rw [← hrest, List.takeWhile_append_dropWhile]
  | case2 rest => rfl
  | case3 => rfl

theorem eq_block_of_readSchema {cs body rest : List Char}
    (h : readSchema cs = (some body, rest)) :
    cs = '\x7b' :: (body ++ '\x7d' :: rest) ∧ '\x7d' ∉ body := by
  have happend := readSchema_append cs
  rw [h] at happend
  refine ⟨by simpa [braced] using happend.symm, ?_⟩
  revert h
  fun_cases readSchema cs with
  | case1 inner c after hinner =>
    intro h
    cases h
    intro hmem
    simpa using List.mem_takeWhile_imp hmem
  | case2 inner => intro h; cases h
  | case3 => intro h; cases h

theorem not_startsBlock_of_readSchema {cs rest : List Char}
    (h : readSchema cs = (none, rest)) : rest = cs ∧ ¬StartsBlock cs := by
  have happend := readSchema_append cs
  rw [h] at happend
  refine ⟨by simpa [braced] using happend, ?_⟩
  rintro ⟨body, after, rfl⟩
  -- The body may hold closing braces of its own, so the block that is read may be shorter.
  have hclose : '\x7d' ∈ body ++ '\x7d' :: after := by simp
  simp only [readSchema] at h
  split at h
  · cases h
  · next hnil => simpa using List.dropWhile_eq_nil_iff.mp hnil _ hclose

/-! ### Reading and the grammar -/

theorem read_of_name (modifier : Modifier) {name after : List Char} (hname : IsName name)
    (hstop : ∀ c ∈ after.head?, isNameChar c = false) :
    read (modifier.symbol.toList ++ (name ++ after)) =
      if modifier.takesSchema then
        some (ofParts modifier name (readSchema after).1, (readSchema after).2)
      else some (ofParts modifier name none, after) := by
  obtain ⟨hne, hchars⟩ := hname
  obtain ⟨c, name, rfl⟩ := List.exists_cons_of_ne_nil hne
  have hmodifier := readModifier_of_isNameChar modifier (hchars c (by simp)) (name ++ after)
  obtain ⟨htake, hdrop⟩ := takeWhile_append_of_stops hchars hstop
  rw [List.cons_append] at htake hdrop ⊢
  unfold read
  split
  · next rest heq =>
    -- A question mark is neither a symbol nor part of a name.
    exfalso
    have hquestion : isNameChar c = true := hchars c (by simp)
    cases modifier <;> simp_all [Modifier.symbol, isNameChar]
  · simp [hmodifier, htake, hdrop]

theorem Reads.read_eq {cs rest : List Char} {p : Placeholder} (h : Reads cs p rest) :
    read cs = some (p, rest) := by
  cases h with
  | positional => rfl
  | @bare modifier name _ hname hstop hblock =>
    rw [read_of_name modifier hname hstop]
    split
    · next htakes => rw [readSchema_of_not_startsBlock (hblock htakes)]
    · rfl
  | @block modifier name body _ hname htakes hbody =>
    rw [read_of_name modifier hname (by simp [isNameChar])]
    simp [htakes, readSchema_of_block hbody]

theorem exists_name_of_read_eq {cs rest : List Char} {p : Placeholder}
    (h : read cs = some (p, rest)) :
    cs = '?' :: rest ∧ p = positional ∨
      ∃ (modifier : Modifier) (name after : List Char), IsName name ∧
        (∀ c ∈ after.head?, isNameChar c = false) ∧
        cs = modifier.symbol.toList ++ (name ++ after) := by
  unfold read at h
  split at h
  · cases h
    exact .inl ⟨rfl, rfl⟩
  · simp only at h
    split at h
    · cases h
    · next hne =>
      refine .inr ⟨(readModifier cs).1, (readModifier cs).2.takeWhile isNameChar,
        (readModifier cs).2.dropWhile isNameChar, ⟨by simpa using hne, ?_⟩,
        stops_dropWhile isNameChar _, ?_⟩
      · exact fun c hc => List.mem_takeWhile_imp hc
      · rw [List.takeWhile_append_dropWhile, readModifier_append]

theorem reads_of_read_eq {cs rest : List Char} {p : Placeholder}
    (h : read cs = some (p, rest)) : Reads cs p rest := by
  obtain ⟨rfl, rfl⟩ | ⟨modifier, name, after, hname, hstop, rfl⟩ := exists_name_of_read_eq h
  · exact .positional rest
  rw [read_of_name modifier hname hstop] at h
  split at h
  · next htakes =>
    cases hschema : readSchema after with
    | mk schema rest' =>
      rw [hschema] at h
      cases h
      cases schema with
      | none =>
        obtain ⟨rfl, hblock⟩ := not_startsBlock_of_readSchema hschema
        exact .bare hname hstop fun _ => hblock
      | some body =>
        obtain ⟨rfl, hbody⟩ := eq_block_of_readSchema hschema
        exact .block hname htakes hbody
  · next htakes =>
    cases h
    exact .bare hname hstop fun htakes' => absurd htakes' htakes

theorem read_eq_some_iff {cs rest : List Char} {p : Placeholder} :
    read cs = some (p, rest) ↔ Reads cs p rest :=
  ⟨reads_of_read_eq, Reads.read_eq⟩

theorem Reads.unique {cs rest rest' : List Char} {p p' : Placeholder}
    (h : Reads cs p rest) (h' : Reads cs p' rest') : p = p' ∧ rest = rest' := by
  have heq := h.read_eq.symm.trans h'.read_eq
  simpa using heq

/-- Some placeholder is read just where one opens. -/
theorem isSome_read_iff {cs : List Char} : (read cs).isSome = true ↔ Opens cs := by
  constructor
  · intro hread
    obtain ⟨⟨p, rest⟩, hsome⟩ := Option.isSome_iff_exists.mp hread
    cases reads_of_read_eq hsome with
    | positional => exact .inl ⟨_, rfl⟩
    | @bare modifier name _ hname _ _ | @block modifier name _ _ hname _ _ =>
      obtain ⟨c, name', rfl⟩ := List.exists_cons_of_ne_nil hname.1
      exact .inr ⟨modifier, c, _, hname.2 c (by simp), rfl⟩
  · rintro (⟨rest, rfl⟩ | ⟨modifier, c, rest, hc, rfl⟩)
    · rfl
    · have hname : IsName ((c :: rest).takeWhile isNameChar) := by
        refine ⟨by simp [hc], fun d hd => List.mem_takeWhile_imp hd⟩
      have hread := read_of_name modifier hname (stops_dropWhile isNameChar (c :: rest))
      rw [List.takeWhile_append_dropWhile] at hread
      rw [hread]
      split <;> rfl

theorem read_eq_none_iff {cs : List Char} : read cs = none ↔ ¬Opens cs := by
  rw [← isSome_read_iff, Bool.not_eq_true, Option.isSome_eq_false_iff, Option.isNone_iff_eq_none]

/-! ### A placeholder's own text -/

variable {cs rest : List Char} {p : Placeholder}

theorem Reads.raw_append (h : Reads cs p rest) : p.raw.toList ++ rest = ':' :: cs :=
  raw_append_of_read h.read_eq

/-- A placeholder that stands in some text is read back from its own text alone. -/
theorem Reads.of_raw (h : Reads cs p rest) :
    ∃ body, p.raw.toList = ':' :: body ∧ Reads body p [] := by
  cases h with
  | positional => exact ⟨['?'], rfl, .positional []⟩
  | @bare modifier name _ hname _ _ =>
    refine ⟨modifier.symbol.toList ++ (name ++ []), by simp [ofParts, write, braced], ?_⟩
    refine .bare hname (by simp) fun _ => ?_
    rintro ⟨body, after, hnil⟩
    cases hnil
  | @block modifier name body _ hname htakes hbody =>
    refine ⟨_, ?_, .block hname htakes hbody⟩
    simp [ofParts, write, braced]

/-- No two placeholders have one text. -/
theorem Reads.eq_of_raw_eq {cs' rest' : List Char} {p' : Placeholder} (h : Reads cs p rest)
    (h' : Reads cs' p' rest') (hraw : p.raw = p'.raw) : p = p' := by
  obtain ⟨body, hbody, hreads⟩ := h.of_raw
  obtain ⟨body', hbody', hreads'⟩ := h'.of_raw
  rw [hraw, hbody'] at hbody
  cases hbody
  exact (hreads.unique hreads').1

/-! ### Keys -/

theorem Reads.eq_positional_or_isName (h : Reads cs p rest) :
    p = Placeholder.positional ∨ IsName p.name.toList := by
  cases h with
  | positional => exact .inl rfl
  | bare hname _ _ | block hname _ _ =>
    rw [ofParts, String.toList_ofList]
    exact .inr hname

theorem Reads.isName (h : Reads cs p rest) (hnamed : p.isPositional = false) :
    IsName p.name.toList := by
  obtain rfl | hname := h.eq_positional_or_isName
  · cases hnamed
  · exact hname

theorem IsName.isPositional_eq_false (hname : IsName p.name.toList) : p.isPositional = false := by
  apply Bool.eq_false_iff.mpr
  intro hpositional
  rw [isPositional, beq_iff_eq] at hpositional
  rw [hpositional] at hname
  exact absurd hname (by decide)

theorem toList_key (p : Placeholder) :
    p.key.toList = p.modifier.symbol.toList ++ p.name.toList := by
  rw [key, String.toList_append]

theorem ofChar?_of_mem_symbol {modifier : Modifier} {c : Char}
    (hc : c ∈ modifier.symbol.toList) : Modifier.ofChar? c = some modifier := by
  cases modifier with
  | plain => simp [Modifier.symbol] at hc
  | _ =>
    rw [List.mem_singleton.mp hc]
    rfl

theorem IsName.notMem_key (hname : IsName p.name.toList) {c : Char} (hc : isNameChar c = false)
    (hsymbol : Modifier.ofChar? c = none) : c ∉ p.key.toList := by
  rw [toList_key, List.mem_append]
  rintro (hmem | hmem)
  · rw [ofChar?_of_mem_symbol hmem] at hsymbol
    cases hsymbol
  · rw [hname.2 c hmem] at hc
    cases hc

theorem IsName.key_ne (hname : IsName p.name.toList) : p.key ≠ "?" := by
  intro hkey
  have hmem : '?' ∉ p.key.toList := hname.notMem_key rfl rfl
  rw [hkey] at hmem
  exact hmem (by decide)

theorem IsName.readModifier_append {name : List Char} (hname : IsName name)
    (modifier : Modifier) : readModifier (modifier.symbol.toList ++ name) = (modifier, name) := by
  obtain ⟨c, rest, rfl⟩ := List.exists_cons_of_ne_nil hname.1
  exact readModifier_of_isNameChar modifier (hname.2 c List.mem_cons_self) rest

/-- A key tells the modifier from the name. -/
theorem IsName.eq_of_key_eq {q : Placeholder} (hp : IsName p.name.toList)
    (hq : IsName q.name.toList) (hkey : p.key = q.key) :
    p.modifier = q.modifier ∧ p.name = q.name := by
  have hp := hp.readModifier_append p.modifier
  have hq := hq.readModifier_append q.modifier
  rw [← toList_key] at hp hq
  have heq := hp.symm.trans (hkey ▸ hq)
  exact ⟨congrArg Prod.fst heq, String.toList_inj.mp (congrArg Prod.snd heq)⟩

end SqlTemplate.Placeholder
