import SqlTemplate.Placeholder

/-!
A template is scanned once, into characters that stand for themselves and placeholders. Together
they are the whole text again (`text_ofText`).
-/

namespace SqlTemplate

/-- A piece of a template: a character that stands for itself, or a placeholder. -/
inductive Piece where
  | literal (c : Char)
  | placeholder (p : Placeholder)
deriving DecidableEq, Repr

namespace Piece

/-- The characters of the template that the piece stands for. -/
def chars : Piece → List Char
  | .literal c => [c]
  | .placeholder p => p.raw.toList

def placeholder? : Piece → Option Placeholder
  | .literal _ => none
  | .placeholder p => some p

/-- The pieces of a text. A colon next to another colon never opens a placeholder; `afterColon` says
that the character just before is a colon that stands for itself. -/
def scan (afterColon : Bool) : List Char → List Piece
  | [] => []
  | c :: cs =>
    if c = ':' && !afterColon then
      match _hread : Placeholder.read cs with
      | some (p, rest) => .placeholder p :: scan false rest
      | none => .literal c :: scan true cs
    else .literal c :: scan (c == ':') cs
  termination_by cs => cs.length
  decreasing_by
    · have := Placeholder.length_of_read _hread
      simp only [List.length_cons]
      omega
    · simp
    · simp

theorem scan_placeholder {cs rest : List Char} {p : Placeholder}
    (hread : Placeholder.read cs = some (p, rest)) :
    scan false (':' :: cs) = .placeholder p :: scan false rest := by
  rw [scan, if_pos (by decide)]
  split
  · next hread' =>
    cases hread.symm.trans hread'
    rfl
  · next hread' => cases hread.symm.trans hread'

theorem scan_colon {cs : List Char} (hread : Placeholder.read cs = none) :
    scan false (':' :: cs) = .literal ':' :: scan true cs := by
  rw [scan, if_pos (by decide)]
  split
  · next hread' => cases hread.symm.trans hread'
  · rfl

/-- Nothing of the text is lost. -/
theorem flatMap_chars_scan (afterColon : Bool) (cs : List Char) :
    (scan afterColon cs).flatMap chars = cs := by
  fun_induction scan afterColon cs with
  | case1 => rfl
  | case2 afterColon c cs hcolon p rest hread ih =>
    have hc : c = ':' := by simp_all
    have happend := Placeholder.raw_append_of_read hread
    rw [List.flatMap_cons, ih, hc]
    exact happend
  | case3 afterColon c cs _ _ ih => simp [chars, ih]
  | case4 afterColon c cs _ ih => simp [chars, ih]

end Piece

/-- A placeholder and its place in the text, in bytes of UTF-8. -/
structure Token where
  start : Nat
  stop : Nat
  placeholder : Placeholder
deriving DecidableEq, Repr

/-- The placeholders of the pieces, the first piece standing at `offset`. -/
def Token.ofPieces (offset : Nat) : List Piece → List Token
  | [] => []
  | .literal c :: pieces => ofPieces (offset + c.utf8Size) pieces
  | .placeholder p :: pieces =>
    let stop := offset + p.raw.utf8ByteSize
    ⟨offset, stop, p⟩ :: ofPieces stop pieces

structure Template where
  pieces : List Piece
deriving DecidableEq, Repr

namespace Template

def ofText (text : String) : Template := ⟨Piece.scan false text.toList⟩

def text (t : Template) : String := String.ofList (t.pieces.flatMap Piece.chars)

def tokens (t : Template) : List Token := Token.ofPieces 0 t.pieces

def placeholders (t : Template) : List Placeholder := t.pieces.filterMap Piece.placeholder?

def namedPlaceholders (t : Template) : List Placeholder :=
  t.placeholders.filter (!·.isPositional)

def positionalCount (t : Template) : Nat := t.placeholders.countP Placeholder.isPositional

@[simp]
theorem text_ofText (text : String) : (ofText text).text = text := by
  simp [ofText, Template.text, Piece.flatMap_chars_scan]

theorem map_placeholder_ofPieces (offset : Nat) (pieces : List Piece) :
    (Token.ofPieces offset pieces).map Token.placeholder = pieces.filterMap Piece.placeholder? := by
  induction pieces generalizing offset with
  | nil => rfl
  | cons piece pieces ih =>
    cases piece with
    | literal c => simp [Token.ofPieces, List.filterMap_cons, Piece.placeholder?, ih]
    | placeholder p => simp [Token.ofPieces, Piece.placeholder?, ih]

theorem map_placeholder_tokens (t : Template) :
    t.tokens.map Token.placeholder = t.placeholders :=
  map_placeholder_ofPieces 0 t.pieces

example : (ofText "x::int, :a:::b :?").tokens =
    [⟨8, 10, ⟨":a", .plain, "a", none⟩⟩, ⟨15, 17, Placeholder.positional⟩] := by decide +kernel

end Template

end SqlTemplate
