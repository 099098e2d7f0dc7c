import Mathlib.Logic.Relation
import SqlTemplate.Proofs.Scanning

/-!
A scan from colon to colon. Each round looks for the next colon of the text that is left. It goes on
behind a whole run of colons, behind the placeholder that the colon opens, or else just behind the
colon. A round leaves less of the text (`length_rest_of_next?`), so there is a last one, and by then
the tokens of the scan are found (`exists_last_round`).
-/

namespace SqlTemplate

open String (utf8Len)

namespace Piece

theorem scan_of_ne (afterColon : Bool) {c : Char} (hc : c ≠ ':') (cs : List Char) :
    scan afterColon (c :: cs) = .literal c :: scan false cs := by
  rw [scan, if_neg (by simp [hc]), beq_false_of_ne hc]

theorem scan_true_eq {cs : List Char} (h : cs.head? ≠ some ':') : scan true cs = scan false cs := by
  cases cs with
  | nil => rw [scan, scan]
  | cons c cs =>
    have hc : c ≠ ':' := fun heq => h (congrArg some heq)
    rw [scan_of_ne true hc, scan_of_ne false hc]

end Piece

namespace Token

theorem ofPieces_scan_skipped (offset : Nat) {skipped : List Char} (h : ':' ∉ skipped)
    (cs : List Char) :
    ofPieces offset (Piece.scan false (skipped ++ cs)) =
      ofPieces (offset + utf8Len skipped) (Piece.scan false cs) := by
  induction skipped generalizing offset with
  | nil => rfl
  | cons c skipped ih =>
    obtain ⟨hc, hskipped⟩ : ':' ≠ c ∧ ':' ∉ skipped := by simpa using h
    rw [List.cons_append, Piece.scan_of_ne false (Ne.symm hc), ofPieces, ih _ hskipped,
      String.utf8Len_cons]
    congr 1
    omega

/-- Behind a colon that stands for itself, more colons do so too. -/
theorem ofPieces_scan_colons (offset : Nat) {run : List Char} (h : ∀ c ∈ run, c = ':')
    (cs : List Char) :
    ofPieces offset (Piece.scan true (run ++ cs)) =
      ofPieces (offset + utf8Len run) (Piece.scan true cs) := by
  induction run generalizing offset with
  | nil => rfl
  | cons c run ih =>
    obtain ⟨rfl, hrun⟩ := List.forall_mem_cons.mp h
    rw [List.cons_append, Piece.scan, if_neg (by simp), ofPieces, BEq.rfl, ih _ hrun,
      String.utf8Len_cons]
    congr 1
    omega

end Token

/-- Where a scan stands: the byte it has come to, the text from there on, and the tokens found. -/
structure Scanner where
  place : Nat
  rest : List Char
  found : List Token

namespace Scanner

def start (text : String) : Scanner := ⟨0, text.toList, []⟩

/-- Goes on from a colon at `place` with `after` behind it. -/
def atColon (found : List Token) (place : Nat) (after : List Char) : Scanner :=
  if after.head? = some ':' then
    ⟨place + 1 + utf8Len (after.takeWhile (· == ':')), after.dropWhile (· == ':'), found⟩
  else
    match Placeholder.read after with
    | some (p, rest) =>
      let stop := place + p.raw.utf8ByteSize
      ⟨stop, rest, found ++ [⟨place, stop, p⟩]⟩
    | none => ⟨place + 1, after, found⟩

/-- One round. Without a colon there is none. -/
def next? (s : Scanner) : Option Scanner :=
  match s.rest.dropWhile (· != ':') with
  | [] => none
  | _ :: after => some (atColon s.found (s.place + utf8Len (s.rest.takeWhile (· != ':'))) after)

/-- The tokens found so far, and those of the rest. -/
def tokens (s : Scanner) : List Token :=
  s.found ++ Token.ofPieces s.place (Piece.scan false s.rest)

variable {s s' : Scanner}

/-! ### One round -/

theorem exists_colon_of_next? (h : s.next? = some s') :
    ∃ skipped after, s.rest = skipped ++ ':' :: after ∧ ':' ∉ skipped ∧
      s' = atColon s.found (s.place + utf8Len skipped) after := by
  unfold next? at h
  split at h
  · cases h
  · next colon after hdrop =>
    have hcolon : colon = ':' := by
      have hstop := Placeholder.stops_dropWhile (· != ':') s.rest colon (by rw [hdrop]; rfl)
      simpa using hstop
    refine ⟨s.rest.takeWhile (· != ':'), after, ?_, ?_, (Option.some.inj h).symm⟩
    · rw [hcolon] at hdrop
      rw [← hdrop, List.takeWhile_append_dropWhile]
    · intro hmem
      simpa using List.mem_takeWhile_imp hmem

theorem length_rest_atColon (found : List Token) (place : Nat) (after : List Char) :
    (atColon found place after).rest.length ≤ after.length := by
  unfold atColon
  split
  · exact (List.dropWhile_suffix _).length_le
  · split
    · next hread => exact Placeholder.length_of_read hread
    · exact le_rfl

/-- Every round leaves less of the text. -/
theorem length_rest_of_next? (h : s.next? = some s') : s'.rest.length < s.rest.length := by
  obtain ⟨skipped, after, hrest, -, rfl⟩ := exists_colon_of_next? h
  have hle := length_rest_atColon s.found (s.place + utf8Len skipped) after
  rw [hrest, List.length_append, List.length_cons]
  omega

theorem tokens_atColon (found : List Token) (place : Nat) (after : List Char) :
    (atColon found place after).tokens =
      found ++ Token.ofPieces place (Piece.scan false (':' :: after)) := by
  unfold atColon
  split
  · next hcolon =>
    have hread : Placeholder.read after = none :=
      Placeholder.read_eq_none_iff.mpr fun hopens => hopens.head?_ne hcolon
    have hrun : ∀ c ∈ after.takeWhile (· == ':'), c = ':' := by
      intro c hc
      simpa using List.mem_takeWhile_imp hc
    have hend : (after.dropWhile (· == ':')).head? ≠ some ':' := by
      intro hhead
      simpa using Placeholder.stops_dropWhile (· == ':') after ':' hhead
    have hsplit := Token.ofPieces_scan_colons (place + 1) hrun (after.dropWhile (· == ':'))
    rw [List.takeWhile_append_dropWhile, Piece.scan_true_eq hend] at hsplit
    rw [Piece.scan_colon hread, tokens, ← hsplit]
    rfl
  · next hcolon =>
    split
    · next p rest hread =>
      rw [Piece.scan_placeholder hread, tokens, List.append_assoc]
      rfl
    · next hread =>
      rw [Piece.scan_colon hread, Piece.scan_true_eq hcolon]
      rfl

/-- A round changes neither the tokens found so far nor those to come. -/
theorem tokens_of_next? (h : s.next? = some s') : s'.tokens = s.tokens := by
  obtain ⟨skipped, after, hrest, hskipped, rfl⟩ := exists_colon_of_next? h
  rw [tokens_atColon, tokens, hrest, Token.ofPieces_scan_skipped _ hskipped]

theorem found_of_next?_eq_none (h : s.next? = none) : s.found = s.tokens := by
  have hrest : ':' ∉ s.rest := by
    unfold next? at h
    split at h
    · next hdrop =>
      intro hmem
      simpa using List.dropWhile_eq_nil_iff.mp hdrop ':' hmem
    · cases h
  have hnone := Token.ofPieces_scan_skipped s.place hrest []
  rw [List.append_nil] at hnone
  rw [tokens, hnone, Piece.scan, Token.ofPieces, List.append_nil]

/-! ### All rounds -/

/-- The scanner comes from one state to the other in some number of rounds. -/
def Runs : Scanner → Scanner → Prop := Relation.ReflTransGen fun s s' => s.next? = some s'

theorem exists_last_round (s : Scanner) :
    ∃ last, s.Runs last ∧ last.next? = none ∧ last.found = s.tokens := by
  induction hlength : s.rest.length using Nat.strong_induction_on generalizing s with
  | _ n ih =>
    cases hnext : s.next? with
    | none => exact ⟨s, .refl, hnext, found_of_next?_eq_none hnext⟩
    | some s' =>
      have hless := length_rest_of_next? hnext
      obtain ⟨last, hruns, hlast, hfound⟩ := ih _ (hlength ▸ hless) s' rfl
      exact ⟨last, .head hnext hruns, hlast, hfound.trans (tokens_of_next? hnext)⟩

theorem tokens_start (text : String) : (start text).tokens = (Template.ofText text).tokens := rfl

end Scanner

end SqlTemplate
