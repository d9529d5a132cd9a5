/-
# Lexemes and gaps tile a source

A source falls into stretches, each of which begins where the one in front of it ends: a gap, a
lexeme, a gap, and so on, up to the gap behind the last lexeme.  A gap may be empty and holds
nothing but white space; a lexeme is never empty.  Behind the last one there is only the end of the
input, however often it is read.

* `pieces` : the stretches between two places of a text, and `tiling` : those of a source;
* `Piece.Covers` : what the text of a stretch can be;
* `lexing_loses_nothing` : every source is tiled by its stretches.
-/
import FlatScript.Proofs.Stretches
import Mathlib.Data.String.Basic

namespace FlatScript

/-! ## Stretches of a source -/

/-- A stretch of a source: what stands between two lexemes, or a lexeme. -/
inductive Piece where
  | gap (span : Span)
  | lexeme (l : Lexeme)

/-- Where a stretch stands. -/
def Piece.span : Piece → Span
  | .gap span => span
  | .lexeme l => l.span

/-- The stretches from one place up to another one, with some lexemes between them. -/
def pieces (start stop : Position) : List Lexeme → List Piece
  | [] => [.gap ⟨start, stop⟩]
  | l :: ls => .gap ⟨start, l.span.start⟩ :: .lexeme l :: pieces l.span.stop stop ls

/-- Where a source ends. -/
def endOf (source : String) : Position :=
  Position.origin.after source.toList

/-- All stretches of a source. -/
def tiling (source : String) : List Piece :=
  pieces .origin (endOf source) (Lexeme.all (.ofString source))

/-- The text that a stretch cuts out of a source: white space if it is a gap, and at least one
character if it is a lexeme. -/
def Piece.Covers (source : String) (piece : Piece) (text : String) : Prop :=
  piece.span.text? source = some text ∧
    match piece with
    | .gap _ => ∀ c ∈ text.toList, isWhiteSpace c = true
    | .lexeme l => l.token ≠ .endOfInput ∧ l.span.start.byte < l.span.stop.byte ∧ text ≠ ""

/-- One stretch ends where the other one begins, or before. -/
def Piece.Before (a b : Piece) : Prop :=
  a.span.stop.byte ≤ b.span.start.byte

/-! ## The order of stretches -/

theorem Position.Reaches.byte_le {p q : Position} (h : p.Reaches q) : p.byte ≤ q.byte := by
  obtain ⟨cs, rfl⟩ := h
  rw [Position.byte_after]
  omega

/-- A token takes at least one byte. -/
theorem Scans.byte_lt {t : Token} {blank used rest : List Char} (h : Scans t blank used rest)
    (front : List Char) (p : Position) : (p.after front).byte < (p.after (front ++ used)).byte := by
  obtain ⟨c, cs, rfl, -⟩ := h.solid
  have hsize := c.utf8Size_pos
  rw [Position.after_append, Position.byte_after (p.after front), bytes]
  omega

/-- No stretch begins in front of the first one. -/
theorem le_start_of_mem_pieces {cs : List Char} {p : Position} {piece : Piece}
    (h : piece ∈ pieces p (p.after cs) (Lexeme.all ⟨cs, p⟩)) : p.byte ≤ piece.span.start.byte := by
  induction cs using scan_induction generalizing p with
  | blank cs hblank =>
    rw [all_of_blank hblank] at h
    obtain rfl := List.mem_singleton.1 h
    exact Nat.le_refl _
  | token t blank used rest hscan ih =>
    rw [hscan.all, ← List.append_assoc, Position.after_append] at h
    rcases List.mem_cons.1 h with rfl | h
    · exact Nat.le_refl _
    rcases List.mem_cons.1 h with rfl | h
    · exact (Position.Reaches.after p blank).byte_le
    · exact (Position.Reaches.after p (blank ++ used)).byte_le.trans (ih h)

/-- **Order.**  Each stretch ends before all later ones begin. -/
theorem pairwise_pieces (cs : List Char) (p : Position) :
    (pieces p (p.after cs) (Lexeme.all ⟨cs, p⟩)).Pairwise Piece.Before := by
  induction cs using scan_induction generalizing p with
  | blank cs hblank =>
    rw [all_of_blank hblank]
    exact List.pairwise_singleton _ _
  | token t blank used rest hscan ih =>
    rw [hscan.all, ← List.append_assoc, Position.after_append]
    -- All later stretches begin behind the token, so behind the gap in front of it as well.
    have hlater : ∀ piece ∈ pieces (p.after (blank ++ used)) ((p.after (blank ++ used)).after rest)
        (Lexeme.all ⟨rest, p.after (blank ++ used)⟩),
        (p.after (blank ++ used)).byte ≤ piece.span.start.byte :=
      fun piece => le_start_of_mem_pieces
    have hgap : (p.after blank).byte ≤ (p.after (blank ++ used)).byte := by
      rw [Position.after_append]
      exact (Position.Reaches.after _ used).byte_le
    constructor
    · intro piece hpiece
      rcases List.mem_cons.1 hpiece with rfl | hpiece
      · exact Nat.le_refl _
      · exact hgap.trans (hlater piece hpiece)
    · constructor
      · exact hlater
      · exact ih _

/-! ## The texts of stretches -/

/-- Behind some characters, a source is made up of the texts of its stretches. -/
theorem exists_texts_pieces {source : String} {front cs : List Char}
    (h : source.toList = front ++ cs) :
    ∃ texts : List String,
      List.Forall₂ (Piece.Covers source)
        (pieces (Position.origin.after front) (endOf source)
          (Lexeme.all ⟨cs, Position.origin.after front⟩)) texts ∧
      texts.flatMap String.toList = cs := by
  induction cs using scan_induction generalizing front with
  | blank cs hblank =>
    have hend : source.toList = front ++ (cs ++ []) := by
      rw [h, List.append_nil]
    rw [all_of_blank hblank, endOf, h]
    refine ⟨[.ofList cs], .cons ⟨text?_of_span hend, ?_⟩ .nil, ?_⟩
    · rwa [String.toList_ofList]
    · rw [List.flatMap_singleton, String.toList_ofList]
  | token t blank used rest hscan ih =>
    have hbehind : source.toList = front ++ (blank ++ used) ++ rest := by
      rw [h]
      simp only [List.append_assoc]
    obtain ⟨texts, htexts, hjoin⟩ := ih hbehind
    have hlexeme : source.toList = front ++ blank ++ (used ++ rest) := by
      rw [h, List.append_assoc]
    have htoken := text?_of_span hlexeme
    rw [hscan.all, ← Position.after_append, ← Position.after_append]
    have hlt := hscan.byte_lt (front ++ blank) .origin
    rw [List.append_assoc] at htoken hlt
    refine ⟨.ofList blank :: .ofList used :: texts, .cons ⟨text?_of_span h, ?_⟩
      (.cons ⟨htoken, hscan.ne_endOfInput, ?_, ?_⟩ htexts), ?_⟩
    · rw [String.toList_ofList]
      exact hscan.blank
    · exact hlt
    · intro hempty
      have hnil := congrArg String.toList hempty
      rw [String.toList_ofList] at hnil
      exact hscan.used_ne_nil hnil
    · rw [List.flatMap_cons, List.flatMap_cons, String.toList_ofList, String.toList_ofList, hjoin]

/-! ## The end of a source -/

/-- The bytes of a text are those of its characters. -/
theorem bytes_toList (s : String) : bytes s.toList = s.utf8ByteSize := by
  obtain ⟨cs, rfl⟩ : ∃ cs, s = .ofList cs := ⟨s.toList, String.ofList_toList.symm⟩
  rw [String.toList_ofList, String.utf8ByteSize_ofList]
  induction cs with
  | nil => rfl
  | cons c cs ih =>
    rw [String.utf8Len_cons, ← ih, bytes, Nat.add_comm]

/-- Behind all lexemes of a text, the end of the input is read where the text ends. -/
theorem allWithEnd_eq_append (cs : List Char) (p : Position) :
    Lexeme.allWithEnd ⟨cs, p⟩ =
      Lexeme.all ⟨cs, p⟩ ++ [⟨.endOfInput, ⟨p.after cs, p.after cs⟩⟩] := by
  induction cs using scan_induction generalizing p with
  | blank cs hblank =>
    rw [all_of_blank hblank, Lexeme.allWithEnd, next_of_blank hblank]
    rfl
  | token t blank used rest hscan ih =>
    rw [Lexeme.allWithEnd, hscan.next, if_neg hscan.ne_endOfInput, ih, hscan.all,
      ← Position.after_append, List.append_assoc]
    rfl

/-- **Lexing loses and duplicates nothing.**  A source is made up of the texts of its stretches, in
order, without overlap and without anything between them; gaps are white space, and each lexeme has
at least one character.  So there are at most as many lexemes as characters.  Whoever draws lexemes
one by one gets these, and then the end of the input, with the empty span at the end of the source,
again and again. -/
theorem lexing_loses_nothing (source : String) :
    (∃ texts, List.Forall₂ (Piece.Covers source) (tiling source) texts ∧
      String.join texts = source) ∧
    (tiling source).Pairwise Piece.Before ∧
    (Lexeme.all (.ofString source)).length ≤ source.length ∧
    (endOf source).byte = source.utf8ByteSize ∧
    ∀ n, (Feed.stream (Cursor.ofString source)).get n =
      (Lexeme.all (.ofString source))[n]?.getD ⟨.endOfInput, ⟨endOf source, endOf source⟩⟩ := by
  obtain ⟨texts, htexts, hjoin⟩ := exists_texts_pieces (List.nil_append source.toList).symm
  refine ⟨⟨texts, htexts, ?_⟩, pairwise_pieces source.toList .origin, ?_, ?_, ?_⟩
  · apply String.toList_injective
    rw [String.toList_join, hjoin]
  · rw [← String.length_toList]
    exact Lexeme.length_all_le _
  · rw [endOf, ← bytes_toList, Position.byte_after]
    exact Nat.zero_add _
  · intro n
    have hall : Lexeme.allWithEnd (.ofString source) =
        Lexeme.all (.ofString source) ++ [⟨.endOfInput, ⟨endOf source, endOf source⟩⟩] :=
      allWithEnd_eq_append source.toList .origin
    rw [Feed.stream_all hall, get_append_const]

end FlatScript
