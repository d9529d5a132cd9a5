/-
# Text literals

A text literal ends at the first mark that is free: the backslashes directly in front of it make
pairs, and none is left over for the mark.  It stands for what its characters denote.  So every text
can be written down as a literal, with a backslash in front of each backslash and each mark.

* `FreeMark`, `FirstFreeMark` : the marks that can end a literal, and the one that does;
* `Content.firstFreeMark`, `Content.not_freeMark` : a content holds no free mark, and the one behind
  it is free;
* `protect` : a text with all its backslashes, with `Content.protect` and `denoted_protect`;
* `literal_ends_at_free_mark` : where literals end, in every source, and what they stand for.
-/
import FlatScript.Proofs.Stretches
import Mathlib.Algebra.Group.Nat.Even

namespace FlatScript

/-! ## Backslashes in front of a mark -/

/-- The number of backslashes that a text ends with, one directly behind the other. -/
def backslashes (cs : List Char) : ℕ :=
  (cs.reverse.takeWhile (· = '\\')).length

/-- Behind `body`, a mark is free: an even number of backslashes is directly in front of it. -/
structure FreeMark (mark : Char) (cs body rest : List Char) : Prop where
  split : cs = body ++ mark :: rest
  even : Even (backslashes body)

/-- The first mark that is free. -/
structure FirstFreeMark (mark : Char) (cs body rest : List Char) : Prop
    extends FreeMark mark cs body rest where
  first : ∀ body' rest', FreeMark mark cs body' rest' → body.length ≤ body'.length

/-- There is only one first mark that is free, so the text in front of it is known. -/
theorem FirstFreeMark.unique {mark : Char} {cs body body' rest rest' : List Char}
    (h : FirstFreeMark mark cs body rest) (h' : FirstFreeMark mark cs body' rest') :
    body = body' ∧ rest = rest' := by
  have hlength : body.length = body'.length :=
    Nat.le_antisymm (h.first _ _ h'.toFreeMark) (h'.first _ _ h.toFreeMark)
  obtain ⟨hbody, hbehind⟩ := List.append_inj (h.split.symm.trans h'.split) hlength
  exact ⟨hbody, (List.cons.inj hbehind).2⟩

/-- There are no more backslashes in front than characters. -/
theorem backslashes_le (cs : List Char) : backslashes cs ≤ cs.length := by
  rw [← List.length_reverse]
  exact (List.takeWhile_prefix _).length_le

/-- One more character in front counts if it is a backslash, and if there are only backslashes
behind it. -/
theorem backslashes_cons (c : Char) (cs : List Char) :
    backslashes (c :: cs) =
      if backslashes cs = cs.length ∧ c = '\\' then cs.length + 1 else backslashes cs := by
  unfold backslashes
  rw [List.reverse_cons, List.takeWhile_append, List.length_reverse]
  by_cases hall : (cs.reverse.takeWhile (· = '\\')).length = cs.length
  · by_cases hc : c = '\\'
    · simp [hall, hc]
    · simp [hall, hc]
  · simp [hall]

/-- A run of backslashes ends at every other character. -/
theorem backslashes_plain {c : Char} (h : c ≠ '\\') (cs : List Char) :
    backslashes (c :: cs) = backslashes cs := by
  rw [backslashes_cons, if_neg (fun hc => h hc.2)]

/-- A backslash and the character behind it do not change whether the number is even: both count, if
that is a backslash too, or neither. -/
theorem even_backslashes_escaped (c : Char) (cs : List Char) :
    Even (backslashes ('\\' :: c :: cs)) ↔ Even (backslashes cs) := by
  by_cases hboth : backslashes cs = cs.length ∧ c = '\\'
  · rw [backslashes_cons, backslashes_cons, if_pos hboth, if_pos ⟨rfl, rfl⟩, hboth.1,
      List.length_cons, Nat.even_add_one, Nat.even_add_one, not_not]
  · have hone : backslashes (c :: cs) = backslashes cs := by
      rw [backslashes_cons, if_neg hboth]
    have hle := backslashes_le cs
    rw [backslashes_cons, hone, if_neg]
    rw [List.length_cons]
    omega

namespace Content

variable {mark : Char} {body : List Char}

/-- The backslashes at the end of a content make pairs. -/
theorem even_backslashes (h : Content mark body) : Even (backslashes body) := by
  induction h with
  | nil => exact Even.zero
  | plain _ hbackslash _ ih => rwa [backslashes_plain hbackslash]
  | escaped _ ih => rwa [even_backslashes_escaped]

/-- No mark in a content is free, and a backslash that is left over behind it is no mark. -/
theorem not_freeMark (h : Content mark body) (hmark : mark ≠ '\\') {tail : List Char}
    (htail : tail = [] ∨ tail = ['\\']) (front more : List Char) :
    ¬ FreeMark mark (body ++ tail) front more := by
  rintro ⟨hsplit, heven⟩
  induction h generalizing front with
  | nil =>
    rcases htail with rfl | rfl
    · exact absurd hsplit.symm (List.append_ne_nil_of_right_ne_nil _ (List.cons_ne_nil _ _))
    · rcases List.append_eq_singleton_iff.1 hsplit.symm with ⟨-, h⟩ | ⟨-, h⟩
      · exact hmark (List.cons.inj h).1
      · cases h
  | @plain c cs hc hbackslash _ ih =>
    cases front with
    | nil => exact hc (List.cons.inj hsplit).1
    | cons d front =>
      obtain ⟨rfl, hbehind⟩ := List.cons.inj hsplit
      rw [backslashes_plain hbackslash] at heven
      exact ih front hbehind heven
  | @escaped c cs _ ih =>
    cases front with
    | nil => exact hmark (List.cons.inj hsplit).1.symm
    | cons d front =>
      obtain ⟨rfl, hbehind⟩ := List.cons.inj hsplit
      cases front with
      | nil => exact absurd heven (by decide)
      | cons e front =>
        obtain ⟨rfl, hrest⟩ := List.cons.inj hbehind
        rw [even_backslashes_escaped] at heven
        exact ih front hrest heven

/-- The mark behind a content is the first one that is free. -/
theorem firstFreeMark (h : Content mark body) (hmark : mark ≠ '\\') (rest : List Char) :
    FirstFreeMark mark (body ++ mark :: rest) body rest where
  split := rfl
  even := h.even_backslashes
  first body' rest' h' := by
    by_contra hlt
    -- An earlier one would stand in the content.
    rcases List.append_eq_append_iff.1 h'.split with ⟨more, rfl, -⟩ | ⟨more, hbody, hrest⟩
    · rw [List.length_append] at hlt
      omega
    · cases more with
      | nil =>
        rw [List.append_nil] at hbody
        rw [hbody] at hlt
        exact hlt (Nat.le_refl _)
      | cons c more =>
        obtain ⟨rfl, -⟩ := List.cons.inj hrest
        exact h.not_freeMark hmark (.inl rfl) body' more ⟨by rw [List.append_nil, hbody], h'.even⟩

end Content

/-! ## Writing a text down -/

/-- A text with a backslash in front of each backslash and each mark. -/
def protect (mark : Char) (cs : List Char) : List Char :=
  cs.flatMap fun c => if c = '\\' ∨ c = mark then ['\\', c] else [c]

section
variable {mark : Char}

/-- What is protected can stand between two marks. -/
theorem Content.protect (cs : List Char) : Content mark (protect mark cs) := by
  induction cs with
  | nil => exact .nil
  | cons c cs ih =>
    rw [FlatScript.protect, List.flatMap_cons]
    split
    · exact .escaped ih
    · rename_i hc
      rw [not_or] at hc
      exact .plain hc.2 hc.1 ih

/-- A backslash and a quotation mark stand for themselves behind a backslash. -/
theorem unescape_of_protected (hmark : isQuotationMark mark = true) {c : Char}
    (hc : c = '\\' ∨ c = mark) : unescape c = c := by
  rcases hc with rfl | rfl
  · rfl
  · rcases isQuotationMark_iff.1 hmark with rfl | rfl <;> rfl

/-- What is protected stands for the text that was protected. -/
theorem denoted_protect (hmark : isQuotationMark mark = true) (cs : List Char) :
    denoted (protect mark cs) = cs := by
  induction cs with
  | nil => rfl
  | cons c cs ih =>
    rw [protect, List.flatMap_cons]
    split
    · rename_i hc
      rw [List.cons_append, List.singleton_append, denoted_escaped, unescape_of_protected hmark hc]
      exact congrArg (c :: ·) ih
    · rename_i hc
      rw [not_or] at hc
      rw [List.singleton_append, denoted_plain hc.1]
      exact congrArg (c :: ·) ih

end

/-- A text literal for a text, between two marks. -/
def literal (mark : Char) (s : String) : String :=
  .ofList (mark :: (protect mark s.toList ++ [mark]))

/-! ## Text literals in a source -/

section
variable {source : String} {front blank body : List Char} {mark : Char}
  (hmark : isQuotationMark mark = true)
include hmark

/-- A literal that is closed is read up to its mark. -/
theorem BeginsAt.closed {rest : List Char}
    (h : BeginsAt source front blank (mark :: (body ++ mark :: rest))) (hbody : Content mark body) :
    ReadAt source front blank (mark :: (body ++ [mark])) rest (.text (.ofList (denoted body))) := by
  have hcs : mark :: (body ++ mark :: rest) = mark :: (body ++ [mark]) ++ rest := by
    rw [List.cons_append, List.append_assoc, List.singleton_append]
  refine BeginsAt.readAt (hcs ▸ h) fun p => ?_
  rw [← hcs, Cursor.takeToken_cons, if_pos hmark,
    Cursor.takeText_closed hbody (ne_backslash_of_isQuotationMark hmark), Position.after_cons]

/-- A literal that is not closed is read up to the end of the source. -/
theorem BeginsAt.unclosed {tail : List Char}
    (h : BeginsAt source front blank (mark :: (body ++ tail))) (hbody : Content mark body)
    (htail : tail = [] ∨ tail = ['\\']) :
    ReadAt source front blank (mark :: (body ++ tail)) []
      (.text (.ofList (denoted (body ++ tail)))) := by
  have hcs : mark :: (body ++ tail) = mark :: (body ++ tail) ++ [] := (List.append_nil _).symm
  refine BeginsAt.readAt (hcs ▸ h) fun p => ?_
  rw [← hcs, Cursor.takeToken_cons, if_pos hmark,
    Cursor.takeText_open hbody (ne_backslash_of_isQuotationMark hmark) htail, Position.after_cons]

/-- A text literal for a text is read as that text, and there is nothing else to read. -/
theorem lexemes_literal (s : String) :
    lexemes (literal mark s) =
      .ok [⟨.text s, ⟨.origin, Position.origin.after (literal mark s).toList⟩⟩] := by
  have hwhite : isWhiteSpace mark = false := by
    rcases isQuotationMark_iff.1 hmark with rfl | rfl <;> decide +kernel
  have hlist : (literal mark s).toList = mark :: (protect mark s.toList ++ [mark]) :=
    String.toList_ofList
  have hbegins : BeginsAt (literal mark s) [] [] (mark :: (protect mark s.toList ++ [mark])) := by
    refine ⟨hlist, nofun, ?_⟩
    rintro _ ⟨⟩
    exact hwhite
  have hread := hbegins.closed hmark (.protect s.toList)
  rw [denoted_protect hmark, String.ofList_toList] at hread
  have hall : Lexeme.all (.ofString (literal mark s)) =
      [⟨.text s, ⟨.origin, Position.origin.after (literal mark s).toList⟩⟩] := by
    have hread := hread.all nofun
    have hend := all_of_blank (nofun : ∀ c ∈ [], isWhiteSpace c = true)
    rw [hend, List.append_nil, List.nil_append, ← hlist] at hread
    exact hread
  unfold lexemes
  rw [hall]
  rfl

/-- **Text literals.**  Where a token begins with a quotation mark, it ends with the first mark of
this kind that an even number of backslashes is directly in front of, or with the source if there is
none.  It is the text that the characters in between stand for, and reading goes on right behind it.
Whatever text there is can be written as one token, with a backslash in front of each backslash and
each mark. -/
theorem literal_ends_at_free_mark :
    (∀ (source : String) (front blank more : List Char),
      BeginsAt source front blank (mark :: more) →
        (∃ body rest, FirstFreeMark mark more body rest ∧
          ReadAt source front blank (mark :: (body ++ [mark])) rest
            (.text (.ofList (denoted body)))) ∨
        (∀ body rest, ¬ FreeMark mark more body rest) ∧
          ReadAt source front blank (mark :: more) [] (.text (.ofList (denoted more)))) ∧
      ∀ s : String, lexemes (literal mark s) =
        .ok [⟨.text s, ⟨.origin, Position.origin.after (literal mark s).toList⟩⟩] := by
  have hne := ne_backslash_of_isQuotationMark hmark
  refine ⟨fun source front blank more h => ?_, lexemes_literal hmark⟩
  rcases content_cases mark more with ⟨body, rest, hbody, rfl⟩ | ⟨body, tail, hbody, htail, rfl⟩
  · exact .inl ⟨body, rest, hbody.firstFreeMark hne rest, h.closed hmark hbody⟩
  · exact .inr ⟨hbody.not_freeMark hne htail, h.unclosed hmark hbody htail⟩

end

/-- Of the marks in `'a\\\'b';`, the first one has three backslashes in front of it and is read with
the last of these; the second one has none. -/
theorem literal_ends_at_free_mark_backslashes :
    isQuotationMark '\'' = true ∧
      BeginsAt "x = 'a\\\\\\'b';" ['x', ' ', '='] [' ']
        ['\'', 'a', '\\', '\\', '\\', '\'', 'b', '\'', ';'] ∧
      ReadAt "x = 'a\\\\\\'b';" ['x', ' ', '='] [' ']
        ['\'', 'a', '\\', '\\', '\\', '\'', 'b', '\''] [';'] (.text "a\\'b") := by
  have hbegins : BeginsAt "x = 'a\\\\\\'b';" ['x', ' ', '='] [' ']
      ['\'', 'a', '\\', '\\', '\\', '\'', 'b', '\'', ';'] := by
    refine ⟨by decide +kernel, List.forall_mem_singleton.2 (by decide +kernel), ?_⟩
    rintro _ ⟨⟩
    decide +kernel
  have hcontent : Content '\'' ['a', '\\', '\\', '\\', '\'', 'b'] :=
    .plain (by decide) (by decide) (.escaped (.escaped (.plain (by decide) (by decide) .nil)))
  have hmark := hcontent.firstFreeMark (by decide) [';']
  have htext : String.ofList (denoted ['a', '\\', '\\', '\\', '\'', 'b']) = "a\\'b" := by
    decide +kernel
  rcases (literal_ends_at_free_mark rfl).1 _ _ _ _ hbegins with ⟨body, rest, hfirst, hread⟩ |
    ⟨hnone, -⟩
  · obtain ⟨rfl, rfl⟩ := hmark.unique hfirst
    rw [htext] at hread
    exact ⟨rfl, hbegins, hread⟩
  · exact absurd hmark.toFreeMark (hnone _ _)

end FlatScript
