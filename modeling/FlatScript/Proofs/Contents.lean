/-
# Between two marks

A text literal is read up to the first mark that ends it, or up to the end of what there is.  The
characters in between are a content: a mark of that kind has a backslash in front of it, and so has
another character the backslash in front of it.

* `Content` : what may stand between two marks, and `denoted` : what it stands for;
* `content_cases` : every text begins with a content, up to a mark or up to its end;
* `Cursor.takeText_closed`, `Cursor.takeText_open` : what is read in either case.
-/
import FlatScript.Lexeme

namespace FlatScript

/-! ## Contents -/

/-- What may stand between two marks of a text: no mark of that kind, unless a backslash is in front
of it, and no backslash without a character behind it. -/
inductive Content (mark : Char) : List Char → Prop where
  | nil : Content mark []
  | plain {c : Char} {cs : List Char} (hmark : c ≠ mark) (hbackslash : c ≠ '\\')
      (hcs : Content mark cs) : Content mark (c :: cs)
  | escaped {c : Char} {cs : List Char} (hcs : Content mark cs) : Content mark ('\\' :: c :: cs)

theorem isQuotationMark_iff {c : Char} : isQuotationMark c = true ↔ c = '"' ∨ c = '\'' := by
  simp [isQuotationMark]

/-- A backslash opens no text. -/
theorem ne_backslash_of_isQuotationMark {mark : Char} (h : isQuotationMark mark = true) :
    mark ≠ '\\' := by
  rintro rfl
  exact absurd h (by decide)

/-- The letters that stand for a control character behind a backslash. -/
def controls : List (Char × Char) :=
  [('n', '\n'), ('t', '\t'), ('r', '\r')]

/-- What the characters behind a mark stand for: each for itself, and a backslash and a character
for a control character or for the character itself.  A last backslash stands for nothing. -/
def denoted : List Char → List Char
  | [] => []
  | ['\\'] => []
  | '\\' :: c :: cs => (controls.lookup c).getD c :: denoted cs
  | c :: cs => c :: denoted cs

/-- Behind a backslash, three letters stand for control characters, and every other character for
itself. -/
theorem unescape_eq (c : Char) : unescape c = (controls.lookup c).getD c := by
  unfold unescape
  split
  · rfl
  · rfl
  · rfl
  · rename_i hn ht hr
    have hnone : controls.lookup c = none := by
      rw [List.lookup_eq_none_iff]
      simpa [controls] using ⟨hn, ht, hr⟩
    rw [hnone]
    rfl

/-- A backslash and the character behind it stand for one character. -/
theorem denoted_escaped (c : Char) (cs : List Char) :
    denoted ('\\' :: c :: cs) = unescape c :: denoted cs := by
  rw [unescape_eq, denoted]

/-- Every other character stands for itself. -/
theorem denoted_plain {c : Char} (h : c ≠ '\\') (cs : List Char) :
    denoted (c :: cs) = c :: denoted cs := by
  rw [denoted]
  · exact fun hc _ => h hc
  · exact fun _ _ hc _ => h hc

/-- Every text begins with a content, and then with a mark, or nothing is behind the content but
perhaps a single backslash. -/
theorem content_cases (mark : Char) (cs : List Char) :
    (∃ body rest, Content mark body ∧ cs = body ++ mark :: rest) ∨
      ∃ body tail, Content mark body ∧ (tail = [] ∨ tail = ['\\']) ∧ cs = body ++ tail := by
  fun_induction Cursor.takeContent mark cs .origin with
  | case1 => exact .inr ⟨[], [], .nil, .inl rfl, rfl⟩
  | case2 rest => exact .inl ⟨[], rest, .nil, rfl⟩
  | case3 p hmark => exact .inr ⟨[], ['\\'], .nil, .inr rfl, rfl⟩
  | case4 p c rest _ _ hmark _ ih =>
    rcases ih with ⟨body, rest, hbody, rfl⟩ | ⟨body, tail, hbody, htail, rfl⟩
    · exact .inl ⟨'\\' :: c :: body, rest, .escaped hbody, rfl⟩
    · exact .inr ⟨'\\' :: c :: body, tail, .escaped hbody, htail, rfl⟩
  | case5 c rest p hmark hbackslash _ _ _ ih =>
    rcases ih with ⟨body, rest, hbody, rfl⟩ | ⟨body, tail, hbody, htail, rfl⟩
    · exact .inl ⟨c :: body, rest, .plain hmark hbackslash hbody, rfl⟩
    · exact .inr ⟨c :: body, tail, .plain hmark hbackslash hbody, htail, rfl⟩

/-! ## Reading a content -/

namespace Cursor

variable {mark : Char} {body : List Char}

theorem takeContent_mark (cs : List Char) (p : Position) :
    takeContent mark (mark :: cs) p = ([], ⟨cs, p.advance mark⟩) := by
  unfold takeContent
  rw [if_pos rfl]

/-- Up to its mark, a content is taken as it is. -/
theorem takeContent_plain {c : Char} (hmark : c ≠ mark) (hbackslash : c ≠ '\\') (cs : List Char)
    (p : Position) :
    takeContent mark (c :: cs) p =
      (c :: (takeContent mark cs (p.advance c)).1, (takeContent mark cs (p.advance c)).2) := by
  rw [takeContent.eq_def]
  dsimp only
  rw [if_neg hmark, if_neg hbackslash]

/-- A backslash is taken together with the character behind it, even if this is the mark. -/
theorem takeContent_escaped (hmark : mark ≠ '\\') (c : Char) (cs : List Char) (p : Position) :
    takeContent mark ('\\' :: c :: cs) p =
      (unescape c :: (takeContent mark cs ((p.advance '\\').advance c)).1,
        (takeContent mark cs ((p.advance '\\').advance c)).2) := by
  rw [takeContent, if_neg hmark.symm, if_pos rfl]

/-- A content that is closed is read up to the mark behind it, and nothing else is looked at. -/
theorem takeContent_closed (h : Content mark body) (hmark : mark ≠ '\\')
    (rest : List Char) (p : Position) :
    takeContent mark (body ++ mark :: rest) p =
      (denoted body, ⟨rest, p.after (body ++ [mark])⟩) := by
  induction h generalizing p with
  | nil =>
    rw [List.nil_append, takeContent_mark]
    rfl
  | plain hc hbackslash _ ih =>
    rw [List.cons_append, takeContent_plain hc hbackslash, ih, denoted_plain hbackslash]
    rfl
  | escaped _ ih =>
    rw [List.cons_append, List.cons_append, takeContent_escaped hmark, ih, denoted_escaped]
    rfl

/-- A content that is not closed is read up to the end. -/
theorem takeContent_open {tail : List Char} (h : Content mark body) (hmark : mark ≠ '\\')
    (htail : tail = [] ∨ tail = ['\\']) (p : Position) :
    takeContent mark (body ++ tail) p = (denoted (body ++ tail), ⟨[], p.after (body ++ tail)⟩) := by
  induction h generalizing p with
  | nil =>
    rcases htail with rfl | rfl
    · rfl
    · rw [List.nil_append, takeContent, if_neg hmark.symm, if_pos rfl]
      rfl
  | plain hc hbackslash _ ih =>
    rw [List.cons_append, takeContent_plain hc hbackslash, ih, denoted_plain hbackslash]
    rfl
  | escaped _ ih =>
    rw [List.cons_append, List.cons_append, takeContent_escaped hmark, ih, denoted_escaped]
    rfl

/-- Behind the mark that opens it, a text literal goes on to the first one that closes it. -/
theorem takeText_closed (h : Content mark body) (hmark : mark ≠ '\\') (rest : List Char)
    (p : Position) :
    takeText ⟨body ++ mark :: rest, p⟩ mark =
      (.text (.ofList (denoted body)), ⟨rest, p.after (body ++ [mark])⟩) := by
  unfold takeText
  rw [takeContent_closed h hmark]

/-- A text literal that nothing closes goes on to the end. -/
theorem takeText_open {tail : List Char} (h : Content mark body) (hmark : mark ≠ '\\')
    (htail : tail = [] ∨ tail = ['\\']) (p : Position) :
    takeText ⟨body ++ tail, p⟩ mark =
      (.text (.ofList (denoted (body ++ tail))), ⟨[], p.after (body ++ tail)⟩) := by
  unfold takeText
  rw [takeContent_open h hmark htail]

end Cursor

end FlatScript
