/-
# Phrases of a program

A program is made of phrases, and every phrase has a span.  Its parts are phrases as well: they lie
in its span, one behind the other in the order of the source.

* `Phrase`, `Phrase.parts` : the phrases of a program, and what each of them is made of;
* `Phrase.WellPlaced` : how the span of a phrase goes with its parts and with its tokens, and
  `Phrase.Nested` : this holds of the phrase and of everything below it;
* `Lays` : how lexemes lay out the phrases that are read from them, with one rule for each way in
  which phrases are put together.
-/
import FlatScript.Proofs.Taking
import FlatScript.Proofs.LexemeOrder

namespace FlatScript

open Grammar

/-! ## Phrases -/

/-- What has a span in a syntax tree. -/
inductive Phrase where
  | stmt (s : Stmt)
  | expr (e : Expr)
  | name (x : Name)
  /-- What a printed line ends with. -/
  | terminator (e : Expr)

/-- Where a phrase stands. -/
def Phrase.span : Phrase → Span
  | .stmt s => s.span
  | .expr e => e.span
  | .name x => x.span
  | .terminator e => e.span

/-- What an expression is made of. -/
def Expr.phrases : Expr → List Phrase
  | .literal _ _ => []
  | .var x _ => [.name x]
  | .binary _ left right _ => [.expr left, .expr right]

/-- What a statement is made of, in the order of the source. -/
def Stmt.phrases : Stmt → List Phrase
  | .expr value _ => [.expr value]
  | .assign x value _ => [.name x, .expr value]
  | .print items terminator _ => items.map .expr ++ [.terminator terminator]
  | .branch condition body alternative _ =>
    .expr condition :: (body.map .stmt ++ (alternative.getD []).map .stmt)
  | .whileLoop condition body _ => .expr condition :: body.map .stmt
  | .forLoop start condition step body _ =>
    .stmt start :: .expr condition :: .stmt step :: body.map .stmt
  | .update _ x _ => [.name x]

/-- The immediate parts of a phrase, in the order of the source. -/
def Phrase.parts : Phrase → List Phrase
  | .stmt s => s.phrases
  | .expr e => e.phrases
  | .name _ => []
  | .terminator e => e.phrases

/-- Every statement is made of something. -/
theorem Stmt.phrases_ne_nil (s : Stmt) : s.phrases ≠ [] := by
  cases s <;> simp [Stmt.phrases]

/-! ## Well-placed phrases -/

namespace Phrase

/-- Where a phrase has its span from: a leaf has the span of its token, and an operation reaches
from its left operand to its right one.  Without a terminator of its own, a printed line ends at its
semicolon.  Of statements nothing is said here, since they begin and end with words and marks that
no part of them stands for. -/
def Anchored (ls : List Lexeme) : Phrase → Prop
  | .stmt _ => True
  | .expr (.literal value span) => ∃ l ∈ ls, Leaf l.token (.literal value {}) ∧ span = l.span
  | .expr (.var x span) => ∃ l ∈ ls, l.token = .name x.text ∧ span = l.span
  | .expr (.binary _ left right span) => span = ⟨left.span.start, right.span.stop⟩
  | .name x => ∃ l ∈ ls, l.token = .name x.text ∧ x.span = l.span
  | .terminator e => ∃ l ∈ ls, (∃ s, l.token = .text s ∧ e = .literal (.text s) l.span) ∨
      l.token = .symbol .semicolon ∧ e = .literal (.text "\n") l.span

/-- The span of a phrase is not reversed, holds all parts of the phrase, one behind the other, and
goes with its tokens. -/
structure WellPlaced (ls : List Lexeme) (phrase : Phrase) : Prop where
  ordered : phrase.span.start ≤ phrase.span.stop
  within : ∀ part ∈ phrase.parts, part.span.Within phrase.span
  increasing : (phrase.parts.map span).Pairwise Span.Before
  anchored : phrase.Anchored ls

/-- A phrase is well placed, and so is every phrase below it. -/
inductive Nested (ls : List Lexeme) : Phrase → Prop where
  | intro {phrase : Phrase} (here : phrase.WellPlaced ls)
      (below : ∀ part ∈ phrase.parts, part.Nested ls) : phrase.Nested ls

theorem Nested.wellPlaced {ls : List Lexeme} {phrase : Phrase} (h : phrase.Nested ls) :
    phrase.WellPlaced ls := by
  cases h
  assumption

end Phrase

/-! ## Laying out phrases -/

/-- Phrases stand over some lexemes, one behind the other, and are nested. -/
structure LaidOut (ls used : List Lexeme) (phrases : List Phrase) : Prop where
  stands : ∀ phrase ∈ phrases, phrase.span.Over used
  increasing : (phrases.map Phrase.span).Pairwise Span.Before
  nested : ∀ phrase ∈ phrases, phrase.Nested ls

/-- Some lexemes, if they are in order, lay out some phrases. -/
def Lays (ls used : List Lexeme) (phrases : List Phrase) : Prop :=
  InOrder ls used → LaidOut ls used phrases

section
variable {ls used used' skipped : List Lexeme} {phrases phrases' : List Phrase} {phrase : Phrase}
  {l : Lexeme}

/-- A phrase is laid out where its parts are. -/
theorem LaidOut.of_parts (h : LaidOut ls used phrase.parts) (hover : phrase.span.Over used)
    (hordered : phrase.span.start ≤ phrase.span.stop)
    (hwithin : ∀ part ∈ phrase.parts, part.span.Within phrase.span)
    (hanchored : phrase.Anchored ls) : LaidOut ls used [phrase] where
  stands := List.forall_mem_singleton.2 hover
  increasing := List.pairwise_singleton _ _
  nested := List.forall_mem_singleton.2
    (.intro ⟨hordered, hwithin, h.increasing, hanchored⟩ h.nested)

namespace Lays

theorem nil : Lays ls used [] :=
  fun _ => ⟨List.forall_mem_nil _, .nil, List.forall_mem_nil _⟩

/-- Phrases that are laid out one behind the other. -/
theorem append (h : Lays ls used phrases) (h' : Lays ls used' phrases') :
    Lays ls (used ++ used') (phrases ++ phrases') := by
  intro horder
  have hfront := h horder.left
  have hbehind := h' horder.right
  refine ⟨?_, ?_, List.forall_mem_append.2 ⟨hfront.nested, hbehind.nested⟩⟩
  · exact List.forall_mem_append.2
      ⟨fun phrase hmem => (hfront.stands phrase hmem).mono fun _ => List.mem_append_left _,
        fun phrase hmem => (hbehind.stands phrase hmem).mono fun _ => List.mem_append_right _⟩
  · rw [List.map_append]
    refine List.pairwise_append.2 ⟨hfront.increasing, hbehind.increasing, ?_⟩
    intro _ ha _ hb
    obtain ⟨first, hfirst, rfl⟩ := List.mem_map.1 ha
    obtain ⟨second, hsecond, rfl⟩ := List.mem_map.1 hb
    exact horder.before (hfront.stands first hfirst) (hbehind.stands second hsecond)

/-- Tokens in front of the phrases. -/
theorem skip (h : Lays ls used phrases) : Lays ls (skipped ++ used) phrases :=
  nil.append h

theorem ne_nil (h : Lays ls used phrases) (hphrases : phrases ≠ []) : used ≠ [] := by
  rintro rfl
  obtain ⟨first, rest, rfl⟩ := List.exists_cons_of_ne_nil hphrases
  have hnone : InOrder ls [] := ⟨List.forall_mem_nil _, List.forall_mem_nil _, .nil⟩
  obtain ⟨l, hl, -⟩ := ((h hnone).stands first List.mem_cons_self).start
  cases hl

/-! ### Phrases of one token -/

/-- A phrase that has the span of one token, as all its parts do. -/
theorem single (hparts : Lays ls [l] phrase.parts) (hspan : phrase.span = l.span)
    (hpart : ∀ part ∈ phrase.parts, part.span = l.span) (ht : l.token ≠ .endOfInput)
    (hanchored : l ∈ ls → phrase.Anchored ls) : Lays ls [l] [phrase] := by
  intro horder
  have hl := List.mem_singleton_self l
  refine (hparts horder).of_parts ?_ ?_ ?_ (hanchored (horder.mem l hl ht))
  · rw [hspan]
    exact Span.over_single l
  · rw [hspan]
    exact horder.ordered l hl
  · intro part hmem
    rw [hpart part hmem, hspan]
    exact ⟨Position.le_refl _, Position.le_refl _⟩

/-- A name has the span of its token. -/
theorem name {x : String} (h : l.token = .name x) : Lays ls [l] [.name ⟨x, l.span⟩] :=
  single nil rfl (List.forall_mem_nil _) (by simp [h]) fun hl => ⟨l, hl, h, rfl⟩

/-- A constant or a variable. -/
theorem leaf {e : Expr} (h : l.leaf? = some e) : Lays ls [l] [.expr e] := by
  have hleaf := Lexeme.leaf_of_leaf? h
  unfold Lexeme.leaf? at h
  split at h <;> simp only [Option.some.injEq, reduceCtorEq] at h <;> subst h
  all_goals rename_i ht
  any_goals exact single nil rfl (List.forall_mem_nil _) (by simp [ht]) fun hl =>
    ⟨l, hl, hleaf, rfl⟩
  exact single (name ht) rfl (List.forall_mem_singleton.2 rfl) (by simp [ht]) fun hl =>
    ⟨l, hl, ht, rfl⟩

/-- A terminator that is given. -/
theorem text {s : String} (h : l.token = .text s) :
    Lays ls [l] [.terminator (.literal (.text s) l.span)] :=
  single nil rfl (List.forall_mem_nil _) (by simp [h]) fun hl => ⟨l, hl, .inl ⟨s, h, rfl⟩⟩

/-- A terminator that is left out. -/
theorem semicolon (h : l.token = .symbol .semicolon) :
    Lays ls [l] [.terminator (.literal (.text "\n") l.span)] :=
  single nil rfl (List.forall_mem_nil _) (by simp [h]) fun hl => ⟨l, hl, .inr ⟨h, rfl⟩⟩

/-! ### Phrases with parts -/

/-- An operation reaches over both operands, since the left one ends before the right one begins. -/
theorem binary {op : BinaryOp} {left right : Expr} (h : Lays ls used [.expr left, .expr right]) :
    Lays ls used [.expr (.binary op left right (left.span.union right.span))] := by
  intro horder
  have hparts := h horder
  have hleft : Phrase.expr left ∈ [Phrase.expr left, Phrase.expr right] := List.mem_cons_self
  have hright : Phrase.expr right ∈ [Phrase.expr left, Phrase.expr right] :=
    List.mem_cons_of_mem _ List.mem_cons_self
  have hordered : left.span.start ≤ left.span.stop := (hparts.nested _ hleft).wellPlaced.ordered
  have hordered' : right.span.start ≤ right.span.stop := (hparts.nested _ hright).wellPlaced.ordered
  have hbefore : left.span.Before right.span :=
    List.rel_of_pairwise_cons hparts.increasing List.mem_cons_self
  obtain ⟨hunion, hwithin, hwithin'⟩ := hbefore.union hordered hordered'
  refine LaidOut.of_parts hparts ?_ ?_ (List.forall_mem_cons.2
    ⟨hwithin, List.forall_mem_singleton.2 hwithin'⟩) hunion
  · show (left.span.union right.span).Over used
    rw [hunion]
    exact ⟨(hparts.stands _ hleft).start, (hparts.stands _ hright).stop⟩
  · exact Position.le_trans hwithin.1 (Position.le_trans hordered hwithin.2)

/-- A statement stands over all of its lexemes. -/
theorem stmt {s : Stmt} (h : Lays ls used s.phrases) (hspan : s.span = hull used) :
    Lays ls used [.stmt s] := by
  intro horder
  have hparts := h horder
  obtain ⟨hover, hwithin⟩ := horder.hull (h.ne_nil s.phrases_ne_nil)
  rw [← hspan] at hover hwithin
  obtain ⟨part, hpart⟩ := List.exists_mem_of_ne_nil _ s.phrases_ne_nil
  have hlies := hwithin _ (hparts.stands part hpart)
  refine LaidOut.of_parts hparts hover ?_ (fun m hm => hwithin _ (hparts.stands m hm)) trivial
  exact Position.le_trans hlies.1
    (Position.le_trans (hparts.nested part hpart).wellPlaced.ordered hlies.2)

end Lays

end

end FlatScript
