/-
# Two readers in lockstep

A reader sees nothing of its input but the lexemes that it draws, and nothing of their positions but
through the spans that it copies.  So two readers take the same steps on feeds that give out the
same lexemes up to a relocation of their positions, whatever the feeds and the bounds of their
recursions are.  The second one may check itself: if both bounds are greater than the number of
lexemes left, none of its checks fails.

* `Pairing` : feeds that give out the same lexemes up to a relocation;
* `Window.Left` : how many lexemes are left of an input, and how many will have been drawn at the
  end;
* `Alike` : the results of two readers are the same up to the relocation, with one rule for each way
  in which readers are put together;
* `lockstep_expression_operators` : two readers of expressions go in lockstep.
-/
import FlatScript.Proofs.WholeInput

namespace FlatScript

/-! ## Feeds that go together -/

/-- A relocation that leaves the order of positions alone, so that it goes through the span that
covers two others. -/
def KeepsUnion (f : Position → Position) : Prop :=
  ∀ s t s' t' : Span, s.relocate f = s'.relocate f → t.relocate f = t'.relocate f →
    (s.union t).relocate f = (s'.union t').relocate f

/-- Which feeds go together: they give out lexemes that are the same up to a relocation of their
positions, and then go together again. -/
structure Pairing (σ τ : Type) [Feed σ] [Feed τ] where
  /-- The relocation. -/
  move : Position → Position
  keepsUnion : KeepsUnion move
  feeds : σ → τ → Prop
  draw : ∀ {s t}, feeds s t → (Feed.draw s).1.relocate move = (Feed.draw t).1.relocate move ∧
    feeds (Feed.draw s).2 (Feed.draw t).2

variable {ε σ τ : Type} [Failure ε] [Feed σ] [Feed τ] {α γ : Type} {f : Position → Position}
  {π : Pairing σ τ} {w w' : Window σ} {v : Window τ} {total n m k : ℕ}

/-- Two windows show the same up to the relocation, in front of feeds that go together. -/
structure Window.Alike (π : Pairing σ τ) (w : Window σ) (v : Window τ) : Prop where
  feed : π.feeds w.feed v.feed
  previous : w.previous.relocate π.move = v.previous.relocate π.move
  current : w.current.relocate π.move = v.current.relocate π.move
  next : w.next.relocate π.move = v.next.relocate π.move
  drawn : v.drawn = w.drawn

/-- Both windows have the same token in front. -/
theorem Window.Alike.token (h : w.Alike π v) : v.current.token = w.current.token :=
  (congrArg Lexeme.token h.current).symm

theorem Window.Alike.span (h : w.Alike π v) :
    w.current.span.relocate π.move = v.current.span.relocate π.move :=
  congrArg Lexeme.span h.current

/-- The errors of lexemes that are the same up to a relocation are so themselves. -/
theorem error?_relocate_eq {l m : Lexeme} (h : l.relocate f = m.relocate f) :
    l.error?.map (fun e => LexError.mk e.character (f e.position)) =
      m.error?.map fun e => ⟨e.character, f e.position⟩ := by
  have herror : ∀ l : Lexeme, (l.relocate f).error? =
      l.error?.map fun e => ⟨e.character, f e.position⟩ := by
    intro l
    unfold Lexeme.error? Lexeme.relocate
    split <;> simp_all [Span.relocate]
  rw [← herror, ← herror, h]

/-- Either both of them are tokens or neither is. -/
theorem error?_eq_none_iff {l m : Lexeme} (h : l.relocate f = m.relocate f) :
    l.error? = none ↔ m.error? = none := by
  rw [← Option.map_eq_none_iff, error?_relocate_eq h, Option.map_eq_none_iff]

/-- Moving both windows draws lexemes that are refused together or not at all. -/
theorem Window.Alike.shift (ε : Type) [Failure ε] (h : w.Alike π v) :
    (∃ e e' w' v', (Parser.shift : Parser σ Unit) w = .error e w' ∧
      (Parser.shift : Reader ε τ Unit) v = .error (Failure.refused e') v' ∧
      e.relocate π.move = e'.relocate π.move ∧ w'.Alike π v') ∨
    ∃ w' v', (Parser.shift : Parser σ Unit) w = .ok () w' ∧
      (Parser.shift : Reader ε τ Unit) v = .ok () v' ∧ w'.Alike π v' := by
  obtain ⟨hincoming, hfeed⟩ := π.draw h.feed
  have herror := error?_relocate_eq hincoming
  have hdrawn : v.drawn + 1 = w.drawn + 1 := congrArg Nat.succ h.drawn
  cases hw : (Feed.draw w.feed).1.error? with
  | some e =>
    rw [hw, Option.map_some, eq_comm, Option.map_eq_some_iff] at herror
    obtain ⟨e', hv, he⟩ := herror
    exact .inl ⟨.lexical e, .lexical e', _, _, Parser.shift_of_some hw, Parser.shift_of_some hv,
      congrArg ParseError.lexical he.symm, hfeed, h.previous, h.current, h.next, hdrawn⟩
  | none =>
    have hv := (error?_eq_none_iff hincoming).1 hw
    exact .inr ⟨_, _, Parser.shift_of_none hw, Parser.shift_of_none hv, hfeed, h.span, h.next,
      hincoming, hdrawn⟩

/-! ## What is left of an input -/

/-- In front of the end of the input, or of the first character that begins no token, `n` lexemes
are left.  When the window has moved over all of them, `total` lexemes will have been drawn. -/
structure Window.Left (w : Window σ) (total n : ℕ) : Prop where
  clear : w.Clear
  before : ∀ i < n, (w.ahead.get i).Proper
  stops : ¬ (w.ahead.get n).Proper
  drawn : w.drawn + n = total

/-- Nothing is left exactly where the current lexeme is the end of the input. -/
theorem Window.Left.eq_zero_iff (hw : w.Left total n) : n = 0 ↔ w.current.token = .endOfInput := by
  constructor
  · rintro rfl
    by_contra hend
    exact hw.stops ⟨hend, hw.clear.current⟩
  · intro hend
    by_contra hne
    exact (hw.before 0 (Nat.pos_of_ne_zero hne)).not_end hend

/-- What a window shows when it has moved. -/
theorem Parser.shift_ok (h : (shift : Parser σ Unit) w = .ok () w') :
    (∀ i, w'.ahead.get i = w.ahead.get (i + 1)) ∧ w'.current = w.next ∧ w'.next.error? = none ∧
      w'.drawn = w.drawn + 1 := by
  cases hincoming : (Feed.draw w.feed).1.error? with
  | some e => cases (shift_of_some hincoming).symm.trans h
  | none =>
    obtain ⟨-, rfl⟩ := EStateM.Result.ok.inj ((shift_of_none hincoming).symm.trans h)
    refine ⟨fun i => ?_, rfl, hincoming, rfl⟩
    rw [Window.ahead, Window.ahead, Feed.stream_eq w.feed]
    rfl

/-- A lexeme that is refused has been drawn as well. -/
theorem Parser.drawn_of_shift_error {e : ParseError} (h : (shift : Parser σ Unit) w = .error e w') :
    w'.drawn = w.drawn + 1 := by
  cases hincoming : (Feed.draw w.feed).1.error? with
  | some e =>
    obtain ⟨-, rfl⟩ := EStateM.Result.error.inj ((shift_of_some hincoming).symm.trans h)
    rfl
  | none => cases (shift_of_none hincoming).symm.trans h

/-- When the window has moved, one lexeme less is left. -/
theorem Window.Left.shift (hw : w.Left total (n + 1))
    (h : (Parser.shift : Parser σ Unit) w = .ok () w') : w'.Left total n := by
  obtain ⟨hahead, hcurrent, hnext, hdrawn⟩ := Parser.shift_ok h
  have hleft := hw.drawn
  refine ⟨⟨hcurrent ▸ hw.clear.next, hnext⟩, fun i hi => ?_, ?_, by omega⟩
  · rw [hahead]
    exact hw.before (i + 1) (by omega)
  · rw [hahead]
    exact hw.stops

/-- Two windows are alike, and so much is left of the input in front of the first one. -/
structure Abreast (π : Pairing σ τ) (total n : ℕ) (w : Window σ) (v : Window τ) : Prop
    extends w.Alike π v where
  left : w.Left total n

/-! ## Results that are alike -/

/-- The results of two readers are alike: related values, with fewer than `m` lexemes left, or the
same error up to its place, with no more than `total` lexemes drawn.  The second reader may look for
faults, but it has found none. -/
inductive Alike (π : Pairing σ τ) (R : α → α → Prop) (total m : ℕ) :
    EStateM.Result ParseError (Window σ) α → EStateM.Result ε (Window τ) α → Prop where
  | ok {a b : α} {w : Window σ} {v : Window τ} {n : ℕ} (hvalue : R a b)
      (h : Abreast π total n w v) (hn : n < m) : Alike π R total m (.ok a w) (.ok b v)
  | error {e e' : ParseError} {w : Window σ} {v : Window τ}
      (herror : e.relocate π.move = e'.relocate π.move) (h : w.Alike π v)
      (hdrawn : w.drawn ≤ total) :
      Alike π R total m (.error e w) (.error (Failure.refused e') v)

section
variable {R : α → α → Prop} {r : EStateM.Result ParseError (Window σ) α}
  {r' : EStateM.Result ε (Window τ) α}

theorem Alike.mono (h : Alike π R total m r r') (hk : m ≤ k) : Alike π R total k r r' := by
  cases h with
  | ok hvalue h hn => exact .ok hvalue h (Nat.lt_of_lt_of_le hn hk)
  | error herror h hdrawn => exact .error herror h hdrawn

/-- What the first reader leaves behind if it succeeds. -/
theorem Alike.left {a : α} (h : Alike π R total m (.ok a w) r') : ∃ n < m, w.Left total n := by
  cases h with
  | ok _ h hn => exact ⟨_, hn, h.left⟩

/-- How many lexemes the first reader has drawn if it fails. -/
theorem Alike.drawn_le {e : ParseError} (h : Alike π R total m (.error e w) r') :
    w.drawn ≤ total := by
  cases h with
  | error _ _ hdrawn => exact hdrawn

end

/-! ## Checks that do not fail -/

namespace Parser

omit [Feed σ] in
/-- Nothing happens at a check of what holds. -/
theorem check_of {holds : Prop} [Decidable holds] {fault : Fault} (h : holds) :
    (check holds fault : Reader ε σ Unit) = pure () := by
  unfold check
  split
  · exact if_pos h
  · rfl

/-- In front of a token, the window is moved. -/
theorem advance_of_ne (hend : w.current.token ≠ .endOfInput) :
    (advance : Reader ε σ Unit) w = shift w := by
  show (check (w.current.token ≠ .endOfInput) .pastEnd >>= fun _ => shift : Reader ε σ Unit) w = _
  rw [check_of hend]
  rfl

/-- A token that was seen is taken like any other. -/
theorem expect_of_eq {t : Token} (ht : w.current.token = t) :
    (expect t : Reader ε σ Unit) w = consume t w := by
  show (check (w.current.token = t) (.mismatch t w.current.token) >>= fun _ => consume t :
    Reader ε σ Unit) w = _
  rw [check_of ht]
  rfl

omit [Feed σ] in
/-- Where the window has moved, the reader goes on. -/
theorem movedSince_bind_apply {before : ℕ} (g : Unit → Reader ε σ γ) (h : before < w.drawn) :
    (movedSince before >>= g) w = g () w := by
  show (check (before < w.drawn) .stalled >>= g) w = _
  rw [check_of h]
  rfl

end Parser

/-- Fewer lexemes are left than before, so the window has moved. -/
theorem Abreast.moved {v' : Window τ} (h : Abreast π total n w v) (h' : Abreast π total m w' v')
    (hm : m < n) : v.drawn < v'.drawn := by
  have hleft := h.left.drawn
  have hleft' := h'.left.drawn
  rw [h.drawn, h'.drawn]
  omega

/-! ## Rules -/

section
variable {R : α → α → Prop} {S : γ → γ → Prop}

theorem alike_pure {a b : α} (h : Abreast π total n w v) (hn : n < m) (hvalue : R a b) :
    Alike π R total m ((pure a : Parser σ α) w) ((pure b : Reader ε τ α) v) :=
  .ok hvalue h hn

/-- Both readers refuse their current lexeme. -/
theorem alike_unexpected (h : Abreast π total n w v) (expected : Expected) :
    Alike π R total m ((Parser.unexpected expected : Parser σ α) w)
      ((Parser.unexpected expected : Reader ε τ α) v) := by
  have herror : (ParseError.syntactic ⟨expected, w.current.token, w.current.span⟩).relocate π.move =
      (ParseError.syntactic ⟨expected, v.current.token, v.current.span⟩).relocate π.move := by
    rw [ParseError.relocate, ParseError.relocate, h.token, h.span]
  exact .error herror h.toAlike (h.left.drawn ▸ Nat.le_add_right _ _)

/-- One reader behind another. -/
theorem Alike.bind {p : Parser σ α} {q : Reader ε τ α} {g : α → Parser σ γ}
    {g' : α → Reader ε τ γ} (hp : Alike π R total m (p w) (q v))
    (hg : ∀ a b w' v' n, p w = .ok a w' → R a b → Abreast π total n w' v' → n < m →
      Alike π S total k (g a w') (g' b v')) :
    Alike π S total k ((p >>= g) w) ((q >>= g') v) := by
  rw [Parser.bind_apply, Parser.bind_apply]
  generalize hpw : p w = r at hp
  generalize q v = r' at hp
  cases hp with
  | ok hvalue h hn => exact hg _ _ _ _ _ hpw hvalue h hn
  | error herror h hdrawn => exact .error herror h hdrawn

/-- Both readers decide in the same way on the current lexeme. -/
theorem alike_current_bind {g : Lexeme → Parser σ α} {g' : Lexeme → Reader ε τ α}
    (h : Abreast π total n w v)
    (hg : ∀ t s s', w.current = ⟨t, s⟩ → s.relocate π.move = s'.relocate π.move →
      Alike π R total m (g ⟨t, s⟩ w) (g' ⟨t, s'⟩ v)) :
    Alike π R total m ((Parser.current >>= g) w) ((Parser.current >>= g') v) := by
  have hv : v.current = ⟨w.current.token, v.current.span⟩ := by rw [← h.token]
  rw [Parser.current_bind_apply, Parser.current_bind_apply, hv]
  exact hg w.current.token w.current.span v.current.span rfl h.span

/-- Both windows are moved over a lexeme that is not the end of the input. -/
theorem alike_advance (h : Abreast π total n w v) (hend : w.current.token ≠ .endOfInput) :
    Alike π Eq total n ((Parser.advance : Parser σ Unit) w)
      ((Parser.advance : Reader ε τ Unit) v) := by
  obtain ⟨n, rfl⟩ := Nat.exists_eq_add_one_of_ne_zero (mt h.left.eq_zero_iff.1 hend)
  rw [Parser.advance_of_ne hend, Parser.advance_of_ne (h.token ▸ hend)]
  rcases h.shift ε with ⟨e, e', w', v', hw, hv, herror, h'⟩ | ⟨w', v', hw, hv, h'⟩ <;> rw [hw, hv]
  · have hleft := h.left.drawn
    have hdrawn := Parser.drawn_of_shift_error hw
    exact .error herror h' (by omega)
  · exact .ok rfl ⟨h', h.left.shift hw⟩ (Nat.lt_succ_self n)

/-- Both readers take a given token or refuse what stands there. -/
theorem alike_consume (h : Abreast π total n w v) {t : Token} (ht : t ≠ .endOfInput) :
    Alike π Eq total n ((Parser.consume t : Parser σ Unit) w)
      ((Parser.consume t : Reader ε τ Unit) v) := by
  rw [Parser.consume_apply, Parser.consume_apply, h.token]
  split
  · next htoken => exact alike_advance h (htoken ▸ ht)
  · exact alike_unexpected h _

/-- A token that was seen is there. -/
theorem alike_expect (h : Abreast π total n w v) {t : Token} (hseen : w.current.token = t)
    (ht : t ≠ .endOfInput) :
    Alike π Eq total n ((Parser.expect t : Parser σ Unit) w)
      ((Parser.expect t : Reader ε τ Unit) v) := by
  rw [Parser.expect_of_eq hseen, Parser.expect_of_eq (h.token.trans hseen)]
  exact alike_consume h ht

/-- Both readers find a token or neither does. -/
theorem alike_accept_bind {g : Bool → Parser σ α} {g' : Bool → Reader ε τ α}
    (h : Abreast π total n w v) {t : Token} (ht : t ≠ .endOfInput)
    (htrue : ∀ w' v' n', Abreast π total n' w' v' → n' < n →
      Alike π R total m (g true w') (g' true v'))
    (hfalse : Alike π R total m (g false w) (g' false v)) :
    Alike π R total m ((Parser.accept t >>= g) w) ((Parser.accept t >>= g') v) := by
  rw [Parser.accept_bind_apply, Parser.accept_bind_apply, h.token]
  split
  · next htoken =>
    exact (alike_advance h (htoken ▸ ht)).bind fun _ _ w' v' n' _ _ => htrue w' v' n'
  · exact hfalse

/-- What leaves fewer lexemes than before has moved the window. -/
theorem Alike.progressing {p : Parser σ α} {q : Reader ε τ α} (h : Abreast π total n w v)
    (hpq : Alike π R total n (p w) (q v)) :
    Alike π R total n (Parser.progressing p w) (Parser.progressing q v) := by
  rw [Parser.progressing_eq]
  show Alike π R total n (p w)
    ((q >>= fun a => Parser.movedSince v.drawn >>= fun _ => pure a) v)
  rw [Parser.bind_apply]
  generalize p w = r at hpq
  generalize q v = r' at hpq
  cases hpq with
  | ok hvalue h' hn =>
    dsimp only
    rw [Parser.movedSince_bind_apply _ (h.moved h' hn)]
    exact .ok hvalue h' hn
  | error herror h' hdrawn => exact .error herror h' hdrawn

end

/-! ## Trees that are the same up to a relocation -/

/-- Names that are the same up to a relocation. -/
def SameName (f : Position → Position) (a b : Name) : Prop := a.relocate f = b.relocate f

/-- Expressions that are the same up to a relocation. -/
def SameExpr (f : Position → Position) (a b : Expr) : Prop := a.relocate f = b.relocate f

/-- Statements that are the same up to a relocation, once they are given their spans. -/
def SameMake (f : Position → Position) (a b : Span → Stmt) : Prop :=
  ∀ s s', s.relocate f = s'.relocate f → (a s).relocate f = (b s').relocate f

/-- Statements that are the same up to a relocation. -/
def SameStmt (f : Position → Position) (a b : Stmt) : Prop := a.relocate f = b.relocate f

/-- Runs of statements that are the same up to a relocation. -/
def SameStmts (f : Position → Position) (a b : List Stmt) : Prop :=
  a.map (Stmt.relocate f) = b.map (Stmt.relocate f)

/-- Both readers take a name, with the span that it has in their own input. -/
theorem alike_name (h : Abreast π total n w v) :
    Alike π (SameName π.move) total n ((Parser.name : Parser σ Name) w)
      ((Parser.name : Reader ε τ Name) v) := by
  refine alike_current_bind h fun t s s' hw hspan => ?_
  dsimp only
  split
  · refine (alike_advance h (by rw [hw]; exact nofun)).bind fun _ _ w' v' n' _ _ h' hn' =>
      alike_pure h' hn' ?_
    exact congrArg (Name.mk _) hspan
  · exact alike_unexpected h _

/-- Statements that are the same once they have their spans are given spans that are the same. -/
theorem Alike.spanned {p : Parser σ (Span → Stmt)} {q : Reader ε τ (Span → Stmt)}
    (h : Abreast π total n w v) (hpq : Alike π (SameMake π.move) total m (p w) (q v)) :
    Alike π (SameStmt π.move) total m (Parser.spanned p w) (Parser.spanned q v) := by
  rw [Parser.spanned_apply, Parser.spanned_apply]
  generalize p w = r at hpq
  generalize q v = r' at hpq
  cases hpq with
  | ok hvalue h' hn =>
    exact .ok (hvalue _ _ (π.keepsUnion _ _ _ _ h.span h'.previous)) h' hn
  | error herror h' hdrawn => exact .error herror h' hdrawn

/-! ## Expressions -/

/-- Two readers of expressions go in lockstep from windows with fewer than `n` lexemes left, and
take at least one lexeme if they succeed. -/
def LockstepExprs (π : Pairing σ τ) (total n : ℕ) (p : Parser σ Expr) (q : Reader ε τ Expr) :
    Prop :=
  ∀ (w : Window σ) (v : Window τ) (m : ℕ), Abreast π total m w v → m < n →
    Alike π (SameExpr π.move) total m (p w) (q v)

section
variable {p : Parser σ Expr} {q : Reader ε τ Expr} (hpq : LockstepExprs π total k p q)
include hpq

/-- An expression and the parenthesis that closes it. -/
theorem alike_closed (h : Abreast π total n w v) (hn : n < k) :
    Alike π (SameExpr π.move) total n
      ((p >>= fun value => Parser.consume (.symbol .rightParen) >>= fun _ => pure value) w)
      ((q >>= fun value => Parser.consume (.symbol .rightParen) >>= fun _ => pure value) v) := by
  refine (hpq w v n h hn).bind fun a b w₁ v₁ n₁ _ hab h₁ hn₁ => ?_
  exact (alike_consume h₁ (by decide)).bind fun _ _ w₂ v₂ n₂ _ _ h₂ hn₂ =>
    alike_pure h₂ (by omega) hab

omit hpq [Feed σ] in
/-- Lexemes of the same token make the same expressions alone. -/
theorem leaf?_alike {t : Token} {s s' : Span} (hspan : s.relocate f = s'.relocate f) :
    (Lexeme.leaf? ⟨t, s⟩ = none ∧ Lexeme.leaf? ⟨t, s'⟩ = none) ∨
      ∃ a b, Lexeme.leaf? ⟨t, s⟩ = some a ∧ Lexeme.leaf? ⟨t, s'⟩ = some b ∧ SameExpr f a b := by
  unfold Lexeme.leaf?
  dsimp only
  split <;> simp [SameExpr, Expr.relocate, Name.relocate, hspan]

/-- Both readers take a leaf, or an expression in parentheses, or neither does. -/
theorem alike_primary :
    LockstepExprs π total (k + 1) (Parser.primary p) (Parser.primary q) := by
  intro w v n h hn
  refine .progressing h (alike_current_bind h fun t s s' hw hspan => ?_)
  dsimp only
  split
  · next ht =>
    refine (alike_advance h (by rw [hw, ht]; exact nofun)).bind fun _ _ w₁ v₁ n₁ _ _ h₁ hn₁ => ?_
    exact (alike_closed hpq h₁ (by omega)).mono (by omega)
  · rcases leaf?_alike (t := t) hspan with ⟨ha, hb⟩ | ⟨a, b, ha, hb, hab⟩ <;> rw [ha, hb]
    · exact alike_unexpected h _
    · refine (alike_advance h fun hend => ?_).bind fun _ _ w₁ v₁ n₁ _ _ h₁ hn₁ =>
        alike_pure h₁ hn₁ hab
      rw [hw] at hend
      subst hend
      cases ha

end

/-- The spans of expressions that are the same up to a relocation are so. -/
theorem SameExpr.span {a b : Expr} (h : SameExpr f a b) :
    a.span.relocate f = b.span.relocate f := by
  have hspan : ∀ e : Expr, (e.relocate f).span = e.span.relocate f := by
    intro e
    cases e <;> rfl
  rw [← hspan, ← hspan, h]

/-- Operations on the same operands are the same, since their spans cover those of the operands. -/
theorem SameExpr.binary {op : BinaryOp} {l l' r r' : Expr} (hf : KeepsUnion f)
    (hl : SameExpr f l l') (hr : SameExpr f r r') :
    SameExpr f (.binary op l r (l.span.union r.span))
      (.binary op l' r' (l'.span.union r'.span)) := by
  have hspan := hf _ _ _ _ hl.span hr.span
  unfold SameExpr at *
  rw [Expr.relocate, Expr.relocate, hl, hr, hspan]

/-- Two readers of operators with these bounds go in lockstep behind operands that are the same. -/
def LockstepTails (ε : Type) [Failure ε] (π : Pairing σ τ) (total n a b : ℕ) : Prop :=
  ∀ (level : Precedence) (l l' : Expr) (w : Window σ) (v : Window τ) (m : ℕ),
    SameExpr π.move l l' → Abreast π total m w v → m < n →
    Alike π (SameExpr π.move) total (m + 1) (Parser.operators a level l w)
      ((Parser.operators b level l' : Reader ε τ Expr) v)

section
variable {a b : ℕ}

/-- The token alone decides whether there are more operators, and it is the same in both windows. -/
theorem lockstepTails_succ
    (hexpression : ∀ level, LockstepExprs π total n (Parser.expression a level)
      (Parser.expression b level : Reader ε τ Expr))
    (hoperators : LockstepTails ε π total n a b) :
    LockstepTails ε π total (n + 1) (a + 1) (b + 1) := by
  intro level l l' w v m hl h hm
  rcases stops_or_tighter level w.current.token with hstop | ⟨op, hop, htight⟩
  · rw [Parser.operators_of_stops hstop, Parser.operators_of_stops (h.token ▸ hstop)]
    exact .ok hl h (Nat.lt_succ_self m)
  · have hend : w.current.token ≠ .endOfInput := by
      intro hend
      rw [hend] at hop
      cases hop
    rw [Parser.operators_of_tighter hop htight,
      Parser.operators_of_tighter (h.token ▸ hop) htight]
    refine (Alike.progressing (R := SameExpr π.move) h ?_).bind
      fun r r' w₁ v₁ n₁ _ hr h₁ hn₁ => ?_
    · refine (alike_advance h hend).bind fun _ _ w₁ v₁ n₁ _ _ h₁ hn₁ => ?_
      exact (hexpression op.precedence w₁ v₁ n₁ h₁ (by omega)).mono (by omega)
    · exact (hoperators level _ _ w₁ v₁ n₁ (.binary π.keepsUnion hl hr) h₁ (by omega)).mono
        (by omega)

/-- An expression is a primary expression with the operators behind it. -/
theorem lockstepExprs_succ
    (hexpression : LockstepExprs π total n (Parser.expression a .lowest)
      (Parser.expression b .lowest : Reader ε τ Expr))
    (hoperators : LockstepTails ε π total n a b) (level : Precedence) :
    LockstepExprs π total (n + 1) (Parser.expression (a + 1) level)
      (Parser.expression (b + 1) level : Reader ε τ Expr) := by
  intro w v m h hm
  unfold Parser.expression
  refine (alike_primary hexpression w v m h hm).bind fun l l' w₁ v₁ n₁ _ hl h₁ hn₁ => ?_
  exact (hoperators level l l' w₁ v₁ n₁ hl h₁ (by omega)).mono (by omega)

/-- **Expressions.**  Two readers of expressions at the same level go in lockstep, whatever their
bounds are, if only both bounds are greater than the number of lexemes left. -/
theorem lockstep_expression_operators (n : ℕ) (ha : n ≤ a) (hb : n ≤ b) :
    (∀ level, LockstepExprs π total n (Parser.expression a level)
      (Parser.expression b level : Reader ε τ Expr)) ∧ LockstepTails ε π total n a b := by
  induction n generalizing a b with
  | zero =>
    exact ⟨fun _ _ _ _ _ hm => absurd hm (Nat.not_lt_zero _),
      fun _ _ _ _ _ _ _ _ hm => absurd hm (Nat.not_lt_zero _)⟩
  | succ n ih =>
    obtain ⟨a, rfl⟩ : ∃ a', a = a' + 1 := ⟨a - 1, by omega⟩
    obtain ⟨b, rfl⟩ : ∃ b', b = b' + 1 := ⟨b - 1, by omega⟩
    obtain ⟨hexpression, hoperators⟩ := ih (Nat.le_of_succ_le_succ ha) (Nat.le_of_succ_le_succ hb)
    exact ⟨lockstepExprs_succ (hexpression .lowest) hoperators,
      lockstepTails_succ hexpression hoperators⟩

end

end FlatScript
