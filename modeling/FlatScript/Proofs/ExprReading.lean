/-
# Expressions are read as the grammar says

A parser of expressions that climbs by precedence reads, at each level, the language of the
stratum above that level.  Nothing more is needed of what stands behind the expression than that
it does not begin with an operator that binds tighter than the level.

* `reads_expression` : the parser of expressions reads the language of expressions;
* `expression_stops` : it stops only in front of a token that ends an expression of its level.

Both go by induction on the bound of the recursion, for expressions and for the operators behind
a left operand at once.
-/
import FlatScript.Proofs.Climbing
import FlatScript.Proofs.ReadingRules
import FlatScript.Proofs.Relocation
import FlatScript.ExprParser

namespace FlatScript

open Grammar

variable {σ : Type} [Feed σ] {w : Window σ}

/-! ## The bound of the recursion -/

/-- The input ends before as many lexemes as the bound says. -/
def Window.Within (n : Nat) (w : Window σ) : Prop :=
  ∃ i < n, (w.ahead.get i).token = .endOfInput

/-- Lexemes that were taken count towards the bound. -/
theorem Window.Within.drop {w w' : Window σ} {n : Nat} {used : List Lexeme} (h : w.Within n)
    (hahead : w.ahead = used ++ₛ w'.ahead) (hproper : ∀ l ∈ used, l.Proper) :
    ∃ i, used.length + i < n ∧ (w'.ahead.get i).token = .endOfInput := by
  obtain ⟨i, hi, hend⟩ := h
  rw [hahead] at hend
  by_cases hlt : i < used.length
  · rw [Stream'.get_append_left _ _ _ hlt] at hend
    exact absurd hend (hproper _ (List.getElem_mem hlt)).not_end
  · obtain ⟨j, rfl⟩ := Nat.exists_eq_add_of_le (Nat.le_of_not_lt hlt)
    rw [Stream'.get_append_right] at hend
    exact ⟨j, hi, hend⟩

theorem Window.Within.mono {w : Window σ} {m n : Nat} (h : w.Within m) (hmn : m ≤ n) :
    w.Within n := by
  obtain ⟨i, hi, hend⟩ := h
  exact ⟨i, by omega, hend⟩

theorem Window.Within.succ {w : Window σ} {n : Nat} (h : w.Within n) : w.Within (n + 1) :=
  h.mono (Nat.le_succ n)

/-- No window is within the bound zero, so a recursion is not entered with it. -/
theorem Window.not_within_zero (w : Window σ) : ¬ w.Within 0 := by
  rintro ⟨i, hi, -⟩
  exact Nat.not_lt_zero i hi

section
variable {α β : Type} {view : α → β} {L : Language β} {K : β → Language Unit}
  {used : List Lexeme} {a : α} {w' : Window σ} {n : Nat}

/-- A parser does not get farther from the end of the input. -/
theorem Accepts.within (h : Accepts view L K w used a w') (hn : w.Within n) : w'.Within n := by
  obtain ⟨i, hi, hend⟩ := hn.drop h.ahead h.proper
  exact ⟨i, by omega, hend⟩

/-- A parser gets nearer to the end of the input if its language has no empty word. -/
theorem Accepts.within_pred (h : Accepts view L K w used a w') (hn : w.Within (n + 1))
    (hnil : ∀ b, ¬ L [] b) : w'.Within n := by
  obtain ⟨i, hi, hend⟩ := hn.drop h.ahead h.proper
  have hpos : 0 < used.length := by
    rw [List.length_pos_iff]
    rintro rfl
    exact hnil _ h.word
  exact ⟨i, by omega, hend⟩

end

/-! ## Facts on the grammar -/

/-- A token makes at most one expression alone. -/
theorem Grammar.Leaf.unique {t : Token} {e e' : Expr} (h : Leaf t e) (h' : Leaf t e') : e = e' := by
  cases h <;> cases h' <;> rfl

/-- The expression that a lexeme makes alone is a leaf of the grammar. -/
theorem Lexeme.leaf_of_leaf? {lexeme : Lexeme} {e : Expr} (h : lexeme.leaf? = some e) :
    Leaf lexeme.token e.bare := by
  unfold Lexeme.leaf? at h
  split at h <;> simp only [Option.some.injEq, reduceCtorEq] at h <;> subst h <;> rename_i ht <;>
    rw [ht] <;> constructor

theorem Lexeme.leaf?_ne_none {lexeme : Lexeme} {e : Expr} (h : Leaf lexeme.token e) :
    lexeme.leaf? ≠ none := by
  unfold Lexeme.leaf?
  generalize lexeme.token = t at h
  cases h <;> simp

/-- No expression is empty. -/
theorem Grammar.Expression.ne_nil {s : Stratum} {e : Expr} : ¬ Expression s [] e := by
  intro h
  generalize hts : ([] : List Token) = ts at h
  -- The empty sequence is named, since the induction is on all sequences.
  induction h with
  | leaf => cases hts
  | group => cases hts
  | single _ _ ih => exact ih hts
  | chain => exact List.append_ne_nil_of_right_ne_nil _ (List.cons_ne_nil _ _) hts.symm

/-- Every expression begins with a token that expressions begin with. -/
theorem Grammar.Expression.begins {s : Stratum} :
    Language.Begins StartsExpression (Expression s) := by
  intro t us e h
  generalize hts : t :: us = ts at h
  induction h generalizing us with
  | leaf h =>
    obtain ⟨rfl, -⟩ := List.cons.inj hts
    exact .inr ⟨_, h⟩
  | group =>
    obtain ⟨rfl, -⟩ := List.cons.inj hts
    exact .inl rfl
  | single _ _ ih => exact ih us hts
  | @chain _ _ _ ts _ _ _ _ _ hl _ ihl _ =>
    cases ts with
    | nil => exact absurd hl Expression.ne_nil
    | cons t' ts =>
      obtain ⟨rfl, -⟩ := List.cons.inj hts
      exact ihl ts rfl

/-- An expression shows in its first token that it is one. -/
theorem Grammar.Expression.starts {s : Stratum} {t : Token} {ts k : List Token} {e : Expr}
    (h : Expression s ts e) (hpre : [t] <+: ts ++ k) : StartsExpression t :=
  Expression.begins.of_prefix (fun _ => Expression.ne_nil) h hpre

/-- An expression that begins with a single token goes on with an operator. -/
theorem Grammar.Expression.second {s : Stratum} {t u : Token} {us : List Token} {e : Expr}
    (h : Expression s (t :: u :: us) e) (ht : t ≠ .symbol .leftParen) :
    ∃ op : BinaryOp, u = op.token := by
  generalize hts : t :: u :: us = ts at h
  induction h generalizing us with
  | leaf => cases hts
  | group => exact absurd (List.cons.inj hts).1 ht
  | single _ _ ih => exact ih hts
  | @chain _ _ op ts _ _ _ _ _ hl _ ihl _ =>
    match ts with
    | [] => exact absurd hl Expression.ne_nil
    | [_] =>
      obtain ⟨-, hrest⟩ := List.cons.inj hts
      exact ⟨op, (List.cons.inj hrest).1⟩
    | a :: b :: ts =>
      obtain ⟨rfl, hrest⟩ := List.cons.inj hts
      obtain ⟨rfl, -⟩ := List.cons.inj hrest
      exact ihl rfl

/-- A leaf is an expression at every level. -/
theorem Grammar.Leaf.expression {t : Token} {e : Expr} (h : Leaf t e) (level : Precedence) :
    Expression level.above [t] e :=
  Expression.loosen (p := .multiplication) (.leaf h) (by cases level <;> decide)

instance (level : Precedence) : Language.Inhabited (Expression level.above) :=
  ⟨[.keyword .truth], _, Leaf.truth.expression level⟩

instance : Language.Inhabited AnyExpression :=
  inferInstanceAs (Language.Inhabited (Expression Precedence.lowest.above))

instance (level bound : Precedence) (left : Expr) : Language.Inhabited (Tail level bound left) :=
  ⟨[], _, .stop⟩

/-- The expressions of a stratum as a language of two parts. -/
theorem expression_above_eq (level : Precedence) :
    Expression level.above =
      Language.bind (Expression .primary) fun left => Tail level .multiplication left := by
  funext ts e
  exact propext expression_above_iff

/-! ## Primary expressions -/

/-- A token that ends an expression read at a level: no operator that binds tighter. -/
def Stops (level : Precedence) (t : Token) : Prop :=
  ∀ op, t.binaryOp? = some op → ¬ level < op.precedence

/-- A token that is no operator ends an expression at every level. -/
theorem Stops.of_none {level : Precedence} {t : Token} (h : t.binaryOp? = none) :
    Stops level t := by
  intro op hop
  cases h.symm.trans hop

/-- A parser reads the expressions above a level, from all windows within a bound. -/
def ReadsExpressions (p : Parser σ Expr) (n : Nat) (level : Precedence) : Prop :=
  ∀ (w : Window σ) (K : Expr → Language Unit) [∀ e, (K e).Inhabited], w.Clear → w.Within n →
    (∀ e, (K e).Begins (Stops level)) →
    Reads Expr.bare p w (Expression level.above) K

/-- The words of a group: an expression between parentheses. -/
def groupLanguage : Language Expr :=
  (Language.token (.symbol .leftParen)).bind fun _ =>
    Language.bind AnyExpression fun e =>
      (Language.token (.symbol .rightParen)).bind fun _ => .unit e

/-- An expression between parentheses, written out. -/
theorem groupLanguage_iff {ts : List Token} {e : Expr} :
    groupLanguage ts e ↔
      ∃ us, AnyExpression us e ∧ ts = .symbol .leftParen :: us ++ [.symbol .rightParen] := by
  constructor
  · rintro ⟨_, _, _, rfl, ⟨us, _, _, he, ⟨_, _, _, rfl, ⟨rfl, rfl⟩, rfl⟩, rfl⟩, rfl⟩
    exact ⟨us, he, rfl⟩
  · rintro ⟨us, he, rfl⟩
    exact ⟨_, (), _, rfl, ⟨us, e, _, he, ⟨_, (), [], rfl, ⟨rfl, rfl⟩, rfl⟩, rfl⟩, rfl⟩

/-- A primary expression is a single token or a group. -/
theorem primary_iff {ts : List Token} {e : Expr} :
    Expression .primary ts e ↔ (∃ t, Leaf t e ∧ ts = [t]) ∨ groupLanguage ts e := by
  rw [groupLanguage_iff]
  constructor
  · intro h
    cases h with
    | leaf h => exact .inl ⟨_, h, rfl⟩
    | group h => exact .inr ⟨_, h, rfl⟩
    | single hs => cases hs
    | chain hs => cases hs
  · rintro (⟨t, h, rfl⟩ | ⟨us, h, rfl⟩)
    · exact .leaf h
    · exact .group h

/-- Every token that expressions begin with can begin a primary one. -/
theorem completable_primary {K : Expr → Language Unit} [∀ e, (K e).Inhabited] {t : Token}
    (h : StartsExpression t) : Completable (Language.bind (Expression .primary) K) [t] := by
  rcases h with rfl | ⟨e, h⟩
  · obtain ⟨us, e, he⟩ := Language.Inhabited.exists_word (L := AnyExpression)
    exact Language.completable_of_word [_] (us ++ [.symbol .rightParen]) (.group he)
  · exact Language.completable_of_word [t] [] (.leaf h)

/-- Reading an expression between parentheses. -/
theorem reads_group {inner : Parser σ Expr} {n : Nat} {K : Expr → Language Unit}
    [∀ e, (K e).Inhabited] (hinner : ReadsExpressions inner n .lowest) (hw : w.Clear)
    (hn : w.Within (n + 1)) :
    Reads Expr.bare
      (Parser.consume (.symbol .leftParen) >>= fun _ => inner >>= fun value =>
        Parser.consume (.symbol .rightParen) >>= fun _ => pure value) w groupLanguage K := by
  refine .bind (reads_token hw (by decide)) fun _ w₁ _ _ h₁ => ?_
  have hw₁ : w₁.Within n := h₁.within_pred hn fun _ h => nomatch h
  refine .bind (hinner w₁ _ h₁.clear hw₁ fun e => ?_) fun value w₂ _ _ h₂ => ?_
  · rw [Language.bind_assoc]
    exact Language.begins_token_bind (Stops.of_none rfl)
  · refine .bind (reads_token h₂.clear (by decide)) fun _ w₃ _ _ h₃ => ?_
    exact reads_unit h₃.clear rfl

/-- A primary expression is told by its first token: a parenthesis, or one that is a leaf.  Any of
these would do in place of another token. -/
theorem reads_primary {inner : Parser σ Expr} {n : Nat} {K : Expr → Language Unit}
    [∀ e, (K e).Inhabited] (hinner : ReadsExpressions inner n .lowest) (hw : w.Clear)
    (hn : w.Within (n + 1)) :
    Reads Expr.bare (Parser.primary inner) w (Expression .primary) K := by
  unfold Parser.primary
  rw [Parser.progressing_eq]
  refine Reads.congr (Parser.current_bind_apply _ w) ?_
  by_cases hparen : w.current.token = .symbol .leftParen
  · rw [if_pos hparen]
    refine Reads.of_branch (P := groupLanguage) (fun ts e h => primary_iff.2 (.inr h)) ?_ ?_
    · intro ts e k hts _ hpre
      rcases primary_iff.1 hts with ⟨t, h, rfl⟩ | h
      · have ht : w.current.token = t := (List.cons_prefix_cons.1 hpre).1
        rw [← ht, hparen] at h
        cases h
      · exact h
    · refine (reads_group hinner hw hn).congr ?_
      rw [Parser.bind_apply, Parser.bind_apply, Parser.consume_apply, if_pos hparen]
  · rw [if_neg hparen]
    cases hleaf : w.current.leaf? with
    | some value =>
      -- A single token is the whole of a primary expression, so nothing can go on with it.
      have hvalue := Lexeme.leaf_of_leaf? hleaf
      refine Reads.of_single hw ?_ (.leaf hvalue) ?_
      · intro hend
        rw [hend] at hvalue
        cases hvalue
      · intro ts e k hts _ hpre
        rcases primary_iff.1 hts with ⟨t, h, rfl⟩ | h
        · have ht : w.current.token = t := (List.cons_prefix_cons.1 hpre).1
          subst ht
          exact ⟨rfl, h.unique hvalue⟩
        · obtain ⟨us, -, rfl⟩ := groupLanguage_iff.1 h
          exact absurd (List.cons_prefix_cons.1 hpre).1 hparen
    | none =>
      refine Reads.of_unexpected hw ?_ ?_
      · intro ts e k hts _ hpre
        rcases primary_iff.1 hts with ⟨t, h, rfl⟩ | h
        · have ht : w.current.token = t := (List.cons_prefix_cons.1 hpre).1
          exact Lexeme.leaf?_ne_none (ht ▸ h) hleaf
        · obtain ⟨us, -, rfl⟩ := groupLanguage_iff.1 h
          exact hparen (List.cons_prefix_cons.1 hpre).1
      · rintro t ht
        cases ht with
        | expression h =>
          refine ⟨?_, completable_primary h⟩
          rintro rfl
          rcases h with h | ⟨_, h⟩ <;> cases h

/-! ## Operators behind a left operand -/

/-- The words of a tail that begins with a given operator. -/
def operatorLanguage (level : Precedence) (left : Expr) (op : BinaryOp) : Language Expr :=
  (Language.token op.token).bind fun _ =>
    Language.bind (Expression op.precedence.above) fun right =>
      Tail level op.precedence (.binary op left right {})

/-- The tails of an operand begin with an operator that the operand may stand in front of. -/
theorem Tail.begins {level bound : Precedence} {left : Expr} :
    Language.Begins (Stops bound) (Tail level bound left) := by
  intro t ts e h op hop
  generalize hus : t :: ts = us at h
  cases h with
  | stop => cases hus
  | step _ hbound =>
    obtain ⟨rfl, -⟩ := List.cons.inj hus
    rw [BinaryOp.binaryOp?_token, Option.some.injEq] at hop
    exact hop ▸ hbound

section
variable {ε : Type} [Failure ε] {n : Nat} {level : Precedence} {left : Expr}

/-- In front of a token that its level leaves alone, the left operand is all. -/
theorem Parser.operators_of_stops (h : Stops level w.current.token) :
    (Parser.operators (n + 1) level left : Reader ε σ Expr) w = .ok left w := by
  unfold Parser.operators
  rw [Parser.current_bind_apply]
  cases hop : w.current.token.binaryOp? with
  | none => rfl
  | some op =>
    have htight : op.bindsTighter level = false := decide_eq_false (h op hop)
    simp only [htight]
    rfl

/-- In front of an operator that binds tighter, a right operand is read, and then the operators
behind the two. -/
theorem Parser.operators_of_tighter {op : BinaryOp}
    (hop : w.current.token.binaryOp? = some op) (htight : level < op.precedence) :
    (Parser.operators (n + 1) level left : Reader ε σ Expr) w =
      (Parser.progressing (Parser.advance >>= fun _ => Parser.expression n op.precedence) >>=
        fun right => Parser.operators n level
          (.binary op left right (left.span.union right.span)) : Reader ε σ Expr) w := by
  conv => lhs; unfold Parser.operators
  rw [Parser.current_bind_apply, hop]
  have htight : op.bindsTighter level = true := decide_eq_true htight
  simp only [htight]
  rfl

end

/-- Either a token is left alone at a level, or it is an operator that binds tighter. -/
theorem stops_or_tighter (level : Precedence) (t : Token) :
    Stops level t ∨ ∃ op, t.binaryOp? = some op ∧ level < op.precedence := by
  by_cases h : Stops level t
  · exact .inl h
  · unfold Stops at h
    push Not at h
    exact .inr h

/-- The operators behind an operand end in front of a token that their level leaves alone. -/
theorem operators_stops {n : Nat} {level : Precedence} {left e : Expr} {w w' : Window σ}
    (h : (Parser.operators n level left : Parser σ Expr) w = .ok e w') :
    Stops level w'.current.token := by
  induction n generalizing left w with
  | zero => cases h
  | succ n ih =>
    rcases stops_or_tighter level w.current.token with hstop | ⟨op, hop, htight⟩
    · rw [Parser.operators_of_stops hstop] at h
      obtain ⟨rfl, rfl⟩ := EStateM.Result.ok.inj h
      exact hstop
    · rw [Parser.operators_of_tighter hop htight, Parser.progressing_eq, bind_assoc,
        Parser.bind_apply] at h
      split at h
      · rw [Parser.bind_apply] at h
        split at h
        · exact ih h
        · cases h
      · cases h

/-- An expression ends in front of such a token as well. -/
theorem expression_stops {n : Nat} {level : Precedence} {e : Expr} {w w' : Window σ}
    (h : (Parser.expression n level : Parser σ Expr) w = .ok e w') :
    Stops level w'.current.token := by
  cases n with
  | zero => cases h
  | succ n =>
    unfold Parser.expression at h
    rw [Parser.bind_apply] at h
    split at h
    · exact operators_stops h
    · cases h

/-! ## Expressions -/

/-- The operators behind a left operand are read as a tail, from all windows within a bound whose
current lexeme is one that the tail may go on with. -/
def ReadsTails (σ : Type) [Feed σ] (n : Nat) (level : Precedence) : Prop :=
  ∀ (w : Window σ) (K : Expr → Language Unit) [∀ e, (K e).Inhabited] (bound : Precedence)
    (left : Expr), w.Clear → w.Within n → (∀ e, (K e).Begins (Stops level)) →
    Stops bound w.current.token →
    Reads Expr.bare (Parser.operators n level left) w (Tail level bound left.bare) K

/-- One operator is read with its right operand, and then the rest. -/
theorem reads_operators_succ {n : Nat}
    (hexpression : ∀ level, ReadsExpressions (Parser.expression n level : Parser σ Expr) n level)
    (hoperators : ∀ level, ReadsTails σ n level) (level : Precedence) :
    ReadsTails σ (n + 1) level := by
  intro w K _ bound left hw hn hstop hbound
  rcases stops_or_tighter level w.current.token with hhere | ⟨op, hop, htight⟩
  · refine Reads.congr (Parser.operators_of_stops hhere) ?_
    refine Reads.of_branch ?_ ?_ (reads_unit hw rfl)
    · rintro _ _ ⟨rfl, rfl⟩
      exact .stop
    · intro ts e k hts _ hpre
      cases hts with
      | stop => exact ⟨rfl, rfl⟩
      | step hlevel =>
        have ht := (List.cons_prefix_cons.1 hpre).1
        exact absurd hlevel (hhere _ (by rw [ht, BinaryOp.binaryOp?_token]))
  · refine Reads.congr (Parser.operators_of_tighter hop htight) ?_
    rw [Parser.progressing_eq, bind_assoc]
    have ht : w.current.token = op.token := Token.binaryOp?_eq_some_iff.1 hop
    refine Reads.of_branch (P := operatorLanguage level left.bare op) ?_ ?_ ?_
    · rintro _ e ⟨_, _, _, rfl, ⟨us, right, vs, hright, htail, rfl⟩, rfl⟩
      have h : Tail level bound left.bare (op.token :: us ++ vs) e :=
        .step htight (hbound op hop) hright htail
      exact h
    · intro ts e k hts hk hpre
      cases hts with
      | stop =>
        -- the operator would have to stand behind the expression, where none so tight may stand
        cases k with
        | nil => cases List.prefix_nil.1 hpre
        | cons t k =>
          have ht' := (List.cons_prefix_cons.1 hpre).1
          exact absurd htight (hstop _ t k () hk op (ht' ▸ hop))
      | @step _ _ right _ op' us vs _ _ hright htail =>
        have ht' := (List.cons_prefix_cons.1 hpre).1
        rw [ht', BinaryOp.binaryOp?_token, Option.some.injEq] at hop
        subst hop
        exact ⟨_, (), _, rfl, ⟨us, right, vs, hright, htail, rfl⟩, rfl⟩
    · refine .bind (reads_advance hw ht (by cases op <;> decide)) fun _ w₁ _ _ h₁ => ?_
      have hw₁ : w₁.Within n := h₁.within_pred hn fun _ h => nomatch h
      refine .bind (hexpression op.precedence w₁ _ h₁.clear hw₁ ?_) fun right w₂ _ hok h₂ => ?_
      · -- what ends the level ends the tighter level of the right operand as well
        have hloose : ∀ e, (K e).Begins (Stops op.precedence) := fun e t ts _ hts op' hop' hlt =>
          hstop e t ts _ hts op' hop' (Nat.lt_trans htight hlt)
        exact fun right => Tail.begins.bind hloose
      · have hw₂ : Stops op.precedence w₂.current.token := expression_stops hok
        exact hoperators level w₂ K op.precedence _ h₂.clear (h₂.within hw₁) hstop hw₂

/-- A parser of expressions reads the language of its level if its parts do. -/
theorem reads_expression_succ {n : Nat}
    (hexpression : ReadsExpressions (Parser.expression n .lowest : Parser σ Expr) n .lowest)
    (hoperators : ∀ level, ReadsTails σ n level) (level : Precedence) :
    ReadsExpressions (Parser.expression (n + 1) level : Parser σ Expr) (n + 1) level := by
  intro w K _ hw hn hstop
  unfold Parser.expression
  rw [expression_above_eq]
  refine .bind (reads_primary hexpression hw hn) fun left w₁ _ _ h₁ => ?_
  have hw₁ : w₁.Within n := h₁.within_pred hn fun _ => Expression.ne_nil
  have hbound : Stops .multiplication w₁.current.token := fun op _ => by cases op <;> decide
  exact hoperators level w₁ K .multiplication left h₁.clear hw₁ hstop hbound

/-- **Expressions.**  With a bound greater than the number of lexemes left, the parser of
expressions reads at every level the language of the stratum above it, and the parser of operators
the tails of their left operand. -/
theorem reads_expression_operators (n : Nat) :
    (∀ level, ReadsExpressions (Parser.expression n level : Parser σ Expr) n level) ∧
      ∀ level, ReadsTails σ n level := by
  induction n with
  | zero =>
    exact ⟨fun _ w _ _ _ hn => absurd hn w.not_within_zero,
      fun _ w _ _ _ _ _ hn => absurd hn w.not_within_zero⟩
  | succ n ih =>
    exact ⟨reads_expression_succ (ih.1 .lowest) ih.2, reads_operators_succ ih.1 ih.2⟩

/-- An expression is read at every level, if the bound is greater than the number of lexemes
left. -/
theorem reads_expression (n : Nat) (level : Precedence) :
    ReadsExpressions (Parser.expression n level : Parser σ Expr) n level :=
  (reads_expression_operators n).1 level

end FlatScript
