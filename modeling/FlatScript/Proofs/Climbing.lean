/-
# Climbing by precedence

The grammar has a left recursive nonterminal for each stratum of operators; a reader that climbs
by precedence meets a primary expression and then operators with their right operands.  Both say
the same.

`Tail level bound left` describes the operators behind a left operand: each binds tighter than
`level`, and none tighter than the one before it (`bound`), since that one has taken all tighter
operators into its own right operand.

* `expression_above_iff` : an expression of the stratum above a level is a primary expression
  with a tail.
-/
import FlatScript.Proofs.Grammar

namespace FlatScript

open Grammar

/-! ## Operators and their tokens -/

@[simp] theorem BinaryOp.binaryOp?_token (op : BinaryOp) : op.token.binaryOp? = some op := by
  cases op <;> rfl

/-- A token stands for an operator exactly if the operator is written so. -/
theorem Token.binaryOp?_eq_some_iff {t : Token} {op : BinaryOp} :
    t.binaryOp? = some op ↔ t = op.token := by
  constructor
  · intro h
    unfold Token.binaryOp? at h
    split at h <;> simp_all [BinaryOp.token]
    all_goals subst h; rfl
  · rintro rfl
    exact op.binaryOp?_token

/-! ## Levels and strata -/

/-- The stratum whose operators are the loosest ones that bind tighter than a level. -/
def Precedence.above : Precedence → Stratum
  | .lowest => .disjunction
  | .logicalOr => .conjunction
  | .logicalAnd => .equality
  | .equality => .relation
  | .comparison => .sum
  | .addition => .product
  | .multiplication => .primary

theorem Precedence.lt_iff {p q : Precedence} : p < q ↔ p.rank < q.rank := Iff.rfl

/-- The operators of the stratum above a level bind one level tighter, and their right operands
belong to the stratum above them. -/
theorem Precedence.of_mem_operators_above {level : Precedence} {op : BinaryOp} {s : Stratum}
    (hop : op ∈ level.above.operators) (hs : level.above.operand? = some s) :
    op.precedence.rank = level.rank + 1 ∧ op.precedence.above = s := by
  cases level <;> simp only [above, Stratum.operators, Stratum.operand?] at hop hs <;>
    cases hs <;> cases op <;> simp at hop <;> decide

/-- Every operator is one of the stratum above some level, the one just looser. -/
theorem Precedence.exists_above (op : BinaryOp) :
    ∃ level : Precedence, level.rank + 1 = op.precedence.rank ∧ op ∈ level.above.operators ∧
      level.above.operand? = some op.precedence.above := by
  cases op
  case or => exact ⟨.lowest, by decide⟩
  case and => exact ⟨.logicalOr, by decide⟩
  case equal | notEqual => exact ⟨.logicalAnd, by decide⟩
  case less | lessEqual | greater | greaterEqual => exact ⟨.equality, by decide⟩
  case add | subtract => exact ⟨.comparison, by decide⟩
  case multiply | divide => exact ⟨.addition, by decide⟩

/-- The stratum of the operands is the one above the next level. -/
theorem Precedence.exists_above_operand {level : Precedence} {s : Stratum}
    (hs : level.above.operand? = some s) :
    ∃ next : Precedence, next.rank = level.rank + 1 ∧ next.above = s := by
  cases level <;> simp only [above, Stratum.operand?] at hs <;> cases hs
  · exact ⟨.logicalOr, by decide⟩
  · exact ⟨.logicalAnd, by decide⟩
  · exact ⟨.equality, by decide⟩
  · exact ⟨.comparison, by decide⟩
  · exact ⟨.addition, by decide⟩
  · exact ⟨.multiplication, by decide⟩

/-- An expression that binds tightly can stand where a looser one may. -/
theorem Grammar.Expression.loosen {ts : List Token} {e : Expr} {p : Precedence}
    (h : Expression p.above ts e) {q : Precedence} (hqp : q.rank ≤ p.rank) :
    Expression q.above ts e := by
  -- Each step goes down by one level, through the rule for a single operand.
  by_cases heq : q.rank = p.rank
  · have : q = p := by revert heq; cases q <;> cases p <;> decide
    exact this ▸ h
  · obtain ⟨s, hs⟩ : ∃ s, q.above.operand? = some s := by
      cases q <;> first | exact ⟨_, rfl⟩ | (cases p <;> simp [Precedence.rank] at hqp heq)
    obtain ⟨next, hnext, rfl⟩ := Precedence.exists_above_operand hs
    exact .single hs (h.loosen (by omega))
termination_by p.rank - q.rank

/-! ## Tails -/

/-- The operators behind a left operand, with their right operands, and the expression that they
make of it. -/
inductive Tail (level : Precedence) : Precedence → Expr → List Token → Expr → Prop where
  | stop {bound : Precedence} {left : Expr} : Tail level bound left [] left
  | step {bound : Precedence} {left right e : Expr} {op : BinaryOp} {us vs : List Token}
      (hlevel : level < op.precedence) (hbound : ¬ bound < op.precedence)
      (hr : Expression op.precedence.above us right)
      (ht : Tail level op.precedence (.binary op left right {}) vs e) :
      Tail level bound left (op.token :: us ++ vs) e

namespace Tail

variable {level bound : Precedence} {left e : Expr} {ts : List Token}

/-- At a looser level the same operators can be read. -/
theorem loosen (h : Tail level bound left ts e) {p : Precedence} (hp : p.rank ≤ level.rank) :
    Tail p bound left ts e := by
  induction h with
  | stop => exact .stop
  | step hlevel hbound hr _ ih => exact .step (Nat.lt_of_le_of_lt hp hlevel) hbound hr ih

/-- One more operator at the end, if it is of the loosest kind allowed. -/
theorem snoc (h : Tail level bound left ts e) {op : BinaryOp} {us : List Token} {right : Expr}
    (hop : op.precedence.rank = level.rank + 1) (hbound : ¬ bound < op.precedence)
    (hr : Expression op.precedence.above us right) :
    Tail level bound left (ts ++ op.token :: us) (.binary op e right {}) := by
  induction h with
  | @stop _ left =>
    have hlevel : level < op.precedence := Precedence.lt_iff.2 (by omega)
    have h : Tail level _ left (op.token :: us ++ []) _ := .step hlevel hbound hr .stop
    rwa [List.append_nil] at h
  | @step _ _ _ _ op' us' vs hlevel hbound' hr' _ ih =>
    have hop' : ¬ op'.precedence < op.precedence := by
      rw [Precedence.lt_iff] at hlevel ⊢
      omega
    have h := Tail.step hlevel hbound' hr' (ih hop')
    rwa [← List.append_assoc] at h

/-- **Folding a tail.**  A left operand that fits every stratum above a level looser than the
bound makes, with its tail, an expression of the stratum above the level of the tail. -/
theorem fold (h : Tail level bound left ts e) (hb : level < bound) {us : List Token}
    (hleft : ∀ p : Precedence, p < bound → Expression p.above us left) :
    Expression level.above (us ++ ts) e := by
  induction h generalizing us with
  | stop =>
    rw [List.append_nil]
    exact hleft level hb
  | @step bound left right e op vs ws hlevel hbound hr _ ih =>
    -- The first operator makes a new left operand, which fits all levels looser than its own.
    have hfit : ∀ p : Precedence, p < op.precedence →
        Expression p.above (us ++ op.token :: vs) (.binary op left right {}) := by
      intro p hp
      obtain ⟨q, hq, hmem, hoperand⟩ := Precedence.exists_above op
      rw [Precedence.lt_iff] at hp hbound
      have hchain := Expression.chain hoperand hmem
        (hleft q (Precedence.lt_iff.2 (by omega))) hr
      exact hchain.loosen (by omega)
    have h := ih hlevel hfit
    rwa [List.append_assoc] at h

end Tail

/-! ## The two descriptions agree -/

/-- An expression of a stratum is a primary expression with a tail. -/
theorem Grammar.Expression.exists_tail {s : Stratum} {ts : List Token} {e : Expr}
    (h : Expression s ts e) {level : Precedence} (hs : level.above = s) :
    ∃ us left vs, Expression .primary us left ∧ Tail level .multiplication left vs e ∧
      ts = us ++ vs := by
  -- The chain leans to the left: its last operator is the last one of the tail as well.
  induction h generalizing level with
  | leaf h => exact ⟨_, _, [], .leaf h, .stop, (List.append_nil _).symm⟩
  | group h _ => exact ⟨_, _, [], .group h, .stop, (List.append_nil _).symm⟩
  | single hoperand _ ih =>
    subst hs
    obtain ⟨next, hnext, habove⟩ := Precedence.exists_above_operand hoperand
    obtain ⟨us, left, vs, hus, hvs, rfl⟩ := ih habove
    exact ⟨us, left, vs, hus, hvs.loosen (by omega), rfl⟩
  | @chain _ _ op _ _ _ _ hoperand hop _ hr ihl _ =>
    subst hs
    obtain ⟨hrank, habove⟩ := Precedence.of_mem_operators_above hop hoperand
    obtain ⟨us, left, vs, hus, hvs, rfl⟩ := ihl rfl
    have hbound : ¬ Precedence.multiplication < op.precedence := by
      cases op <;> decide
    exact ⟨us, left, _, hus, hvs.snoc hrank hbound (habove ▸ hr), List.append_assoc ..⟩

/-- **Climbing by precedence is stratification.**  The expressions of the stratum above a level
are the primary expressions with a tail at that level. -/
theorem expression_above_iff {level : Precedence} {ts : List Token} {e : Expr} :
    Expression level.above ts e ↔
      ∃ us left vs, Expression .primary us left ∧ Tail level .multiplication left vs e ∧
        ts = us ++ vs := by
  constructor
  · exact fun h => h.exists_tail rfl
  · rintro ⟨us, left, vs, hus, hvs, rfl⟩
    have hfit : ∀ p : Precedence, Expression p.above us left := by
      intro p
      exact Expression.loosen (p := .multiplication) hus (by cases p <;> decide)
    by_cases hlevel : level < Precedence.multiplication
    · exact hvs.fold hlevel fun p _ => hfit p
    · -- no operator binds tighter than a product, so the tail is empty
      cases hvs with
      | stop => exact (List.append_nil us).symm ▸ hfit level
      | step hop hbound => exact absurd (Nat.lt_of_le_of_lt (Nat.le_of_not_lt hlevel) hop) hbound

end FlatScript
