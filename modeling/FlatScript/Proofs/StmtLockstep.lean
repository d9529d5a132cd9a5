/-
# Statements and whole inputs in lockstep

* `alike_statements` : two readers of statements go in lockstep;
* `alike_soleExpression` : so do two readers of a single expression;
* `runOn_alike` : the runs of two readers in lockstep are alike, if their feeds go together;
* `Lexeme.readable` : the tokens in front of the end or of a character that begins none, and
  `runOn_source_alike` : a run on a source is alike to all that go with it.
-/
import Mathlib.Data.List.TakeWhile
import FlatScript.Proofs.Lockstep

namespace FlatScript

variable {ε σ τ : Type} [Failure ε] [Feed σ] [Feed τ] {α : Type} {f : Position → Position}
  {π : Pairing σ τ} {w : Window σ} {v : Window τ} {total n m k : ℕ}

/-! ## Statements -/

section
variable {x y : Name} {c d : Expr} {b b' : List Stmt}

/-- Statements of the same parts are the same.  What each kind of statement adds to its parts is the
span. -/
theorem SameMake.expr (h : SameExpr f c d) : SameMake f (.expr c) (.expr d) := by
  intro s s' hs
  rw [Stmt.relocate, Stmt.relocate, h, hs]

theorem SameMake.assign (hx : SameName f x y) (h : SameExpr f c d) :
    SameMake f (.assign x c) (.assign y d) := by
  intro s s' hs
  rw [Stmt.relocate, Stmt.relocate, hx, h, hs]

theorem SameMake.update (op : UpdateOp) (hx : SameName f x y) :
    SameMake f (.update op x) (.update op y) := by
  intro s s' hs
  rw [Stmt.relocate, Stmt.relocate, hx, hs]

theorem SameMake.print {es es' : List Expr}
    (hes : es.map (Expr.relocate f) = es'.map (Expr.relocate f)) (h : SameExpr f c d) :
    SameMake f (.print es c) (.print es' d) := by
  intro s s' hs
  rw [Stmt.relocate, Stmt.relocate, hes, h, hs]

/-- No `else` on one side goes with none on the other. -/
theorem SameMake.branch {alternative alternative' : Option (List Stmt)} (h : SameExpr f c d)
    (hb : SameStmts f b b')
    (ha : alternative.map (List.map (Stmt.relocate f)) =
      alternative'.map (List.map (Stmt.relocate f))) :
    SameMake f (.branch c b alternative) (.branch d b' alternative') := by
  intro s s' hs
  rw [Stmt.relocate_branch, Stmt.relocate_branch, h, hb, ha, hs]

theorem SameMake.whileLoop (h : SameExpr f c d) (hb : SameStmts f b b') :
    SameMake f (.whileLoop c b) (.whileLoop d b') := by
  intro s s' hs
  rw [Stmt.relocate, Stmt.relocate, Stmt.relocateAll_eq_map, Stmt.relocateAll_eq_map, h, hb, hs]

/-- The clauses of a `for` that are statements have their own spans already. -/
theorem SameMake.forLoop {start start' step step' : Stmt} (hstart : SameStmt f start start')
    (h : SameExpr f c d) (hstep : SameStmt f step step') (hb : SameStmts f b b') :
    SameMake f (.forLoop start c step b) (.forLoop start' d step' b') := by
  intro s s' hs
  rw [Stmt.relocate, Stmt.relocate, Stmt.relocateAll_eq_map, Stmt.relocateAll_eq_map, hstart, h,
    hstep, hb, hs]

end

section
variable {p : Parser σ Expr} {q : Reader ε τ Expr} (hpq : LockstepExprs π total k p q)

/-! ## Simple statements -/

/-- Of a terminator only the text is kept, with its span. -/
theorem alike_terminator (h : Abreast π total n w v)
    (hseen : w.current.token = .keyword .terminator) :
    Alike π (SameExpr π.move) total n ((Parser.terminator : Parser σ Expr) w)
      ((Parser.terminator : Reader ε τ Expr) v) := by
  unfold Parser.terminator Parser.keyword Parser.symbol
  refine (alike_expect h hseen nofun).bind fun _ _ w₁ v₁ n₁ _ _ h₁ hn₁ => ?_
  refine (alike_consume h₁ (by decide)).bind fun _ _ w₂ v₂ n₂ _ _ h₂ hn₂ => ?_
  refine alike_current_bind h₂ fun t s s' hw₂ hspan => ?_
  dsimp only
  split
  · refine (alike_advance h₂ (by rw [hw₂]; exact nofun)).bind fun _ _ w₃ v₃ n₃ _ _ h₃ hn₃ =>
      alike_pure h₃ (by omega) ?_
    exact congrArg (Expr.literal _) hspan
  · exact alike_unexpected h₂ _

include hpq

/-- The mark behind the name tells both readers which change it is. -/
theorem alike_change (h : Abreast π total n w v) (hn : n < k) :
    Alike π (SameMake π.move) total n (Parser.change p w) (Parser.change q v) := by
  unfold Parser.change
  refine (alike_name h).bind fun x y w₁ v₁ n₁ _ hxy h₁ hn₁ => ?_
  refine alike_current_bind h₁ fun t s s' hw₁ _ => ?_
  have hupdate : ∀ op : UpdateOp, t = .symbol op.mark → Alike π (SameMake π.move) total n
      ((Parser.advance >>= fun _ => pure (.update op x) : Parser σ (Span → Stmt)) w₁)
      ((Parser.advance >>= fun _ => pure (.update op y) : Reader ε τ (Span → Stmt)) v₁) :=
    fun op ht => (alike_advance h₁ (by rw [hw₁, ht]; exact nofun)).bind
      fun _ _ w₂ v₂ n₂ _ _ h₂ hn₂ => alike_pure h₂ (by omega) (.update op hxy)
  dsimp only
  split
  · refine (alike_advance h₁ (by rw [hw₁]; exact nofun)).bind fun _ _ w₂ v₂ n₂ _ _ h₂ hn₂ => ?_
    exact (hpq w₂ v₂ n₂ h₂ (by omega)).bind fun a b w₃ v₃ n₃ _ hab h₃ hn₃ =>
      alike_pure h₃ (by omega) (.assign hxy hab)
  · exact hupdate .increment rfl
  · exact hupdate .decrement rfl
  · exact alike_unexpected h₁ _

omit hpq in
/-- Items that are the same up to a relocation. -/
def SameItems (f : Position → Position) (a b : List Expr × Option Expr) : Prop :=
  a.1.map (Expr.relocate f) = b.1.map (Expr.relocate f) ∧
    a.2.map (Expr.relocate f) = b.2.map (Expr.relocate f)

/-- Rounds of the loop over items: each of them takes a comma at least. -/
theorem alike_items (j : ℕ) {a b : ℕ} (ha : j ≤ a) (hb : j ≤ b) (h : Abreast π total n w v)
    (hn : n < k) (hj : n < j) :
    Alike π (SameItems π.move) total (n + 1) (Parser.items p a w) (Parser.items q b v) := by
  induction j generalizing a b w v n with
  | zero => exact absurd hj (Nat.not_lt_zero n)
  | succ j ih =>
    obtain ⟨a, rfl⟩ : ∃ a', a = a' + 1 := ⟨a - 1, by omega⟩
    obtain ⟨b, rfl⟩ : ∃ b', b = b' + 1 := ⟨b - 1, by omega⟩
    unfold Parser.items
    rw [Parser.drawn_bind_apply, Parser.drawn_bind_apply]
    refine alike_accept_bind h (by decide) (fun w₁ v₁ n₁ h₁ hn₁ => ?_)
      (alike_pure h (Nat.lt_succ_self n) ⟨rfl, rfl⟩)
    refine alike_current_bind h₁ fun t s s' hw₁ _ => ?_
    dsimp only
    split
    · next ht =>
      refine (alike_terminator h₁ (by rw [hw₁, ht])).bind fun e e' w₂ v₂ n₂ _ he h₂ hn₂ => ?_
      rw [Parser.movedSince_bind, Parser.movedSince_bind_apply _ (h.moved h₂ (by omega))]
      exact alike_pure h₂ (by omega) ⟨rfl, congrArg some he⟩
    · refine (hpq w₁ v₁ n₁ h₁ (by omega)).bind fun e e' w₂ v₂ n₂ _ he h₂ hn₂ => ?_
      rw [Parser.movedSince_bind, Parser.movedSince_bind_apply _ (h.moved h₂ (by omega))]
      exact (ih (by omega) (by omega) h₂ (by omega) (by omega)).bind
        fun r r' w₃ v₃ n₃ _ hr h₃ hn₃ =>
          alike_pure h₃ (by omega) ⟨congrArg₂ List.cons he hr.1, hr.2⟩

/-- Both lines end with the terminators that are given, or at their semicolons. -/
theorem alike_printing {a b : ℕ} (ha : k ≤ a) (hb : k ≤ b) (h : Abreast π total n w v)
    (hn : n < k) (hseen : w.current.token = .keyword .print) :
    Alike π (SameMake π.move) total n (Parser.printing p a w) (Parser.printing q b v) := by
  unfold Parser.printing Parser.keyword Parser.symbol
  refine (alike_expect h hseen nofun).bind fun _ _ w₁ v₁ n₁ _ _ h₁ hn₁ => ?_
  refine (alike_consume h₁ (by decide)).bind fun _ _ w₂ v₂ n₂ _ _ h₂ hn₂ => ?_
  refine (hpq w₂ v₂ n₂ h₂ (by omega)).bind fun e e' w₃ v₃ n₃ _ he h₃ hn₃ => ?_
  refine (alike_items hpq k ha hb h₃ (by omega) (by omega)).bind
    fun r r' w₄ v₄ n₄ _ hr h₄ hn₄ => ?_
  refine (alike_consume h₄ (by decide)).bind fun _ _ w₅ v₅ n₅ _ _ h₅ hn₅ => ?_
  refine alike_current_bind h₅ fun t s s' hw₅ hspan => ?_
  refine (alike_consume h₅ (by decide)).bind fun _ _ w₆ v₆ n₆ _ _ h₆ hn₆ =>
    alike_pure h₆ (by omega) ?_
  refine .print (congrArg₂ List.cons he hr.1) ?_
  rcases r with ⟨rest, _ | ending⟩ <;> rcases r' with ⟨rest', _ | ending'⟩
  · exact congrArg (Expr.literal _) hspan
  · cases hr.2
  · cases hr.2
  · exact Option.some.inj hr.2

/-! ## Statements with blocks -/

/-- A condition takes one lexeme more than its expression, the parenthesis in front. -/
theorem alike_condition (h : Abreast π total n w v) (hn : n < k + 1) :
    Alike π (SameExpr π.move) total n (Parser.condition p w) (Parser.condition q v) := by
  unfold Parser.condition Parser.symbol
  refine (alike_consume h (by decide)).bind fun _ _ w₁ v₁ n₁ _ _ h₁ hn₁ => ?_
  exact (alike_closed hpq h₁ (by omega)).mono (by omega)

/-- Both readers take a name, an equals sign and an expression. -/
theorem alike_forStart (h : Abreast π total n w v) (hn : n < k) :
    Alike π (SameMake π.move) total n (Parser.forStart p w) (Parser.forStart q v) := by
  unfold Parser.forStart Parser.symbol
  refine (alike_name h).bind fun x y w₁ v₁ n₁ _ hxy h₁ hn₁ => ?_
  refine (alike_consume h₁ (by decide)).bind fun _ _ w₂ v₂ n₂ _ _ h₂ hn₂ => ?_
  exact (hpq w₂ v₂ n₂ h₂ (by omega)).bind fun a b w₃ v₃ n₃ _ hab h₃ hn₃ =>
    alike_pure h₃ (by omega) (.assign hxy hab)

omit hpq in
/-- Two readers of blocks go in lockstep from windows with fewer than `n` lexemes left, and take at
least one lexeme if they succeed. -/
def LockstepBlocks (π : Pairing σ τ) (total n : ℕ) (B : Parser σ (List Stmt))
    (B' : Reader ε τ (List Stmt)) : Prop :=
  ∀ (w : Window σ) (v : Window τ) (m : ℕ), Abreast π total m w v → m < n →
    Alike π (SameStmts π.move) total m (B w) (B' v)

section
variable {B : Parser σ (List Stmt)} {B' : Reader ε τ (List Stmt)}
  (hB : LockstepBlocks π total k B B')
include hB

/-- Both readers find an `else` or neither does. -/
theorem alike_branching (h : Abreast π total n w v) (hn : n < k)
    (hseen : w.current.token = .keyword .conditional) :
    Alike π (SameMake π.move) total n (Parser.branching p B w) (Parser.branching q B' v) := by
  unfold Parser.branching Parser.keyword
  refine (alike_expect h hseen nofun).bind fun _ _ w₁ v₁ n₁ _ _ h₁ hn₁ => ?_
  refine (alike_condition hpq h₁ (by omega)).bind fun c d w₂ v₂ n₂ _ hcd h₂ hn₂ => ?_
  refine (hB w₂ v₂ n₂ h₂ (by omega)).bind fun b b' w₃ v₃ n₃ _ hb h₃ hn₃ => ?_
  refine alike_accept_bind h₃ (by decide) (fun w₄ v₄ n₄ h₄ hn₄ => ?_)
    (alike_pure h₃ (by omega) (.branch hcd hb rfl))
  exact (hB w₄ v₄ n₄ h₄ (by omega)).bind fun a a' w₅ v₅ n₅ _ ha h₅ hn₅ =>
    alike_pure h₅ (by omega) (.branch hcd hb (congrArg some ha))

/-- Both readers take a condition and a block. -/
theorem alike_whileLooping (h : Abreast π total n w v) (hn : n < k)
    (hseen : w.current.token = .keyword .whileLoop) :
    Alike π (SameMake π.move) total n (Parser.whileLooping p B w)
      (Parser.whileLooping q B' v) := by
  unfold Parser.whileLooping Parser.keyword
  refine (alike_expect h hseen nofun).bind fun _ _ w₁ v₁ n₁ _ _ h₁ hn₁ => ?_
  refine (alike_condition hpq h₁ (by omega)).bind fun c d w₂ v₂ n₂ _ hcd h₂ hn₂ => ?_
  exact (hB w₂ v₂ n₂ h₂ (by omega)).bind fun b b' w₃ v₃ n₃ _ hb h₃ hn₃ =>
    alike_pure h₃ (by omega) (.whileLoop hcd hb)

/-- The two clauses of a `for` that are statements are given their spans on the way. -/
theorem alike_forLooping (h : Abreast π total n w v) (hn : n < k)
    (hseen : w.current.token = .keyword .forLoop) :
    Alike π (SameMake π.move) total n (Parser.forLooping p B w) (Parser.forLooping q B' v) := by
  unfold Parser.forLooping Parser.keyword Parser.symbol
  refine (alike_expect h hseen nofun).bind fun _ _ w₁ v₁ n₁ _ _ h₁ hn₁ => ?_
  refine (alike_consume h₁ (by decide)).bind fun _ _ w₂ v₂ n₂ _ _ h₂ hn₂ => ?_
  refine (Alike.spanned h₂ (alike_forStart hpq h₂ (by omega))).bind
    fun start start' w₃ v₃ n₃ _ hstart h₃ hn₃ => ?_
  refine (alike_consume h₃ (by decide)).bind fun _ _ w₄ v₄ n₄ _ _ h₄ hn₄ => ?_
  refine (hpq w₄ v₄ n₄ h₄ (by omega)).bind fun c d w₅ v₅ n₅ _ hcd h₅ hn₅ => ?_
  refine (alike_consume h₅ (by decide)).bind fun _ _ w₆ v₆ n₆ _ _ h₆ hn₆ => ?_
  refine (Alike.spanned h₆ (alike_change hpq h₆ (by omega))).bind
    fun step step' w₇ v₇ n₇ _ hstep h₇ hn₇ => ?_
  refine (alike_consume h₇ (by decide)).bind fun _ _ w₈ v₈ n₈ _ _ h₈ hn₈ => ?_
  exact (hB w₈ v₈ n₈ h₈ (by omega)).bind fun b b' w₉ v₉ n₉ _ hb h₉ hn₉ =>
    alike_pure h₉ (by omega) (.forLoop hstart hcd hstep hb)

/-! ## Statements and blocks -/

omit hpq hB in
/-- Both readers take a statement and the semicolon behind it. -/
theorem alike_terminated {body : Parser σ (Span → Stmt)} {body' : Reader ε τ (Span → Stmt)}
    (h : Alike π (SameMake π.move) total n (body w) (body' v)) :
    Alike π (SameMake π.move) total n (Parser.statement.terminated body w)
      (Parser.statement.terminated body' v) := by
  unfold Parser.statement.terminated Parser.symbol
  refine h.bind fun a b w₁ v₁ n₁ _ hab h₁ hn₁ => ?_
  exact (alike_consume h₁ (by decide)).bind fun _ _ w₂ v₂ n₂ _ _ h₂ hn₂ =>
    alike_pure h₂ (by omega) hab

omit hB in
theorem alike_evaluation (h : Abreast π total n w v) (hn : n < k) :
    Alike π (SameMake π.move) total n (Parser.statement.evaluation p w)
      (Parser.statement.evaluation q v) := by
  unfold Parser.statement.evaluation
  exact (hpq w v n h hn).bind fun a b w₁ v₁ n₁ _ hab h₁ hn₁ => alike_pure h₁ hn₁ (.expr hab)

/-- The first lexeme tells both readers which kind of statement it is, and the next one if the first
is a name.  What the reader of this kind expects first is what was seen. -/
theorem alike_statement {a b : ℕ} (ha : k ≤ a) (hb : k ≤ b) (h : Abreast π total n w v)
    (hn : n < k) :
    Alike π (SameStmt π.move) total n (Parser.statement p B a w) (Parser.statement q B' b v) := by
  have hother := alike_terminated (alike_evaluation hpq h hn)
  refine .progressing h (.spanned h (alike_current_bind h fun t s s' hw _ => ?_))
  have hseen : w.current.token = t := by rw [hw]
  cases t with
  | keyword word =>
    cases word with
    | print => exact alike_printing hpq ha hb h hn hseen
    | conditional => exact alike_branching hpq hB h hn hseen
    | whileLoop => exact alike_whileLooping hpq hB h hn hseen
    | forLoop => exact alike_forLooping hpq hB h hn hseen
    | _ => exact hother
  | name x =>
    have hnext : v.next.token = w.next.token := (congrArg Lexeme.token h.next).symm
    dsimp only
    rw [Parser.next_bind_apply, Parser.next_bind_apply, hnext]
    split
    · exact alike_terminated (alike_change hpq h hn)
    · exact hother
  | _ => exact hother

end

end

/-- The closing brace of a block is expected where its statements have stopped. -/
theorem lockstep_block {B : Parser σ (List Stmt)} {B' : Reader ε τ (List Stmt)}
    (hB : ∀ (w : Window σ) (v : Window τ) (m : ℕ), Abreast π total m w v → m < k →
      Alike π (SameStmts π.move) total (m + 1) (B w) (B' v))
    (hclosing : ∀ (w : Window σ) b w', B w = .ok b w' → w'.current.token = .symbol .rightBrace) :
    LockstepBlocks π total (k + 1) (Parser.block B) (Parser.block B') := by
  intro w v n h hn
  refine .progressing h ?_
  unfold Parser.symbol
  refine (alike_consume h (by decide)).bind fun _ _ w₁ v₁ n₁ _ _ h₁ hn₁ => ?_
  refine (hB w₁ v₁ n₁ h₁ (by omega)).bind fun b b' w₂ v₂ n₂ hstopped hb h₂ hn₂ => ?_
  exact (alike_expect h₂ (hclosing _ _ _ hstopped) nofun).bind fun _ _ w₃ v₃ n₃ _ _ h₃ hn₃ =>
    alike_pure h₃ (by omega) hb

/-- **Runs of statements.**  Two readers of statements up to the same token go in lockstep, if both
their bounds are greater than the number of lexemes left. -/
theorem alike_statements (k : ℕ) {a b : ℕ} (closing : Token) (ha : k ≤ a) (hb : k ≤ b)
    (h : Abreast π total n w v) (hn : n < k) :
    Alike π (SameStmts π.move) total (n + 1) ((Parser.statements a closing : Parser σ _) w)
      ((Parser.statements b closing : Reader ε τ _) v) := by
  induction k generalizing a b closing w v n with
  | zero => exact absurd hn (Nat.not_lt_zero n)
  | succ k ih =>
    obtain ⟨a, rfl⟩ : ∃ a', a = a' + 1 := ⟨a - 1, by omega⟩
    obtain ⟨b, rfl⟩ : ∃ b', b = b' + 1 := ⟨b - 1, by omega⟩
    unfold Parser.statements
    refine alike_current_bind h fun t s s' _ _ => ?_
    dsimp only
    split
    · exact alike_pure h (Nat.lt_succ_self n) rfl
    split
    · exact alike_unexpected h _
    · -- The statements in a block have the bounds of the next round, so the induction covers them.
      have hblock : LockstepBlocks π total (k + 1)
          (Parser.block (Parser.statements a (.symbol .rightBrace)))
          (Parser.block (Parser.statements b (.symbol .rightBrace)) : Reader ε τ _) :=
        lockstep_block (fun w v m h hm => ih _ (by omega) (by omega) h hm)
          fun _ _ _ => statements_closing
      refine (Alike.progressing h (alike_statement
        ((lockstep_expression_operators (k + 1) ha hb).1 .lowest) hblock ha hb h hn)).bind
        fun c d w₁ v₁ n₁ _ hcd h₁ hn₁ => ?_
      exact (ih closing (by omega) (by omega) h₁ (by omega)).bind
        fun c' d' w₂ v₂ n₂ _ hcd' h₂ hn₂ =>
          alike_pure h₂ (by omega) (congrArg₂ List.cons hcd hcd')

/-- A single expression up to the end of the input. -/
theorem alike_soleExpression (k : ℕ) {a b : ℕ} (ha : k ≤ a) (hb : k ≤ b)
    (h : Abreast π total n w v) (hn : n < k) :
    Alike π (SameExpr π.move) total n ((Parser.soleExpression a : Parser σ _) w)
      ((Parser.soleExpression b : Reader ε τ _) v) := by
  unfold Parser.soleExpression
  refine ((lockstep_expression_operators k ha hb).1 .lowest w v n h hn).bind
    fun c d w₁ v₁ n₁ _ hcd h₁ hn₁ => alike_current_bind h₁ fun t s s' _ _ => ?_
  dsimp only
  split
  · exact alike_pure h₁ hn₁ hcd
  · exact alike_unexpected h₁ _

/-! ## Whole inputs -/

section
variable {R : α → α → Prop} {p : ℕ → Parser σ α} {q : ℕ → Reader ε τ α} {a b : ℕ}

/-- Both readers fill one place of their windows, with nothing to check. -/
theorem alike_fill {g : Unit → Parser σ α} {g' : Unit → Reader ε τ α} (h : w.Alike π v)
    (hdrawn : w.drawn < total)
    (hg : ∀ w' v', (Parser.shift : Parser σ Unit) w = .ok () w' → w'.Alike π v' →
      Alike π R total m (g () w') (g' () v')) :
    Alike π R total m ((Parser.shift >>= g) w) ((Parser.shift >>= g') v) := by
  rw [Parser.bind_apply, Parser.bind_apply]
  rcases h.shift ε with ⟨e, e', w', v', hw, hv, herror, h'⟩ | ⟨w', v', hw, hv, h'⟩ <;> rw [hw, hv]
  · have hdrawn' := Parser.drawn_of_shift_error hw
    exact .error herror h' (by omega)
  · exact hg w' v' hw h'

/-- **Runs.**  If two readers go in lockstep in front of `n` lexemes, then so do their runs, which
draw two lexemes to fill the windows. -/
theorem runOn_alike {feed : σ} {feed' : τ} (hfeeds : π.feeds feed feed')
    (hbefore : ∀ i < n, ((Feed.stream feed).get i).Proper)
    (hstops : ¬ ((Feed.stream feed).get n).Proper)
    (hpq : ∀ w v, Abreast π (n + 2) n w v → Alike π R (n + 2) m (p a w) (q b v)) :
    Alike π R (n + 2) m (Parser.runOn p feed a) (Parser.runOn q feed' b) := by
  have hstart : (Window.start feed).Alike π (Window.start feed') := ⟨hfeeds, rfl, rfl, rfl, rfl⟩
  have hzero : (Window.start feed).drawn = 0 := rfl
  refine alike_fill hstart (by omega) fun w₁ v₁ hw₁ h₁ => ?_
  obtain ⟨hahead₁, -, hnext₁, hdrawn₁⟩ := Parser.shift_ok hw₁
  refine alike_fill h₁ (by omega) fun w₂ v₂ hw₂ h₂ => ?_
  obtain ⟨hahead₂, hcurrent₂, hnext₂, hdrawn₂⟩ := Parser.shift_ok hw₂
  -- Both places of the window are filled now, and everything else is still ahead.
  have hfeed : w₂.ahead = Feed.stream feed :=
    funext fun i => (hahead₂ i).trans (hahead₁ (i + 1))
  exact hpq w₂ v₂ ⟨h₂, ⟨hcurrent₂ ▸ hnext₁, hnext₂⟩, hfeed ▸ hbefore, hfeed ▸ hstops, by omega⟩

end

/-- Outcomes that are alike. -/
inductive AlikeOutcomes (f : Position → Position) (R : α → α → Prop) :
    Except ParseError α → Except ParseError α → Prop where
  | ok {a b : α} (hvalue : R a b) : AlikeOutcomes f R (.ok a) (.ok b)
  | error {e e' : ParseError} (herror : e.relocate f = e'.relocate f) :
      AlikeOutcomes f R (.error e) (.error e')

/-- Results of parsers that are alike have such outcomes. -/
theorem Alike.outcomes {R : α → α → Prop} {r : EStateM.Result ParseError (Window σ) α}
    {r' : EStateM.Result ParseError (Window τ) α} (h : Alike π R total m r r') :
    AlikeOutcomes π.move R (Parser.outcome r) (Parser.outcome r') := by
  cases h with
  | ok hvalue => exact .ok hvalue
  | error herror => exact .error herror

/-! ## Sources -/

namespace Lexeme

/-- The lexemes of a text in front of the first character that begins no token, or all of them. -/
def readable (cursor : Cursor) : List Lexeme :=
  (all cursor).takeWhile fun l => l.error?.isNone

/-- The readable lexemes are the first ones. -/
theorem readable_isPrefix (cursor : Cursor) : readable cursor <+: all cursor :=
  List.takeWhile_prefix _

theorem error?_of_mem_readable {cursor : Cursor} {l : Lexeme} (h : l ∈ readable cursor) :
    l.error? = none :=
  Option.isNone_iff_eq_none.1 (List.mem_takeWhile_imp (p := fun l : Lexeme => l.error?.isNone) h)

/-- The lexeme behind the readable ones, if there is one, is refused. -/
theorem error?_behind_readable {cursor : Cursor} {l : Lexeme}
    (h : (all cursor)[(readable cursor).length]? = some l) : l.error? ≠ none := by
  have hsplit : readable cursor ++ (all cursor).dropWhile (fun l => l.error?.isNone) = all cursor :=
    List.takeWhile_append_dropWhile
  rw [← hsplit, List.getElem?_append_right (Nat.le_refl _), Nat.sub_self,
    ← List.head?_eq_getElem?] at h
  have hbad := List.head?_dropWhile_not (fun l : Lexeme => l.error?.isNone) (all cursor)
  rw [h] at hbad
  dsimp only at hbad
  intro hnone
  rw [hnone] at hbad
  cases hbad

/-- The readable lexemes are drawn first, and the next one drawn is not a token. -/
theorem stream_readable (cursor : Cursor) :
    (∀ i < (readable cursor).length, ((Feed.stream cursor).get i).Proper) ∧
      ¬ ((Feed.stream cursor).get (readable cursor).length).Proper := by
  obtain ⟨last, hlast, heq⟩ := allWithEnd_eq cursor
  rw [Feed.stream_all heq]
  constructor
  · intro i hi
    have hmem : (readable cursor)[i] ∈ readable cursor := List.getElem_mem hi
    rw [get_append_const, List.prefix_iff_getElem?.1 (readable_isPrefix cursor) i hi]
    exact ⟨token_ne_of_mem_all ((readable_isPrefix cursor).subset hmem),
      error?_of_mem_readable hmem⟩
  · rw [get_append_const]
    cases h : (all cursor)[(readable cursor).length]? with
    | none => exact fun hproper => hproper.not_end hlast
    | some l => exact fun hproper => error?_behind_readable h hproper.recognized

end Lexeme

/-- **Sources.**  If two readers go in lockstep below their bounds, then so do their runs on a
source and on a feed that goes with it. -/
theorem runOn_source_alike {π : Pairing Cursor τ} {R : α → α → Prop} {p : ℕ → Parser Cursor α}
    {q : ℕ → Reader ε τ α} {source : String} {feed : τ} {a b : ℕ}
    (hfeeds : π.feeds (Cursor.ofString source) feed)
    (ha : (Lexeme.all (.ofString source)).length < a)
    (hb : (Lexeme.all (.ofString source)).length < b)
    (hpq : ∀ (total n : ℕ) w v, n < a → n < b → Abreast π total n w v →
      Alike π R total (n + 1) (p a w) (q b v)) :
    Alike π R ((Lexeme.readable (.ofString source)).length + 2)
      ((Lexeme.readable (.ofString source)).length + 1)
      (Parser.runOn p (Cursor.ofString source) a) (Parser.runOn q feed b) := by
  obtain ⟨hbefore, hstops⟩ := Lexeme.stream_readable (.ofString source)
  have hlength := (Lexeme.readable_isPrefix (.ofString source)).length_le
  exact runOn_alike hfeeds hbefore hstops fun w v => hpq _ _ w v (by omega) (by omega)

section
variable {π : Pairing Cursor τ} {source : String} {feed : τ} {a b : ℕ}
  (hfeeds : π.feeds (Cursor.ofString source) feed)
  (ha : (Lexeme.all (.ofString source)).length < a)
  (hb : (Lexeme.all (.ofString source)).length < b)
include hfeeds ha hb

/-- A source is read as a program like every feed that goes with it. -/
theorem runOn_program_alike :
    Alike π (SameStmts π.move) ((Lexeme.readable (.ofString source)).length + 2)
      ((Lexeme.readable (.ofString source)).length + 1)
      (Parser.runOn Parser.program (Cursor.ofString source) a)
      (Parser.runOn Parser.program feed b : EStateM.Result ε _ _) :=
  runOn_source_alike hfeeds ha hb fun _ n _ _ ha hb h =>
    alike_statements (n + 1) .endOfInput ha hb h (Nat.lt_succ_self n)

/-- A source is read as a single expression like every feed that goes with it. -/
theorem runOn_soleExpression_alike :
    Alike π (SameExpr π.move) ((Lexeme.readable (.ofString source)).length + 2)
      ((Lexeme.readable (.ofString source)).length + 1)
      (Parser.runOn Parser.soleExpression (Cursor.ofString source) a)
      (Parser.runOn Parser.soleExpression feed b : EStateM.Result ε _ _) :=
  runOn_source_alike hfeeds ha hb fun _ n _ _ ha hb h =>
    (alike_soleExpression (n + 1) ha hb h (Nat.lt_succ_self n)).mono (Nat.le_succ n)

end

end FlatScript
