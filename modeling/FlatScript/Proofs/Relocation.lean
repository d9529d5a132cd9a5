/-
# Relocating lexemes and trees

Positions only say where something was read.  `relocate f` moves every position of a lexeme or a
tree by `f` and leaves all else as it is; `bare` moves them all to the origin.  So two trees are
equal up to their spans exactly if their bare forms are equal.
-/
import FlatScript.ParseError
import FlatScript.Tree

namespace FlatScript

/-! ## Spans, lexemes and errors -/

/-- Moves both ends of a span. -/
def Span.relocate (f : Position → Position) (span : Span) : Span :=
  ⟨f span.start, f span.stop⟩

/-- Moves the span of a lexeme. -/
def Lexeme.relocate (f : Position → Position) (lexeme : Lexeme) : Lexeme :=
  ⟨lexeme.token, lexeme.span.relocate f⟩

/-- Moves the place of an error of reading. -/
def ParseError.relocate (f : Position → Position) : ParseError → ParseError
  | .lexical e => .lexical ⟨e.character, f e.position⟩
  | .syntactic e => .syntactic ⟨e.expected, e.got, e.span.relocate f⟩

/-! ## Trees -/

/-- Moves the span of a name. -/
def Name.relocate (f : Position → Position) (name : Name) : Name :=
  ⟨name.text, name.span.relocate f⟩

/-- Moves all spans of an expression. -/
def Expr.relocate (f : Position → Position) : Expr → Expr
  | .literal value span => .literal value (span.relocate f)
  | .var name span => .var (name.relocate f) (span.relocate f)
  | .binary op left right span =>
    .binary op (left.relocate f) (right.relocate f) (span.relocate f)

mutual

/-- Moves all spans of a statement. -/
def Stmt.relocate (f : Position → Position) : Stmt → Stmt
  | .expr value span => .expr (value.relocate f) (span.relocate f)
  | .assign name value span =>
    .assign (name.relocate f) (value.relocate f) (span.relocate f)
  | .print items terminator span =>
    .print (items.map (Expr.relocate f)) (terminator.relocate f) (span.relocate f)
  | .branch condition body none span =>
    .branch (condition.relocate f) (relocateAll f body) none (span.relocate f)
  | .branch condition body (some alternative) span =>
    .branch (condition.relocate f) (relocateAll f body) (some (relocateAll f alternative))
      (span.relocate f)
  | .whileLoop condition body span =>
    .whileLoop (condition.relocate f) (relocateAll f body) (span.relocate f)
  | .forLoop start condition step body span =>
    .forLoop (start.relocate f) (condition.relocate f) (step.relocate f) (relocateAll f body)
      (span.relocate f)
  | .update op name span => .update op (name.relocate f) (span.relocate f)

/-- Moves all spans of some statements. -/
def Stmt.relocateAll (f : Position → Position) : List Stmt → List Stmt
  | [] => []
  | statement :: statements => statement.relocate f :: relocateAll f statements

end

/-- The statements of a block are moved one by one. -/
theorem Stmt.relocateAll_eq_map (f : Position → Position) (statements : List Stmt) :
    Stmt.relocateAll f statements = statements.map (Stmt.relocate f) := by
  induction statements with
  | nil => rfl
  | cons statement statements ih => rw [Stmt.relocateAll, ih, List.map_cons]

/-- A branch is moved in the same way whether there is an `else` or not. -/
theorem Stmt.relocate_branch (f : Position → Position) (condition : Expr) (body : List Stmt)
    (alternative : Option (List Stmt)) (span : Span) :
    (Stmt.branch condition body alternative span).relocate f =
      .branch (condition.relocate f) (body.map (Stmt.relocate f))
        (alternative.map (List.map (Stmt.relocate f))) (span.relocate f) := by
  cases alternative <;> simp [Stmt.relocate, Stmt.relocateAll_eq_map]

/-! ## Positions that stay -/

/-- Moving nothing leaves an error as it is. -/
theorem ParseError.relocate_id (e : ParseError) : e.relocate id = e := by
  cases e <;> rfl

/-- Moving nothing leaves an expression as it is. -/
theorem Expr.relocate_id (e : Expr) : e.relocate id = e := by
  induction e with
  | literal value span => rfl
  | var name span => rfl
  | binary op l r span ihl ihr =>
    rw [Expr.relocate, ihl, ihr]
    rfl

theorem Expr.map_relocate_id (es : List Expr) : es.map (Expr.relocate id) = es := by
  rw [show Expr.relocate id = id from funext Expr.relocate_id, List.map_id]

mutual

/-- Moving nothing leaves a statement as it is, with all blocks in it. -/
theorem Stmt.relocate_id : ∀ s : Stmt, s.relocate id = s
  | .expr value span => by
    rw [Stmt.relocate, Expr.relocate_id]
    rfl
  | .assign name value span => by
    rw [Stmt.relocate, Expr.relocate_id]
    rfl
  | .print items terminator span => by
    rw [Stmt.relocate, Expr.map_relocate_id, Expr.relocate_id]
    rfl
  | .branch condition body none span => by
    rw [Stmt.relocate, Expr.relocate_id, relocateAll_id body]
    rfl
  | .branch condition body (some alternative) span => by
    rw [Stmt.relocate, Expr.relocate_id, relocateAll_id body, relocateAll_id alternative]
    rfl
  | .whileLoop condition body span => by
    rw [Stmt.relocate, Expr.relocate_id, relocateAll_id body]
    rfl
  | .forLoop start condition step body span => by
    rw [Stmt.relocate, Expr.relocate_id, start.relocate_id, step.relocate_id, relocateAll_id body]
    rfl
  | .update op name span => rfl

theorem Stmt.relocateAll_id : ∀ statements : List Stmt,
    Stmt.relocateAll id statements = statements
  | [] => rfl
  | statement :: statements => by
    rw [Stmt.relocateAll, statement.relocate_id, relocateAll_id statements]

end

/-- Moving nothing leaves a run of statements as it is. -/
theorem Stmt.map_relocate_id (statements : List Stmt) :
    statements.map (Stmt.relocate id) = statements := by
  rw [← Stmt.relocateAll_eq_map, Stmt.relocateAll_id]

/-! ## Bare trees -/

/-- An expression without its spans. -/
def Expr.bare (e : Expr) : Expr :=
  e.relocate fun _ => .origin

/-- A statement without its spans. -/
def Stmt.bare (s : Stmt) : Stmt :=
  s.relocate fun _ => .origin

/-- A program without its spans. -/
def Program.bare (program : Program) : Program :=
  program.map Stmt.bare

section
variable (name : Name) (op : BinaryOp) (e l r : Expr) (span : Span) (s : Stmt) (b : List Stmt)

@[simp] theorem Expr.bare_literal (value : Literal) :
    (Expr.literal value span).bare = .literal value {} := rfl

@[simp] theorem Expr.bare_var : (Expr.var name span).bare = .var ⟨name.text, {}⟩ {} := rfl

@[simp] theorem Expr.bare_binary :
    (Expr.binary op l r span).bare = .binary op l.bare r.bare {} := rfl

@[simp] theorem Stmt.bare_expr : (Stmt.expr e span).bare = .expr e.bare {} := rfl

@[simp] theorem Stmt.bare_assign :
    (Stmt.assign name e span).bare = .assign ⟨name.text, {}⟩ e.bare {} := rfl

@[simp] theorem Stmt.bare_print (items : List Expr) :
    (Stmt.print items e span).bare = .print (items.map Expr.bare) e.bare {} := rfl

/-- The blocks of a branch are bare if it is, and no `else` stays none. -/
@[simp] theorem Stmt.bare_branch (alternative : Option (List Stmt)) :
    (Stmt.branch e b alternative span).bare =
      .branch e.bare (b.map Stmt.bare) (alternative.map (List.map Stmt.bare)) {} :=
  Stmt.relocate_branch _ e b alternative span

/-- The condition and the body of a bare loop are bare. -/
@[simp] theorem Stmt.bare_whileLoop :
    (Stmt.whileLoop e b span).bare = .whileLoop e.bare (b.map Stmt.bare) {} := by
  simp only [Stmt.bare, Stmt.relocate, Stmt.relocateAll_eq_map]
  rfl

/-- All clauses of a bare `for` are bare, those that are statements as well. -/
@[simp] theorem Stmt.bare_forLoop (step : Stmt) :
    (Stmt.forLoop s e step b span).bare =
      .forLoop s.bare e.bare step.bare (b.map Stmt.bare) {} := by
  simp only [Stmt.bare, Stmt.relocate, Stmt.relocateAll_eq_map]
  rfl

@[simp] theorem Stmt.bare_update (change : UpdateOp) :
    (Stmt.update change name span).bare = .update change ⟨name.text, {}⟩ {} := rfl

end

/-! ## Bare trees stay as they are -/

/-- A bare expression has nothing more to lose. -/
theorem Expr.bare_bare (e : Expr) : e.bare.bare = e.bare := by
  induction e with
  | literal value span => rfl
  | var name span => rfl
  | binary op l r span ihl ihr => simp only [Expr.bare_binary, ihl, ihr]

theorem Expr.map_bare_bare (es : List Expr) :
    (es.map Expr.bare).map Expr.bare = es.map Expr.bare := by
  rw [List.map_map]
  exact List.map_congr_left fun e _ => e.bare_bare

mutual

/-- A bare statement has nothing more to lose, at any depth. -/
theorem Stmt.bare_bare : ∀ s : Stmt, s.bare.bare = s.bare
  | .expr value _ => by simp only [Stmt.bare_expr, value.bare_bare]
  | .assign name value _ => by simp only [Stmt.bare_assign, value.bare_bare]
  | .print items terminator _ => by
    simp only [Stmt.bare_print, Expr.map_bare_bare, terminator.bare_bare]
  | .branch condition body none _ => by
    simp only [Stmt.bare_branch, condition.bare_bare, map_bare_bare body, Option.map_none]
  | .branch condition body (some alternative) _ => by
    simp only [Stmt.bare_branch, condition.bare_bare, map_bare_bare body, Option.map_some,
      map_bare_bare alternative]
  | .whileLoop condition body _ => by
    simp only [Stmt.bare_whileLoop, condition.bare_bare, map_bare_bare body]
  | .forLoop start condition step body _ => by
    simp only [Stmt.bare_forLoop, start.bare_bare, condition.bare_bare, step.bare_bare,
      map_bare_bare body]
  | .update op name _ => rfl

/-- Bare statements of a block have nothing more to lose. -/
theorem Stmt.map_bare_bare : ∀ statements : List Stmt,
    (statements.map Stmt.bare).map Stmt.bare = statements.map Stmt.bare
  | [] => rfl
  | statement :: statements => by
    simp only [List.map_cons, statement.bare_bare, map_bare_bare statements]

end

/-- Nothing is left to be forgotten about a bare program. -/
theorem Program.bare_bare (p : Program) : p.bare.bare = p.bare :=
  Stmt.map_bare_bare p

end FlatScript
