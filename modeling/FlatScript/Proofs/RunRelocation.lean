/-
# Running does not look at positions

A tree is run, and shown as an S-expression, without a look at its spans.  So relocating a machine
and running it can be done in either order.

* `Expr.eval_relocate`, `Stmt.sexpr_relocate` : neither values nor S-expressions depend on spans;
* `Machine.run_relocate` : a run of the relocated machine is the relocated run, and
  `Machine.trace_relocate` : so is its trace;
* `Machine.run_of_bare_eq` : so statements that are the same up to their spans have the same runs.
-/
import FlatScript.Machine
import FlatScript.SExpression
import FlatScript.Proofs.Relocation

namespace FlatScript

variable (f : Position → Position)

/-! ## Values -/

/-- The value of an expression does not depend on where it stands, whatever operations are
pending. -/
theorem Expr.evalOnto_relocate (store : Store) (e : Expr) (pending : List Pending) :
    (e.relocate f).evalOnto store pending = e.evalOnto store pending := by
  -- The right operands that wait are relocated as well, so the induction is over all that waits.
  induction e generalizing pending with
  | literal value span => rfl
  | var name span => rfl
  | binary op l r span ihl ihr =>
    show (l.relocate f).evalOnto store
      (⟨op, fun _ => (r.relocate f).evalOnto store []⟩ :: pending) = _
    rw [ihl, ihr]
    rfl

/-- Nothing that is computed from a tree depends on its spans. -/
theorem Expr.eval_relocate (store : Store) (e : Expr) :
    (e.relocate f).eval store = e.eval store :=
  e.evalOnto_relocate f store []

theorem Expr.evalLine_relocate (store : Store) (es : List Expr) :
    evalLine store (es.map (Expr.relocate f)) = evalLine store es := by
  induction es with
  | nil => rfl
  | cons e es ih => rw [List.map_cons, evalLine, evalLine, e.eval_relocate f store, ih]

/-! ## S-expressions -/

/-- What an expression is printed as in a log does not tell where it stands. -/
theorem Expr.sexpr_relocate (e : Expr) : (e.relocate f).sexpr = e.sexpr := by
  induction e with
  | literal value span => rfl
  | var name span => rfl
  | binary op l r span ihl ihr => rw [Expr.relocate, Expr.sexpr, Expr.sexpr, ihl, ihr]

theorem Expr.map_sexpr_relocate (es : List Expr) :
    (es.map (Expr.relocate f)).map Expr.sexpr = es.map Expr.sexpr := by
  rw [List.map_map, show Expr.sexpr ∘ Expr.relocate f = Expr.sexpr from
    funext (Expr.sexpr_relocate f)]

mutual

/-- A statement is logged with the same text wherever it stands. -/
theorem Stmt.sexpr_relocate : ∀ s : Stmt, (s.relocate f).sexpr = s.sexpr
  | .expr value span => by rw [Stmt.relocate, Stmt.sexpr, Stmt.sexpr, value.sexpr_relocate f]
  | .assign name value span => by
    rw [Stmt.relocate, Stmt.sexpr, Stmt.sexpr, value.sexpr_relocate f]
    rfl
  | .print items terminator span => by
    rw [Stmt.relocate, Stmt.sexpr, Stmt.sexpr, Expr.map_sexpr_relocate, terminator.sexpr_relocate f]
  | .branch condition body none span => by
    rw [Stmt.relocate, Stmt.sexpr, Stmt.sexpr, condition.sexpr_relocate f, sexprs_relocate body]
  | .branch condition body (some alternative) span => by
    rw [Stmt.relocate, Stmt.sexpr, Stmt.sexpr, condition.sexpr_relocate f, sexprs_relocate body,
      sexprs_relocate alternative]
  | .whileLoop condition body span => by
    rw [Stmt.relocate, Stmt.sexpr, Stmt.sexpr, condition.sexpr_relocate f, sexprs_relocate body]
  | .forLoop start condition step body span => by
    rw [Stmt.relocate, Stmt.sexpr, Stmt.sexpr, start.sexpr_relocate, condition.sexpr_relocate f,
      step.sexpr_relocate, sexprs_relocate body]
  | .update op name span => rfl

theorem sexprs_relocate : ∀ statements : List Stmt,
    sexprs (Stmt.relocateAll f statements) = sexprs statements
  | [] => rfl
  | statement :: statements => by
    rw [Stmt.relocateAll, sexprs, sexprs, statement.sexpr_relocate, sexprs_relocate statements]

end

/-- An S-expression says nothing about spans. -/
theorem Program.sexpr_bare (p : Program) : p.bare.sexpr = p.sexpr := by
  have hbare : p.bare = Stmt.relocateAll (fun _ => .origin) p := (Stmt.relocateAll_eq_map ..).symm
  rw [Program.sexpr, Program.sexpr, hbare, sexprs_relocate]

/-! ## Tasks -/

/-- Moves all spans of a task. -/
def Task.relocate : Task → Task
  | .run statement => .run (statement.relocate f)
  | .whileRound condition body =>
    .whileRound (condition.relocate f) (body.map (Stmt.relocate f))
  | .forRound condition step body =>
    .forRound (condition.relocate f) (step.relocate f) (body.map (Stmt.relocate f))

/-- The tasks of a block that is moved are its tasks, moved. -/
theorem Task.ofBlock_relocate (block : List Stmt) :
    ofBlock (block.map (Stmt.relocate f)) = (ofBlock block).map (Task.relocate f) := by
  rw [ofBlock, ofBlock, List.map_map, List.map_map]
  rfl

theorem Effect.evaluate_relocate (e : Expr) : evaluate (e.relocate f) = evaluate e := by
  unfold evaluate
  simp only [Expr.eval_relocate]

/-- A decision that leads to relocated tasks. -/
theorem Effect.decide_relocate (condition : Expr) (yes no : List Task) :
    (do if (← evaluate (condition.relocate f)).isTrue then return yes.map (Task.relocate f)
        else return no.map (Task.relocate f) : Effect (List Task)) =
      List.map (Task.relocate f) <$>
        (do if (← evaluate condition).isTrue then return yes else return no) := by
  rw [evaluate_relocate, map_bind]
  congr 1
  funext value
  cases value.isTrue <;> rfl

/-- A relocated statement does the same, and leaves the relocated rest to be done. -/
theorem Stmt.perform_relocate (s : Stmt) :
    (s.relocate f).perform = List.map (Task.relocate f) <$> s.perform := by
  cases s with
  | branch condition body alternative span =>
    rw [Stmt.relocate_branch, Stmt.perform, Stmt.perform, ← Effect.decide_relocate,
      ← Task.ofBlock_relocate, ← Task.ofBlock_relocate]
    cases alternative <;> rfl
  | whileLoop condition body span =>
    rw [Stmt.relocate, Stmt.relocateAll_eq_map]
    rfl
  | forLoop start condition step body span =>
    rw [Stmt.relocate, Stmt.relocateAll_eq_map]
    rfl
  | expr value span =>
    rw [Stmt.relocate, Stmt.perform, Stmt.perform, Effect.evaluate_relocate, map_bind]
    rfl
  | assign name value span =>
    rw [Stmt.relocate, Stmt.perform, Stmt.perform, Effect.evaluate_relocate, map_bind]
    rfl
  | print items terminator span =>
    have hline : items.map (Expr.relocate f) ++ [terminator.relocate f] =
        (items ++ [terminator]).map (Expr.relocate f) := by
      rw [List.map_append, List.map_singleton]
    rw [Stmt.relocate, Stmt.perform, Stmt.perform, hline, map_bind]
    simp only [Expr.evalLine_relocate]
    rfl
  | update op name span =>
    rw [Stmt.relocate, Stmt.perform, Stmt.perform, map_bind]
    rfl

/-- Performing a task that is moved does the same to the state, and leaves the same tasks, moved. -/
theorem Task.perform_relocate (task : Task) :
    (task.relocate f).perform = List.map (Task.relocate f) <$> task.perform := by
  cases task with
  | run statement => exact statement.perform_relocate f
  | whileRound condition body =>
    rw [Task.relocate, Task.perform, Task.perform]
    have h := Effect.decide_relocate f condition (ofBlock body ++ [.whileRound condition body]) []
    rw [List.map_append, ← Task.ofBlock_relocate] at h
    exact h
  | forRound condition step body =>
    rw [Task.relocate, Task.perform, Task.perform]
    have h := Effect.decide_relocate f condition
      (ofBlock body ++ [.run step, .forRound condition step body]) []
    rw [List.map_append, ← Task.ofBlock_relocate] at h
    exact h

namespace Machine

/-! ## Machines -/

/-- Moves all spans of a machine. -/
def relocate (machine : Machine) : Machine :=
  ⟨machine.agenda.map (Task.relocate f), machine.state⟩

/-- Moves all spans of a step. -/
def Step.relocate : Step → Step
  | .done state => .done state
  | .failed e state => .failed e state
  | .next machine => .next (machine.relocate f)

/-- Moves all spans of an outcome. -/
def Outcome.relocate : Outcome → Outcome
  | .finished state => .finished state
  | .failed e state => .failed e state
  | .unfinished machine => .unfinished (machine.relocate f)

/-- A machine begins with the tasks of its statements, moved as they are. -/
theorem start_relocate (statements : List Stmt) (state : State) :
    start (statements.map (Stmt.relocate f)) state = (start statements state).relocate f := by
  rw [start, start, Task.ofBlock_relocate]
  rfl

/-- Relocating and taking a step can be done in either order. -/
theorem step_relocate (machine : Machine) :
    (machine.relocate f).step = machine.step.relocate f := by
  obtain ⟨agenda, state⟩ := machine
  cases agenda with
  | nil => rfl
  | cons task agenda =>
    have hperform : (task.relocate f).perform state =
        EStateM.map (List.map (Task.relocate f)) task.perform state :=
      congrFun (task.perform_relocate f) state
    show step ⟨task.relocate f :: agenda.map (Task.relocate f), state⟩ = _
    rw [step, step, hperform]
    unfold EStateM.map
    cases task.perform state with
    | error e state => rfl
    | ok tasks state =>
      show Step.next ⟨tasks.map (Task.relocate f) ++ agenda.map (Task.relocate f), state⟩ = _
      rw [← List.map_append]
      rfl

/-- **Runs.**  Relocating a machine and running it can be done in either order. -/
theorem run_relocate (n : Nat) (machine : Machine) :
    (machine.relocate f).run n = (machine.run n).relocate f := by
  induction n generalizing machine with
  | zero => rfl
  | succ n ih =>
    rw [run, run, step_relocate]
    cases machine.step with
    | done state => rfl
    | failed e state => rfl
    | next machine => exact ih machine

/-- What a machine announces is moved with it. -/
theorem announced_relocate (machine : Machine) :
    (machine.relocate f).announced = machine.announced.map (Stmt.relocate f) := by
  obtain ⟨agenda, state⟩ := machine
  match agenda with
  | [] => rfl
  | .run _ :: _ => rfl
  | .whileRound .. :: _ => rfl
  | .forRound .. :: _ => rfl

/-- **Traces.**  The trace of a relocated machine is the relocated trace. -/
theorem trace_relocate (n : Nat) (machine : Machine) :
    (machine.relocate f).trace n = (machine.trace n).map (Stmt.relocate f) := by
  induction n generalizing machine with
  | zero => rfl
  | succ n ih =>
    rw [trace, trace, step_relocate, announced_relocate]
    cases machine.step with
    | done state => rfl
    | failed e state => rfl
    | next machine =>
      show _ ++ trace n (machine.relocate f) = _
      rw [ih, List.map_append]

/-! ## The same statements at different places -/

section
variable {f} {o o' : Outcome}

/-- Outcomes that differ in positions only are finished in the same state. -/
theorem Outcome.finished_iff_of_relocate (h : o.relocate f = o'.relocate f) (state : State) :
    o = .finished state ↔ o' = .finished state := by
  cases o <;> cases o' <;> simp_all [Outcome.relocate]

theorem Outcome.failed_iff_of_relocate (h : o.relocate f = o'.relocate f) (e : RuntimeError)
    (state : State) : o = .failed e state ↔ o' = .failed e state := by
  cases o <;> cases o' <;> simp_all [Outcome.relocate]

end

section
variable {b b' : List Stmt} (h : b.map Stmt.bare = b'.map Stmt.bare) (n : Nat) (state : State)
include h

/-- Statements that are the same up to spans start machines that are so. -/
theorem start_of_bare_eq : (start b state).relocate (fun _ => .origin) =
    (start b' state).relocate fun _ => .origin := by
  rw [← start_relocate, ← start_relocate]
  exact congrArg (start · state) h

/-- Runs of statements that are the same up to their spans are the same up to their spans. -/
theorem run_of_bare_eq : ((start b state).run n).relocate (fun _ => .origin) =
    ((start b' state).run n).relocate fun _ => .origin := by
  rw [← run_relocate, ← run_relocate, start_of_bare_eq h state]

/-- And so are their traces. -/
theorem trace_of_bare_eq :
    ((start b state).trace n).map Stmt.bare = ((start b' state).trace n).map Stmt.bare := by
  have htrace := congrArg (trace n) (start_of_bare_eq h state)
  rwa [trace_relocate, trace_relocate] at htrace

end

end Machine

end FlatScript
