/-
# Running statements

A machine holds an agenda of what is still to be done, and the state that statements change: the
store of variables and the output so far.  One step takes the first task of the agenda, performs
it, and puts what it gives rise to in front of the rest: the statements of a block, or the next
round of a loop.  A loop is never unrolled further than the round it is in, so a machine that
never ends still has well-defined steps, and a run is given the number of steps it may take.

A task that fails stops the machine.  A line is printed in one piece once all of its items have
values.
-/
import FlatScript.Evaluation

namespace FlatScript

/-! ## Tasks -/

/-- What statements change. -/
structure State where
  store : Store := Store.empty
  output : String := ""
deriving DecidableEq

/-- A unit of work. -/
inductive Task where
  /-- Runs a statement. -/
  | run (statement : Stmt)
  /-- Runs the body and another round, if the condition holds. -/
  | whileRound (condition : Expr) (body : List Stmt)
  /-- Runs the body, the step and another round, if the condition holds. -/
  | forRound (condition : Expr) (step : Stmt) (body : List Stmt)

/-- A change of the state that may fail. -/
abbrev Effect := EStateM RuntimeError State

namespace Effect

/-- Computes something from the store. -/
def ofStore {α : Type} (compute : Store → Except RuntimeError α) : Effect α := fun state =>
  match compute state.store with
  | .ok result => .ok result state
  | .error e => .error e state

/-- Evaluates an expression. -/
def evaluate (e : Expr) : Effect Value :=
  ofStore fun store => e.eval store

/-- Gives a variable a value. -/
def setVariable (name : String) (value : Value) : Effect Unit :=
  modify fun state => { state with store := state.store.set name value }

/-- Prints a line in one piece. -/
def emit (line : String) : Effect Unit :=
  modify fun state => { state with output := state.output ++ line }

end Effect

open Effect

/-- The statements of a block as tasks. -/
def Task.ofBlock (block : List Stmt) : List Task :=
  block.map Task.run

/-- Performs a statement; the result is what it leaves to be done. -/
def Stmt.perform : Stmt → Effect (List Task)
  | .expr value _ => do
    let _ ← evaluate value
    return []
  | .assign name value _ => do
    setVariable name.text (← evaluate value)
    return []
  | .print items terminator _ => do
    emit (← ofStore fun store => Expr.evalLine store (items ++ [terminator]))
    return []
  | .branch condition body alternative _ => do
    if (← evaluate condition).isTrue then return Task.ofBlock body
    else return Task.ofBlock (alternative.getD [])
  | .whileLoop condition body _ => return [.whileRound condition body]
  | .forLoop start condition step body _ =>
    return [.run start, .forRound condition step body]
  | .update op name _ => do
    let x ← ofStore fun store => store.readNumber op name.text
    setVariable name.text (.number (x + op.delta))
    return []

/-- Performs a task; the result is what it leaves to be done. -/
def Task.perform : Task → Effect (List Task)
  | .run statement => statement.perform
  | .whileRound condition body => do
    if (← evaluate condition).isTrue then
      return Task.ofBlock body ++ [.whileRound condition body]
    else return []
  | .forRound condition step body => do
    if (← evaluate condition).isTrue then
      return Task.ofBlock body ++ [.run step, .forRound condition step body]
    else return []

/-! ## Machines -/

/-- The tasks that are left, and the state they change. -/
structure Machine where
  agenda : List Task
  state : State

/-- What becomes of a machine in one step. -/
inductive Machine.Step where
  | done (state : State)
  | failed (error : RuntimeError) (state : State)
  | next (machine : Machine)

/-- What becomes of a machine in a limited number of steps. -/
inductive Machine.Outcome where
  | finished (state : State)
  | failed (error : RuntimeError) (state : State)
  | unfinished (machine : Machine)

namespace Machine

/-- The machine that is about to run some statements in a state. -/
def start (statements : List Stmt) (state : State) : Machine :=
  ⟨Task.ofBlock statements, state⟩

/-- Performs the first task of the agenda. -/
def step (machine : Machine) : Step :=
  match machine with
  | ⟨[], state⟩ => .done state
  | ⟨task :: agenda, state⟩ =>
    match task.perform state with
    | .ok tasks state => .next ⟨tasks ++ agenda, state⟩
    | .error e state => .failed e state

/-- Takes at most `n` steps. -/
def run : Nat → Machine → Outcome
  | 0, machine => .unfinished machine
  | n + 1, machine =>
    match machine.step with
    | .done state => .finished state
    | .failed e state => .failed e state
    | .next machine => run n machine

/-- The statement that the next step runs, if it runs one. -/
def announced (machine : Machine) : List Stmt :=
  match machine.agenda with
  | .run statement :: _ => [statement]
  | _ => []

/-- The statements that are run in at most `n` steps, in order, up to the one that fails. -/
def trace : Nat → Machine → List Stmt
  | 0, _ => []
  | n + 1, machine =>
    match machine.step with
    | .next next => machine.announced ++ trace n next
    | _ => machine.announced

end Machine

end FlatScript
