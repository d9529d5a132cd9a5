/-
# What a trace accounts for

The trace of a run lists the statements that it runs, in order.  Some of them only lead to others;
the simple ones change the state, or fail and leave it as it is.  So the simple statements of a
trace, run one behind the other, do all that the run does, and nothing that it does is missing
from them.

* `Stepped` : all that a step can be;
* `Explained` : how the traced statements account for the outcome of a run;
* `run_explained` : that they do, however long the run is and however it ends.
-/
import FlatScript.Machine

namespace FlatScript

/-! ## Simple statements and conditions -/

/-- A statement is simple if it does all that it does at once, and leaves nothing to be done. -/
def Stmt.isSimple : Stmt → Bool
  | .expr .. | .assign .. | .print .. | .update .. => true
  | .branch .. | .whileLoop .. | .forLoop .. => false

/-- The condition of a statement that has one. -/
def Stmt.condition? : Stmt → Option Expr
  | .branch condition .. | .whileLoop condition .. | .forLoop _ condition .. => some condition
  | _ => none

/-- The condition that another round of a loop waits for. -/
def Task.round? : Task → Option Expr
  | .run _ => none
  | .whileRound condition _ | .forRound condition _ _ => some condition

/-- The condition that a task depends on, if it does. -/
def Task.condition? : Task → Option Expr
  | .run statement => statement.condition?
  | task => task.round?

/-- The tasks of a block are statements, none of which is a round of a loop that has begun. -/
theorem Task.round?_of_mem_ofBlock {block : List Stmt} {task : Task}
    (h : task ∈ Task.ofBlock block) : task.round? = none := by
  obtain ⟨statement, -, rfl⟩ := List.mem_map.1 h
  rfl

/-! ## Effects -/

namespace Effect

/-- What depends on the store fails without a change of the state, or goes on in the same state. -/
theorem ofStore_bind_apply {α β : Type} (compute : Store → Except RuntimeError α)
    (g : α → Effect β) (state : State) :
    (ofStore compute >>= g) state = match compute state.store with
      | .ok result => g result state
      | .error e => .error e state := by
  show EStateM.bind (ofStore compute) g state = _
  unfold EStateM.bind ofStore
  cases compute state.store <;> rfl

/-- A decision between two lists of tasks. -/
theorem decide_cases (condition : Expr) (yes no : List Task) (state : State) :
    let decision : Effect (List Task) := do
      if (← evaluate condition).isTrue then return yes else return no
    decision state = .ok yes state ∨ decision state = .ok no state ∨
      ∃ e, condition.eval state.store = .error e ∧ decision state = .error e state := by
  intro decision
  have hdecision : decision state = _ :=
    ofStore_bind_apply (fun store => condition.eval store)
      (fun value => if value.isTrue then pure yes else pure no) state
  rw [hdecision]
  cases condition.eval state.store with
  | error e => exact .inr (.inr ⟨e, rfl, rfl⟩)
  | ok value =>
    dsimp only
    split
    · exact .inl rfl
    · exact .inr (.inl rfl)

/-- A computation from the store whose result is put into the state. -/
theorem ofStore_modify_apply {α : Type} (compute : Store → Except RuntimeError α)
    (change : α → State → State) (state : State) :
    (do modify (change (← ofStore compute)); return [] : Effect (List Task)) state =
      match compute state.store with
      | .ok result => .ok [] (change result state)
      | .error e => .error e state :=
  ofStore_bind_apply compute (fun result => modify (change result) >>= fun _ => pure []) state

/-- It leaves nothing to be done, or fails and changes nothing. -/
theorem ofStore_modify_cases {α : Type} (compute : Store → Except RuntimeError α)
    (change : α → State → State) (state : State) :
    let effect : Effect (List Task) := do
      modify (change (← ofStore compute))
      return []
    (∃ state', effect state = .ok [] state') ∨ ∃ e, effect state = .error e state := by
  intro effect
  have heffect : effect state = _ := ofStore_modify_apply compute change state
  rw [heffect]
  cases compute state.store with
  | ok result => exact .inl ⟨_, rfl⟩
  | error e => exact .inr ⟨e, rfl⟩

end Effect

open Effect

/-- **Simple statements.**  A simple statement leaves nothing to be done, or fails and changes
nothing. -/
theorem Stmt.perform_simple {statement : Stmt} (h : statement.isSimple) (state : State) :
    (∃ state', statement.perform state = .ok [] state') ∨
      ∃ e, statement.perform state = .error e state := by
  cases statement with
  | expr value span =>
    exact ofStore_modify_cases (fun store => value.eval store) (fun _ state => state) state
  | assign name value span =>
    exact ofStore_modify_cases (fun store => value.eval store)
      (fun v state => { state with store := state.store.set name.text v }) state
  | print items terminator span =>
    exact ofStore_modify_cases (fun store => Expr.evalLine store (items ++ [terminator]))
      (fun line state => { state with output := state.output ++ line }) state
  | update op name span =>
    exact ofStore_modify_cases (fun store => store.readNumber op name.text)
      (fun x state =>
        { state with store := state.store.set name.text (.number (x + op.delta)) }) state
  | branch => cases h
  | whileLoop => cases h
  | forLoop => cases h

/-- **Other tasks.**  A task that runs no simple statement changes nothing.  The loops that it
begins or goes on with wait for its own condition, and it fails only if this has no value. -/
theorem Task.perform_compound {task : Task} (h : ∀ statement, task = .run statement →
    ¬ statement.isSimple) (state : State) :
    (∃ tasks, task.perform state = .ok tasks state ∧
      ∀ later ∈ tasks, ∀ c, later.round? = some c → task.condition? = some c) ∨
    ∃ e c, task.condition? = some c ∧ c.eval state.store = .error e ∧
      task.perform state = .error e state := by
  have hblock : ∀ {block : List Stmt} {later : Task} {c : Expr}, later ∈ Task.ofBlock block →
      later.round? ≠ some c := fun hmem hc => by
    rw [round?_of_mem_ofBlock hmem] at hc
    cases hc
  -- A statement with blocks, or the round of a loop, of which only the condition is evaluated.
  cases task with
  | run statement =>
    cases statement with
    | branch condition body alternative span =>
      rcases decide_cases condition (Task.ofBlock body) (Task.ofBlock (alternative.getD [])) state
        with hyes | hno | ⟨e, heval, herror⟩
      · exact .inl ⟨_, hyes, fun later hmem c hc => absurd hc (hblock hmem)⟩
      · exact .inl ⟨_, hno, fun later hmem c hc => absurd hc (hblock hmem)⟩
      · exact .inr ⟨e, condition, rfl, heval, herror⟩
    | whileLoop condition body span =>
      refine .inl ⟨_, rfl, fun later hmem c hc => ?_⟩
      obtain rfl := List.mem_singleton.1 hmem
      exact hc
    | forLoop start condition step body span =>
      refine .inl ⟨_, rfl, fun later hmem c hc => ?_⟩
      rcases List.mem_cons.1 hmem with rfl | hmem
      · cases hc
      · obtain rfl := List.mem_singleton.1 hmem
        exact hc
    | expr => exact absurd rfl (h _ rfl)
    | assign => exact absurd rfl (h _ rfl)
    | print => exact absurd rfl (h _ rfl)
    | update => exact absurd rfl (h _ rfl)
  | whileRound condition body =>
    rcases decide_cases condition (Task.ofBlock body ++ [.whileRound condition body]) [] state
      with hyes | hno | ⟨e, heval, herror⟩
    · refine .inl ⟨_, hyes, fun later hmem c hc => ?_⟩
      rcases List.mem_append.1 hmem with hmem | hmem
      · exact absurd hc (hblock hmem)
      · obtain rfl := List.mem_singleton.1 hmem
        exact hc
    · exact .inl ⟨_, hno, fun later hmem => nomatch hmem⟩
    · exact .inr ⟨e, condition, rfl, heval, herror⟩
  | forRound condition step body =>
    rcases decide_cases condition (Task.ofBlock body ++ [.run step, .forRound condition step body])
      [] state with hyes | hno | ⟨e, heval, herror⟩
    · refine .inl ⟨_, hyes, fun later hmem c hc => ?_⟩
      rcases List.mem_append.1 hmem with hmem | hmem
      · exact absurd hc (hblock hmem)
      · rcases List.mem_cons.1 hmem with rfl | hmem
        · cases hc
        · obtain rfl := List.mem_singleton.1 hmem
          exact hc
    · exact .inl ⟨_, hno, fun later hmem => nomatch hmem⟩
    · exact .inr ⟨e, condition, rfl, heval, herror⟩

namespace Machine

/-! ## Steps -/

section
variable {task : Task} {rest tasks : List Task} {state state' : State} {e : RuntimeError}

/-- What a task leaves to be done is done before the rest. -/
theorem step_of_ok (h : task.perform state = .ok tasks state') :
    step ⟨task :: rest, state⟩ = .next ⟨tasks ++ rest, state'⟩ := by
  simp only [step, h]

/-- A task that fails stops the machine. -/
theorem step_of_error (h : task.perform state = .error e state') :
    step ⟨task :: rest, state⟩ = .failed e state' := by
  simp only [step, h]

end

/-- A loop of the agenda waits for a condition. -/
def Awaits (machine : Machine) (c : Expr) : Prop :=
  ∃ task ∈ machine.agenda, task.round? = some c

/-- A step may depend on a condition: of the statement that it runs, or of a loop that waits. -/
def MayTest (machine : Machine) (c : Expr) : Prop :=
  machine.Awaits c ∨ ∃ statement ∈ machine.announced, statement.condition? = some c

/-- What a step can be: the end; a simple statement that changes the state or fails; something that
only changes the agenda, or the failure of a condition. -/
inductive Stepped (machine : Machine) : Step → Prop where
  | done (hagenda : machine.agenda = []) : Stepped machine (.done machine.state)
  | change {statement : Stmt} {rest : List Task} {state : State}
      (hagenda : machine.agenda = .run statement :: rest) (hsimple : statement.isSimple)
      (hperform : statement.perform machine.state = .ok [] state) :
      Stepped machine (.next ⟨rest, state⟩)
  | refuse {statement : Stmt} {rest : List Task} {e : RuntimeError}
      (hagenda : machine.agenda = .run statement :: rest) (hsimple : statement.isSimple)
      (hperform : statement.perform machine.state = .error e machine.state) :
      Stepped machine (.failed e machine.state)
  | turn {next : Machine} (hstate : next.state = machine.state)
      (hannounced : ∀ statement ∈ machine.announced, ¬ statement.isSimple)
      (hawaits : ∀ c, next.Awaits c → machine.MayTest c) : Stepped machine (.next next)
  | stop {e : RuntimeError} {c : Expr}
      (hannounced : ∀ statement ∈ machine.announced, ¬ statement.isSimple)
      (htest : machine.MayTest c) (heval : c.eval machine.state.store = .error e) :
      Stepped machine (.failed e machine.state)

/-- The condition of a first task may be tested. -/
theorem mayTest_of_condition? {task : Task} {rest : List Task} {state : State} {c : Expr}
    (h : task.condition? = some c) : MayTest ⟨task :: rest, state⟩ c := by
  cases task with
  | run statement => exact .inr ⟨statement, List.mem_singleton_self _, h⟩
  | whileRound => exact .inl ⟨_, List.mem_cons_self .., h⟩
  | forRound => exact .inl ⟨_, List.mem_cons_self .., h⟩

/-- **Steps.**  Every step is one of these. -/
theorem stepped (machine : Machine) : Stepped machine machine.step := by
  obtain ⟨agenda, state⟩ := machine
  cases agenda with
  | nil => exact .done rfl
  | cons task rest =>
    by_cases hsimple : ∃ statement, task = .run statement ∧ statement.isSimple
    · obtain ⟨statement, rfl, hsimple⟩ := hsimple
      rcases Stmt.perform_simple hsimple state with ⟨state', hperform⟩ | ⟨e, hperform⟩
      · rw [@step_of_ok (.run statement) rest [] state state' hperform]
        exact .change rfl hsimple hperform
      · rw [@step_of_error (.run statement) rest state state e hperform]
        exact .refuse rfl hsimple hperform
    · have hcompound : ∀ statement, task = .run statement → ¬ statement.isSimple :=
        fun statement htask hs => hsimple ⟨statement, htask, hs⟩
      have hannounced : ∀ statement ∈ announced ⟨task :: rest, state⟩, ¬ statement.isSimple := by
        intro statement hmem
        cases task with
        | run first =>
          obtain rfl := List.mem_singleton.1 hmem
          exact hcompound _ rfl
        | whileRound => cases hmem
        | forRound => cases hmem
      rcases Task.perform_compound hcompound state with
        ⟨tasks, hperform, hlater⟩ | ⟨e, c, hc, heval, hperform⟩
      · rw [step_of_ok hperform]
        refine .turn rfl hannounced fun c hawaits => ?_
        obtain ⟨later, hmem, hround⟩ := hawaits
        rcases List.mem_append.1 hmem with hmem | hmem
        · exact mayTest_of_condition? (hlater later hmem c hround)
        · exact .inl ⟨later, List.mem_cons_of_mem _ hmem, hround⟩
      · rw [step_of_error hperform]
        exact .stop hannounced (mayTest_of_condition? hc) heval

/-! ## Running statements one behind the other -/

/-- Runs statements for as many steps as simple ones need. -/
def replay (statements : List Stmt) (state : State) : Outcome :=
  (start statements state).run (statements.length + 1)

theorem replay_nil (state : State) : replay [] state = .finished state := rfl

/-- A statement that succeeds is followed by the others. -/
theorem replay_cons {statement : Stmt} {state state' : State}
    (h : statement.perform state = .ok [] state') (statements : List Stmt) :
    replay (statement :: statements) state = replay statements state' := by
  have hstep : (start (statement :: statements) state).step = .next (start statements state') :=
    @step_of_ok (.run statement) (Task.ofBlock statements) [] state state' h
  unfold replay
  rw [List.length_cons, run, hstep]

/-- A statement that fails stops the replay. -/
theorem replay_singleton {statement : Stmt} {state state' : State} {e : RuntimeError}
    (h : statement.perform state = .error e state') :
    replay [statement] state = .failed e state' := by
  have hstep : (start [statement] state).step = .failed e state' :=
    @step_of_error (.run statement) [] state state' e h
  unfold replay
  rw [List.length_singleton, run, hstep]

/-! ## Runs -/

/-- The traced statements account for an outcome.  In the state where a run has come to its end, or
has to be broken off, or stops with the error of a condition, all simple ones of them have been
run.  Otherwise the last of them is simple and the one that fails there, and all simple ones in
front of it have been run. -/
def Explained (state : State) (traced : List Stmt) (Tested : Expr → Prop) : Outcome → Prop
  | .finished state' => replay (traced.filter Stmt.isSimple) state = .finished state'
  | .failed e state' =>
    (∃ earlier last, traced = earlier ++ [last] ∧ last.isSimple ∧
      replay (earlier.filter Stmt.isSimple) state = .finished state' ∧
      replay [last] state' = .failed e state') ∨
    (replay (traced.filter Stmt.isSimple) state = .finished state' ∧
      ∃ c, Tested c ∧ c.eval state'.store = .error e)
  | .unfinished machine =>
    replay (traced.filter Stmt.isSimple) state = .finished machine.state

section
variable {state state' : State} {traced : List Stmt} {Tested Tested' : Expr → Prop}
  {outcome : Outcome}

/-- More conditions may be tested than have to be. -/
theorem Explained.mono (h : Explained state traced Tested outcome)
    (hsub : ∀ c, Tested c → Tested' c) : Explained state traced Tested' outcome := by
  cases outcome with
  | finished => exact h
  | unfinished => exact h
  | failed e state' =>
    rcases h with h | ⟨hreplay, c, hc, heval⟩
    · exact .inl h
    · exact .inr ⟨hreplay, c, hsub c hc, heval⟩

/-- A simple statement that is run first accounts for what it changes. -/
theorem Explained.cons {statement : Stmt} (h : Explained state' traced Tested outcome)
    (hsimple : statement.isSimple) (hperform : statement.perform state = .ok [] state') :
    Explained state (statement :: traced) Tested outcome := by
  have hreplay : ∀ later : List Stmt,
      replay ((statement :: later).filter Stmt.isSimple) state =
        replay (later.filter Stmt.isSimple) state' := fun later => by
    rw [List.filter_cons_of_pos hsimple, replay_cons hperform]
  cases outcome with
  | finished => exact (hreplay traced).trans h
  | unfinished => exact (hreplay traced).trans h
  | failed e =>
    rcases h with ⟨earlier, last, rfl, hlast, hearlier, hfails⟩ | ⟨hall, hcondition⟩
    · exact .inl ⟨statement :: earlier, last, rfl, hlast, (hreplay earlier).trans hearlier, hfails⟩
    · exact .inr ⟨(hreplay traced).trans hall, hcondition⟩

/-- Statements that are not simple need no account. -/
theorem Explained.append {announced : List Stmt} (h : Explained state traced Tested outcome)
    (hannounced : ∀ statement ∈ announced, ¬ statement.isSimple) :
    Explained state (announced ++ traced) Tested outcome := by
  have hfilter : ∀ later : List Stmt,
      (announced ++ later).filter Stmt.isSimple = later.filter Stmt.isSimple := fun later => by
    rw [List.filter_append, List.filter_eq_nil_iff.2 hannounced, List.nil_append]
  cases outcome with
  | finished => exact (congrArg (replay · state) (hfilter traced)).trans h
  | unfinished => exact (congrArg (replay · state) (hfilter traced)).trans h
  | failed e state' =>
    rcases h with ⟨earlier, last, rfl, hlast, hearlier, hfails⟩ | ⟨hall, hcondition⟩
    · refine .inl ⟨announced ++ earlier, last, (List.append_assoc ..).symm, hlast, ?_, hfails⟩
      rw [hfilter, hearlier]
    · refine .inr ⟨?_, hcondition⟩
      rw [hfilter, hall]

end

/-- A condition that a run may test: a loop of the agenda waits for it from the beginning, or it is
that of a traced statement. -/
def MayTestWithin (machine : Machine) (n : Nat) (c : Expr) : Prop :=
  machine.Awaits c ∨ ∃ statement ∈ machine.trace n, statement.condition? = some c

/-- **Runs.**  From every agenda, the traced statements account for what a run does. -/
theorem run_explained_of_agenda (n : Nat) (machine : Machine) :
    Explained machine.state (machine.trace n) (machine.MayTestWithin n) (machine.run n) := by
  -- By induction on the number of steps, for all agendas at once: a loop that is under way waits in
  -- the agenda for a condition whose statement was traced before.
  induction n generalizing machine with
  | zero => exact replay_nil machine.state
  | succ n ih =>
    have hstepped := stepped machine
    unfold MayTestWithin
    rw [trace, run]
    generalize machine.step = result at hstepped
    cases hstepped with
    | done hagenda =>
      show Explained machine.state machine.announced _ (.finished machine.state)
      rw [announced, hagenda]
      exact replay_nil machine.state
    | @change statement rest state hagenda hsimple hperform =>
      have hrest : Explained state (trace n ⟨rest, state⟩) _ (run n ⟨rest, state⟩) :=
        ih ⟨rest, state⟩
      show Explained machine.state (machine.announced ++ trace n ⟨rest, state⟩) _ _
      rw [announced, hagenda]
      refine (hrest.mono fun c hc => ?_).cons hsimple hperform
      rcases hc with ⟨task, htask, hround⟩ | ⟨later, hlater, hcondition⟩
      · exact .inl ⟨task, hagenda ▸ List.mem_cons_of_mem _ htask, hround⟩
      · exact .inr ⟨later, List.mem_cons_of_mem _ hlater, hcondition⟩
    | @refuse statement rest e hagenda hsimple hperform =>
      show Explained machine.state machine.announced _ (.failed e machine.state)
      rw [announced, hagenda]
      exact .inl ⟨[], statement, rfl, hsimple, replay_nil _, replay_singleton hperform⟩
    | @turn next hstate hannounced hawaits =>
      have hrest := ih next
      rw [hstate] at hrest
      refine (hrest.mono fun c hc => ?_).append hannounced
      rcases hc with hc | ⟨later, hlater, hcondition⟩
      · rcases hawaits c hc with hc | ⟨statement, hstatement, hcondition⟩
        · exact .inl hc
        · exact .inr ⟨statement, List.mem_append_left _ hstatement, hcondition⟩
      · exact .inr ⟨later, List.mem_append_right _ hlater, hcondition⟩
    | @stop e c hannounced htest heval =>
      show Explained machine.state machine.announced _ (.failed e machine.state)
      refine .inr ⟨?_, c, htest, heval⟩
      rw [List.filter_eq_nil_iff.2 hannounced]
      exact replay_nil machine.state

/-- **Traces account for runs.**  A run that comes to its end has done what the simple statements of
its trace do, one behind the other.  One that fails either stops at the last statement of its trace,
which is simple and fails in the state that the simple ones in front of it lead to; or it stops in
the state that all simple ones lead to, at the condition of a traced statement. -/
theorem run_explained (n : Nat) (statements : List Stmt) (state : State) :
    Explained state ((start statements state).trace n)
      (fun c => ∃ statement ∈ (start statements state).trace n, statement.condition? = some c)
      ((start statements state).run n) := by
  refine (run_explained_of_agenda n (start statements state)).mono fun c hc => ?_
  -- In front of the first statement, no loop waits for anything.
  rcases hc with ⟨task, htask, hround⟩ | htraced
  · rw [Task.round?_of_mem_ofBlock htask] at hround
    cases hround
  · exact htraced

end Machine

end FlatScript
