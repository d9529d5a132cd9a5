/-
# One kind of loop as the other

A `for` loop does what its start does and then what a `while` loop does that repeats the body and
the step behind it.  Their rounds leave the same tasks to be done, but for the next round itself, so
two machines that wait for such rounds take the same steps for as long as they run.

* `Task.Alike` : tasks that are the same, but for the kind of loop that a round belongs to;
* `Machine.step_alike`, `Machine.run_alike` : machines with such tasks take the same steps, with the
  same statements traced, and come to the same end;
* `Machine.exists_trace_append` : the trace of two agendas, one behind the other;
* `Machine.condition_fails_of_finished` : a loop that comes to its end has a condition that does not
  hold any more;
* `for_is_start_then_while` : the law of the two loops.
-/
import FlatScript.Proofs.Ending
import FlatScript.Proofs.Trace
import Mathlib.Data.List.Forall2

namespace FlatScript

variable {condition : Expr}

/-! ## Rounds of loops -/

/-- The condition has a value in a state, and it does not hold. -/
def Expr.FailsIn (condition : Expr) (state : State) : Prop :=
  ∃ value, condition.eval state.store = .ok value ∧ value.isTrue = false

/-- Two tasks are the same; or they are rounds of a `for` loop and of the `while` loop that repeats
the body and the step behind it. -/
inductive Task.Alike : Task → Task → Prop where
  | same (task : Task) : Alike task task
  | round (condition : Expr) (step : Stmt) (body : List Stmt) :
      Alike (.forRound condition step body) (.whileRound condition (body ++ [step]))

theorem Task.forall₂_alike_same (tasks : List Task) : List.Forall₂ Alike tasks tasks := by
  induction tasks with
  | nil => exact .nil
  | cons task tasks ih => exact .cons (.same task) ih

/-- The condition of a statement or a round decides between two lists of tasks. -/
theorem Effect.decide_apply (condition : Expr) (yes no : List Task) (state : State) :
    (do if (← evaluate condition).isTrue then return yes else return no :
      Effect (List Task)) state =
      match condition.eval state.store with
      | .ok value => .ok (if value.isTrue then yes else no) state
      | .error e => .error e state := by
  refine (ofStore_bind_apply (fun store => condition.eval store)
    (fun value => if value.isTrue then pure yes else pure no) state).trans ?_
  cases condition.eval state.store with
  | error e => rfl
  | ok value =>
    dsimp only
    cases value.isTrue <;> rfl

/-- Of a round of a loop, only the condition is evaluated: if it holds, another round is left to be
done in the end, and otherwise nothing is. -/
theorem Task.perform_round {round : Task} (h : round.round? = some condition) (state : State) :
    ∃ before, round.perform state = match condition.eval state.store with
      | .ok value => .ok (if value.isTrue then before ++ [round] else []) state
      | .error e => .error e state := by
  cases round with
  | run statement => cases h
  | whileRound c body =>
    obtain rfl := Option.some.inj h
    exact ⟨ofBlock body, Effect.decide_apply c _ [] state⟩
  | forRound c step body =>
    obtain rfl := Option.some.inj h
    refine ⟨ofBlock body ++ [.run step], (Effect.decide_apply c _ [] state).trans ?_⟩
    rw [List.append_assoc, List.singleton_append]

/-- Two results of tasks in the same state are the same, but for tasks that are alike. -/
inductive Task.SameResult : EStateM.Result RuntimeError State (List Task) →
    EStateM.Result RuntimeError State (List Task) → Prop where
  | ok {tasks tasks' : List Task} (h : List.Forall₂ Alike tasks tasks') (state : State) :
      SameResult (.ok tasks state) (.ok tasks' state)
  | error (e : RuntimeError) (state : State) : SameResult (.error e state) (.error e state)

/-- **Tasks that are alike** do the same, and leave tasks to be done that are alike. -/
theorem Task.Alike.perform {task task' : Task} (h : Alike task task') (state : State) :
    SameResult (task.perform state) (task'.perform state) := by
  cases h with
  | same =>
    cases task.perform state with
    | ok tasks state' => exact .ok (forall₂_alike_same tasks) state'
    | error e state' => exact .error e state'
  | round condition step body =>
    -- The step is the last statement of the longer body, so only the next round differs.
    have htasks : List.Forall₂ Alike (ofBlock body ++ [.run step, .forRound condition step body])
        (ofBlock (body ++ [step]) ++ [.whileRound condition (body ++ [step])]) := by
      have hblock : ofBlock (body ++ [step]) = ofBlock body ++ [.run step] :=
        List.map_append
      rw [hblock, List.append_assoc]
      exact List.rel_append (forall₂_alike_same _)
        (.cons (.same _) (.cons (.round condition step body) .nil))
    have hfor : (forRound condition step body).perform state = _ :=
      Effect.decide_apply condition _ [] state
    have hwhile : (whileRound condition (body ++ [step])).perform state = _ :=
      Effect.decide_apply condition _ [] state
    rw [hfor, hwhile]
    cases condition.eval state.store with
    | error e => exact .error e state
    | ok value =>
      dsimp only
      split
      · exact .ok htasks state
      · exact .ok .nil state

namespace Machine

/-! ## Machines with rounds of both loops -/

variable {agenda agenda' first : List Task} {state left : State} {o : Outcome}

/-- Two steps are the same, but for tasks that are alike. -/
inductive Step.Alike : Step → Step → Prop where
  | done (state : State) : Alike (.done state) (.done state)
  | failed (e : RuntimeError) (state : State) : Alike (.failed e state) (.failed e state)
  | next {agenda agenda' : List Task} (h : List.Forall₂ Task.Alike agenda agenda')
      (state : State) : Alike (.next ⟨agenda, state⟩) (.next ⟨agenda', state⟩)

/-- **Steps.**  Machines whose tasks are alike take the same step. -/
theorem step_alike (h : List.Forall₂ Task.Alike agenda agenda') (state : State) :
    Step.Alike (step ⟨agenda, state⟩) (step ⟨agenda', state⟩) := by
  cases h with
  | nil => exact .done state
  | @cons task task' rest rest' htask hrest =>
    have hresult := htask.perform state
    rw [step, step]
    generalize task.perform state = r at hresult
    generalize task'.perform state = r' at hresult
    cases hresult with
    | ok htasks state' => exact .next (List.rel_append htasks hrest) state'
    | error e state' => exact .failed e state'

/-- What is announced depends on the first task only. -/
theorem announced_cons (task : Task) (rest rest' : List Task) (state : State) :
    announced ⟨task :: rest, state⟩ = announced ⟨task :: rest', state⟩ := by
  cases task <;> rfl

/-- The same statement is announced, since no round announces one. -/
theorem announced_alike (h : List.Forall₂ Task.Alike agenda agenda') (state : State) :
    announced ⟨agenda, state⟩ = announced ⟨agenda', state⟩ := by
  cases h with
  | nil => rfl
  | cons htask hrest =>
    cases htask with
    | same => exact announced_cons ..
    | round => rfl

/-- **Runs.**  Machines whose tasks are alike have the same trace after any number of steps, and
have stopped with the same outcome or not at all. -/
theorem run_alike (h : List.Forall₂ Task.Alike agenda agenda') (state : State) (n : Nat) :
    trace n ⟨agenda, state⟩ = trace n ⟨agenda', state⟩ ∧
      ∀ o : Outcome, o.Stopped → (run n ⟨agenda, state⟩ = o ↔ run n ⟨agenda', state⟩ = o) := by
  induction n generalizing agenda agenda' state with
  | zero =>
    refine ⟨rfl, fun o ho => ?_⟩
    constructor <;> rintro rfl <;> cases ho
  | succ n ih =>
    have hstep := step_alike h state
    have hannounced := announced_alike h state
    rw [trace, trace, run, run]
    generalize step ⟨agenda, state⟩ = r at hstep
    generalize step ⟨agenda', state⟩ = r' at hstep
    cases hstep with
    | done state' => exact ⟨hannounced, fun o _ => Iff.rfl⟩
    | failed e state' => exact ⟨hannounced, fun o _ => Iff.rfl⟩
    | next hnext state' =>
      obtain ⟨htrace, hrun⟩ := ih hnext state'
      exact ⟨congrArg₂ (· ++ ·) hannounced htrace, hrun⟩

theorem ends_alike (h : List.Forall₂ Task.Alike agenda agenda') :
    Ends ⟨agenda, state⟩ o ↔ Ends ⟨agenda', state⟩ o := by
  constructor
  · rintro ⟨hstopped, n, hn⟩
    exact ⟨hstopped, n, ((run_alike h state n).2 o hstopped).1 hn⟩
  · rintro ⟨hstopped, n, hn⟩
    exact ⟨hstopped, n, ((run_alike h state n).2 o hstopped).2 hn⟩

/-! ## Traces of two agendas, one behind the other -/

theorem trace_succ_of_ok {task : Task} {tasks : List Task} {state' : State}
    (h : task.perform state = .ok tasks state') (n : Nat) :
    trace (n + 1) ⟨task :: agenda, state⟩ =
      announced ⟨task :: agenda, state⟩ ++ trace n ⟨tasks ++ agenda, state'⟩ := by
  rw [trace, step_of_ok h]

theorem trace_succ_of_error {task : Task} {state' : State} {e : RuntimeError}
    (h : task.perform state = .error e state') (n : Nat) :
    trace (n + 1) ⟨task :: agenda, state⟩ = announced ⟨task :: agenda, state⟩ := by
  rw [trace, step_of_error h]

/-- As long as the first agenda has not come to its end, its statements are traced alone. -/
theorem trace_append_of_not_finished {n : Nat} (h : ∀ mid, run n ⟨first, state⟩ ≠ .finished mid)
    (second : List Task) : trace n ⟨first ++ second, state⟩ = trace n ⟨first, state⟩ := by
  induction n generalizing first state with
  | zero => rfl
  | succ n ih =>
    cases first with
    | nil => exact absurd rfl (h state)
    | cons task rest =>
      cases hperform : task.perform state with
      | error e state' =>
        rw [List.cons_append, trace_succ_of_error hperform, trace_succ_of_error hperform]
        exact announced_cons ..
      | ok tasks state' =>
        have hrest : ∀ mid, run n ⟨tasks ++ rest, state'⟩ ≠ .finished mid := by
          intro mid hmid
          apply h mid
          rw [run, step_of_ok hperform]
          exact hmid
        rw [List.cons_append, trace_succ_of_ok hperform, trace_succ_of_ok hperform,
          ← List.append_assoc, ih hrest, announced_cons task (rest ++ second) rest]

/-- Once the first agenda has come to its end, what the second one traces stands behind its trace,
in as many steps as were left. -/
theorem exists_trace_append {n : Nat} {mid : State} (h : run n ⟨first, state⟩ = .finished mid) :
    ∃ k, ∀ (second : List Task) (i : Nat), trace (n + i) ⟨first ++ second, state⟩ =
      trace n ⟨first, state⟩ ++ trace (k + i) ⟨second, mid⟩ := by
  induction n generalizing first state with
  | zero => cases h
  | succ n ih =>
    cases first with
    | nil =>
      obtain rfl : state = mid := Outcome.finished.inj h
      exact ⟨n + 1, fun second i => rfl⟩
    | cons task rest =>
      cases hperform : task.perform state with
      | error e state' =>
        rw [run, step_of_error hperform] at h
        cases h
      | ok tasks state' =>
        rw [run, step_of_ok hperform] at h
        obtain ⟨k, hk⟩ := ih h
        refine ⟨k, fun second i => ?_⟩
        rw [Nat.add_right_comm, List.cons_append, trace_succ_of_ok hperform,
          trace_succ_of_ok hperform, ← List.append_assoc tasks, hk,
          announced_cons task (rest ++ second) rest, List.append_assoc]

/-! ## The end of a loop -/

/-- A run whose last task is the round of a loop finishes only where the condition of the loop has a
value that does not hold. -/
theorem condition_fails_of_finished {round : Task} (hround : round.round? = some condition)
    {n : Nat} (h : run n ⟨first ++ [round], state⟩ = .finished left) :
    condition.FailsIn left := by
  -- The round stays the last task until it is performed in front of nothing and leaves nothing.
  induction n generalizing first state with
  | zero => cases h
  | succ n ih =>
    cases first with
    | nil =>
      obtain ⟨before, hperform⟩ := Task.perform_round hround state
      cases heval : condition.eval state.store with
      | error e =>
        rw [heval] at hperform
        rw [List.nil_append, run, step_of_error hperform] at h
        cases h
      | ok value =>
        rw [heval] at hperform
        rw [List.nil_append, run, step_of_ok hperform] at h
        cases hvalue : value.isTrue with
        | true =>
          rw [hvalue, if_pos rfl, List.append_nil] at h
          exact ih h
        | false =>
          rw [hvalue, if_neg Bool.false_ne_true] at h
          obtain rfl : left = state := by
            cases n with
            | zero => cases h
            | succ n => exact (Outcome.finished.inj h).symm
          exact ⟨value, heval, hvalue⟩
    | cons task rest =>
      cases hperform : task.perform state with
      | error e state' =>
        rw [List.cons_append, run, step_of_error hperform] at h
        cases h
      | ok tasks state' =>
        rw [List.cons_append, run, step_of_ok hperform] at h
        dsimp only at h
        rw [← List.append_assoc] at h
        exact ih h

theorem Ends.condition_fails {round : Task} (hround : round.round? = some condition)
    (h : Ends ⟨first ++ [round], state⟩ (.finished left)) :
    condition.FailsIn left := by
  obtain ⟨-, n, hn⟩ := h
  exact condition_fails_of_finished hround hn

/-! ## Both loops -/

section
variable (condition : Expr) (start step : Stmt) (body : List Stmt) (span span' : Span)

/-- The first rounds of both loops are alike. -/
theorem rounds_alike : List.Forall₂ Task.Alike [.forRound condition step body]
    [.whileRound condition (body ++ [step])] :=
  .cons (.round condition step body) .nil

/-- A `while` loop begins with its first round. -/
theorem ends_whileLoop : Ends ⟨[.run (.whileLoop condition body span)], state⟩ o ↔
    Ends ⟨[.whileRound condition body], state⟩ o :=
  @ends_of_ok o (.run (.whileLoop condition body span)) _ [] state state rfl

/-- A `for` loop begins with its start, and goes on with its first round. -/
theorem ends_forLoop : Ends (Machine.start [.forLoop start condition step body span] state) o ↔
    Ends ⟨[.run start] ++ [.forRound condition step body], state⟩ o :=
  @ends_of_ok o (.run (.forLoop start condition step body span)) _ [] state state rfl

/-- **Ends.**  A `for` loop comes to the end of its start and the `while` loop behind it. -/
theorem ends_forLoop_iff : Ends (Machine.start [.forLoop start condition step body span] state) o ↔
    Ends (Machine.start [start, .whileLoop condition (body ++ [step]) span'] state) o := by
  have hrest : ∀ {mid : State} {o : Outcome}, Ends ⟨[.forRound condition step body], mid⟩ o ↔
      Ends ⟨[.run (.whileLoop condition (body ++ [step]) span')], mid⟩ o :=
    (ends_alike (rounds_alike condition step body)).trans (ends_whileLoop ..).symm
  rw [ends_forLoop, ends_append]
  show _ ↔ Ends ⟨[.run start] ++ [.run (.whileLoop condition (body ++ [step]) span')], state⟩ o
  rw [ends_append]
  constructor
  · rintro ⟨mid, hmid, hcontinues⟩
    exact ⟨mid, hmid, hcontinues.mono fun _ _ => hrest.1⟩
  · rintro ⟨mid, hmid, hcontinues⟩
    exact ⟨mid, hmid, hcontinues.mono fun _ _ => hrest.2⟩

/-- **Traces.**  As long as the start has not come to its end, the loops trace what it traces, and
the `for` loop is traced in front of that.  Then the `while` loop is traced behind it, and both go
on with the same statements. -/
theorem trace_forLoop (n : Nat) :
    let loop := Stmt.forLoop start condition step body span
    let unrolled := Stmt.whileLoop condition (body ++ [step]) span'
    let begun := Machine.start [start] state
    ((∀ mid, begun.run n ≠ .finished mid) ∧
      trace (n + 1) (Machine.start [loop] state) = loop :: begun.trace n ∧
      trace n (Machine.start [start, unrolled] state) = begun.trace n) ∨
    ∃ mid later, begun.run n = .finished mid ∧
      trace (n + 1) (Machine.start [loop] state) = loop :: (begun.trace n ++ later) ∧
      trace (n + 1) (Machine.start [start, unrolled] state) =
        begun.trace n ++ unrolled :: later := by
  intro loop unrolled begun
  have hfor : ∀ n, trace (n + 1) (Machine.start [loop] state) =
      loop :: trace n ⟨[.run start] ++ [.forRound condition step body], state⟩ := fun n =>
    @trace_succ_of_ok [] state (.run loop) _ state rfl n
  by_cases hfinished : ∃ mid, begun.run n = .finished mid
  · obtain ⟨mid, hmid⟩ := hfinished
    obtain ⟨k, hk⟩ := exists_trace_append hmid
    refine .inr ⟨mid, trace k ⟨[.forRound condition step body], mid⟩, hmid, ?_, ?_⟩
    · rw [hfor]
      exact congrArg (loop :: ·) (hk _ 0)
    · have hwhile : trace (k + 1) ⟨[.run unrolled], mid⟩ =
          unrolled :: trace k ⟨[.whileRound condition (body ++ [step])], mid⟩ :=
        @trace_succ_of_ok [] mid (.run unrolled) _ mid rfl k
      rw [(run_alike (rounds_alike condition step body) mid k).1, ← hwhile]
      exact hk [.run unrolled] 1
  · have hrunning : ∀ mid, begun.run n ≠ .finished mid := fun mid hmid => hfinished ⟨mid, hmid⟩
    have halone : ∀ second, trace n ⟨[.run start] ++ second, state⟩ = begun.trace n :=
      trace_append_of_not_finished hrunning
    refine .inl ⟨hrunning, ?_, halone [.run unrolled]⟩
    rw [hfor, halone]

end

end Machine

/-- **Both loops.**  A `for` loop comes to the same end as its start and a `while` loop behind it
that repeats the body and then the step: both run forever, or both stop in the same state, with the
same error if there is one.  After any number of steps they have traced the same statements in the
same order, apart from the loops themselves: the `for` loop is traced first, and the `while` loop
where its start has come to an end, if it has.  And either loop finishes only in a state where its
condition has a value that does not hold. -/
theorem for_is_start_then_while (start step : Stmt) (condition : Expr) (body : List Stmt)
    (span span' : Span) (state : State) :
    let loop := Stmt.forLoop start condition step body span
    let unrolled := Stmt.whileLoop condition (body ++ [step]) span'
    let begun := Machine.start [start] state
    let first := Machine.start [loop] state
    let second := Machine.start [start, unrolled] state
    (∀ o, first.Ends o ↔ second.Ends o) ∧
    (∀ n,
      ((∀ mid, begun.run n ≠ .finished mid) ∧ first.trace (n + 1) = loop :: begun.trace n ∧
        second.trace n = begun.trace n) ∨
      ∃ mid later, begun.run n = .finished mid ∧
        first.trace (n + 1) = loop :: (begun.trace n ++ later) ∧
        second.trace (n + 1) = begun.trace n ++ unrolled :: later) ∧
    (∀ left, first.Ends (.finished left) → condition.FailsIn left) ∧
    ∀ entered left, (Machine.start [unrolled] entered).Ends (.finished left) →
      condition.FailsIn left := by
  intro loop unrolled begun first second
  refine ⟨fun o => Machine.ends_forLoop_iff .., fun n => Machine.trace_forLoop .., ?_, ?_⟩
  · intro left hends
    exact Machine.Ends.condition_fails rfl ((Machine.ends_forLoop ..).1 hends)
  · intro entered left hends
    exact @Machine.Ends.condition_fails condition [] entered left _ rfl
      ((Machine.ends_whileLoop ..).1 hends)

/-- A loop of one round: its step takes away the text that the condition waits for. -/
theorem for_is_start_then_while_once :
    let go : Expr := .var ⟨"go", {}⟩ {}
    let start : Stmt := .assign ⟨"go", {}⟩ (.literal (.text "on") {}) {}
    let step : Stmt := .assign ⟨"go", {}⟩ (.literal (.text "") {}) {}
    let body : List Stmt := [.print [go] (.literal (.text "!") {}) {}]
    let left : State := ⟨⟨[("go", .text "")]⟩, "on!"⟩
    (Machine.start [.forLoop start go step body {}] {}).Ends (.finished left) ∧
      (Machine.start [start, .whileLoop go (body ++ [step]) {}] {}).Ends (.finished left) ∧
      go.FailsIn left := by
  intro go start step body left
  obtain ⟨hends, -, hfails, -⟩ := for_is_start_then_while start step go body {} {} {}
  have hfor : (Machine.start [.forLoop start go step body {}] {}).Ends (.finished left) :=
    ⟨.finished left, 7, by rfl⟩
  exact ⟨hfor, (hends _).1 hfor, hfails left hfor⟩

end FlatScript
