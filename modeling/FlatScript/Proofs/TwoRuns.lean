/-
# Two runs side by side

The same statements are run from two states that have something to do with each other.  If all that
a task does keeps them related, and its result is the same for both, then the runs stay in step:
after any number of steps they have the same tasks left, or both have stopped in the same way, or
with the same error.

* `Effect.Keeps` : what an effect does is the same in related states, and leaves them related;
* `Effect.Leaves` : all that an effect leaves to be done is of one sort;
* `Machine.run_paired_of`, `Machine.ends_paired` : runs of tasks of one sort, and their ends, if
  these tasks keep the relation;
* `output_is_framed` : what was printed before a run, and what it prints, have nothing to do with
  each other.
-/
import FlatScript.Proofs.Ending

namespace FlatScript

variable {R : State → State → Prop}

/-! ## Effects in related states -/

namespace Effect

/-- Two results are the same, and the states that they leave are related. -/
inductive Paired (R : State → State → Prop) {α : Type} :
    EStateM.Result RuntimeError State α → EStateM.Result RuntimeError State α → Prop where
  | ok (a : α) {s t : State} (h : R s t) : Paired R (.ok a s) (.ok a t)
  | error (e : RuntimeError) {s t : State} (h : R s t) : Paired R (.error e s) (.error e t)

/-- In related states, the effect has the same result and leaves related states. -/
def Keeps {α : Type} (R : State → State → Prop) (effect : Effect α) : Prop :=
  ∀ s t, R s t → Paired R (effect s) (effect t)

/-- Doing nothing keeps every relation of states. -/
theorem Keeps.pure {α : Type} (a : α) : Keeps R (Pure.pure a : Effect α) := by
  intro s t hst
  exact .ok a hst

/-- Effects that keep a relation keep it one behind the other: both runs fail there or neither
does. -/
theorem Keeps.bind {α β : Type} {effect : Effect α} {next : α → Effect β} (h : Keeps R effect)
    (hnext : ∀ a, Keeps R (next a)) : Keeps R (effect >>= next) := by
  intro s t hst
  show Paired R (EStateM.bind effect next s) (EStateM.bind effect next t)
  have hpaired := h s t hst
  unfold EStateM.bind
  generalize effect s = r at hpaired
  generalize effect t = r' at hpaired
  cases hpaired with
  | ok a hst' => exact hnext a _ _ hst'
  | error e hst' => exact .error e hst'

/-- Something that is computed from the store, if it is the same in related states. -/
theorem Keeps.ofStore {α : Type} {compute : Store → Except RuntimeError α}
    (h : ∀ s t, R s t → compute s.store = compute t.store) : Keeps R (Effect.ofStore compute) := by
  intro s t hst
  unfold Effect.ofStore
  rw [h s t hst]
  cases compute t.store with
  | ok a => exact .ok a hst
  | error e => exact .error e hst

/-- Setting a variable keeps a relation that the same change of both stores keeps. -/
theorem Keeps.setVariable {name : String} {value : Value}
    (h : ∀ s t, R s t →
      R { s with store := s.store.set name value } { t with store := t.store.set name value }) :
    Keeps R (Effect.setVariable name value) := by
  intro s t hst
  exact .ok () (h s t hst)

/-- Printing keeps a relation that the same text behind both outputs keeps. -/
theorem Keeps.emit {line : String}
    (h : ∀ s t, R s t →
      R { s with output := s.output ++ line } { t with output := t.output ++ line }) :
    Keeps R (Effect.emit line) := by
  intro s t hst
  exact .ok () (h s t hst)

/-- A decision on the value of a condition. -/
theorem Keeps.decide {condition : Expr} (h : Keeps R (evaluate condition)) (yes no : List Task) :
    Keeps R (do if (← evaluate condition).isTrue then return yes else return no) := by
  refine h.bind fun value => ?_
  cases value.isTrue
  · exact .pure no
  · exact .pure yes

/-! ## What an effect leaves to be done -/

/-- In whatever state, all tasks that the effect leaves to be done are of one sort. -/
def Leaves (P : Task → Prop) (effect : Effect (List Task)) : Prop :=
  ∀ s tasks s', effect s = .ok tasks s' → ∀ task ∈ tasks, P task

theorem Leaves.pure {P : Task → Prop} {tasks : List Task} (h : ∀ task ∈ tasks, P task) :
    Leaves P (Pure.pure tasks) := by
  intro s left s' hleft
  cases hleft
  exact h

/-- Which tasks are left is a matter of the last effect. -/
theorem Leaves.bind {α : Type} {P : Task → Prop} {effect : Effect α}
    {next : α → Effect (List Task)} (h : ∀ a, Leaves P (next a)) : Leaves P (effect >>= next) := by
  intro s tasks s' htasks
  change EStateM.bind effect next s = .ok tasks s' at htasks
  unfold EStateM.bind at htasks
  cases heffect : effect s with
  | ok a mid =>
    rw [heffect] at htasks
    exact h a mid tasks s' htasks
  | error e mid =>
    rw [heffect] at htasks
    cases htasks

/-- A decision on the value of a condition. -/
theorem Leaves.decide {P : Task → Prop} {yes no : List Task} (hyes : ∀ task ∈ yes, P task)
    (hno : ∀ task ∈ no, P task) (condition : Expr) :
    Leaves P (do if (← evaluate condition).isTrue then return yes else return no) := by
  refine Leaves.bind fun value => ?_
  cases value.isTrue
  · exact .pure hno
  · exact .pure hyes

end Effect

open Effect

namespace Machine

/-! ## Runs in related states -/

/-- Two outcomes are the same, and the states that they leave are related. -/
inductive Outcome.Paired (R : State → State → Prop) : Outcome → Outcome → Prop where
  | finished {s t : State} (h : R s t) : Paired R (.finished s) (.finished t)
  | failed (e : RuntimeError) {s t : State} (h : R s t) : Paired R (.failed e s) (.failed e t)
  | unfinished (agenda : List Task) {s t : State} (h : R s t) :
      Paired R (.unfinished ⟨agenda, s⟩) (.unfinished ⟨agenda, t⟩)

/-- **Runs.**  If all tasks of one sort keep the relation, and leave only such tasks to be done,
then runs of such tasks from related states stay in step. -/
theorem run_paired_of {P : Task → Prop} (hkeeps : ∀ task, P task → Effect.Keeps R task.perform)
    (hleaves : ∀ task, P task → Effect.Leaves P task.perform) (n : Nat) {agenda : List Task}
    (hagenda : ∀ task ∈ agenda, P task) {s t : State} (h : R s t) :
    Outcome.Paired R (run n ⟨agenda, s⟩) (run n ⟨agenda, t⟩) := by
  induction n generalizing agenda s t with
  | zero => exact .unfinished agenda h
  | succ n ih =>
    cases agenda with
    | nil => exact .finished h
    | cons task agenda =>
      have htask : P task := hagenda task List.mem_cons_self
      have hpaired := hkeeps task htask s t h
      have hleft := hleaves task htask s
      rw [run, run, step, step]
      generalize task.perform s = r at hpaired hleft
      generalize task.perform t = r' at hpaired
      cases hpaired with
      | @ok tasks s' t' h' =>
        refine ih (fun later hlater => ?_) h'
        rcases List.mem_append.1 hlater with hlater | hlater
        · exact hleft tasks s' rfl later hlater
        · exact hagenda later (List.mem_cons_of_mem _ hlater)
      | error e h' => exact .failed e h'

/-- If all tasks keep the relation, then all runs from related states stay in step. -/
theorem run_paired (hkeeps : ∀ task : Task, Effect.Keeps R task.perform) (n : Nat)
    (agenda : List Task) {s t : State} (h : R s t) :
    Outcome.Paired R (run n ⟨agenda, s⟩) (run n ⟨agenda, t⟩) :=
  run_paired_of (P := fun _ => True) (fun task _ => hkeeps task) (fun _ _ _ _ _ _ _ _ => trivial) n
    (fun _ _ => trivial) h

/-- **Ends.**  Of two runs that stay in step, both finish, or both fail with the same error, or
neither of them comes to an end. -/
theorem ends_paired {m m' : Machine} (h : ∀ n, Outcome.Paired R (m.run n) (m'.run n)) :
    (∃ s t, R s t ∧ m.Ends (.finished s) ∧ m'.Ends (.finished t)) ∨
    (∃ e s t, R s t ∧ m.Ends (.failed e s) ∧ m'.Ends (.failed e t)) ∨
    (∀ o, ¬ m.Ends o) ∧ ∀ o, ¬ m'.Ends o := by
  by_cases hstops : ∃ n, (m.run n).Stopped
  · obtain ⟨n, hstopped⟩ := hstops
    have hpaired := h n
    generalize hs : m.run n = o at hpaired hstopped
    generalize ht : m'.run n = o' at hpaired
    cases hpaired with
    | @finished s t hst => exact .inl ⟨s, t, hst, ⟨.finished s, n, hs⟩, ⟨.finished t, n, ht⟩⟩
    | @failed e s t hst =>
      exact .inr (.inl ⟨e, s, t, hst, ⟨.failed e s, n, hs⟩, ⟨.failed e t, n, ht⟩⟩)
    | unfinished => cases hstopped
  · refine .inr (.inr ⟨?_, ?_⟩)
    · rintro o ⟨hstopped, n, rfl⟩
      exact hstops ⟨n, hstopped⟩
    · rintro o ⟨hstopped, n, rfl⟩
      refine hstops ⟨n, ?_⟩
      have hpaired := h n
      generalize m.run n = o at hpaired ⊢
      generalize m'.run n = o' at hpaired hstopped
      cases hpaired with
      | finished => exact .finished _
      | failed => exact .failed _ _
      | unfinished => cases hstopped

end Machine

/-! ## What was printed before -/

/-- All that is defined in one store is defined in another one as well. -/
def Store.Within (store store' : Store) : Prop :=
  ∀ name, (store.get? name).isSome → (store'.get? name).isSome

/-- Two states hold the same store, which defines all that a first one did, and the same text was
printed in both behind two texts. -/
structure Framed (first : Store) (o₁ o₂ : String) (s t : State) : Prop where
  store : s.store = t.store
  within : first.Within s.store
  output : ∃ d, s.output = o₁ ++ d ∧ t.output = o₂ ++ d

namespace Framed

variable {first : Store} {o₁ o₂ : String}

/-- Evaluating an expression reads the stores alone, which are the same in both runs. -/
theorem keeps_evaluate (e : Expr) : Keeps (Framed first o₁ o₂) (evaluate e) :=
  .ofStore fun _ _ h => congrArg (e.eval ·) h.store

/-- A name that was defined stays defined, whichever name is given a value. -/
theorem keeps_setVariable (name : String) (value : Value) :
    Keeps (Framed first o₁ o₂) (setVariable name value) := by
  apply Keeps.setVariable
  intro s t h
  refine ⟨congrArg (Store.set · name value) h.store, fun other hother => ?_, h.output⟩
  rw [Store.get?_set]
  split
  · rfl
  · exact h.within other hother

/-- What is printed comes behind all that was printed before. -/
theorem keeps_emit (line : String) : Keeps (Framed first o₁ o₂) (emit line) := by
  apply Keeps.emit
  intro s t h
  obtain ⟨d, hs, ht⟩ := h.output
  refine ⟨h.store, h.within, d ++ line, ?_, ?_⟩
  · rw [hs, String.append_assoc]
  · rw [ht, String.append_assoc]

/-- Whatever a statement does, it does to both states, and prints the same text behind both
outputs. -/
theorem keeps_perform_statement (statement : Stmt) :
    Keeps (Framed first o₁ o₂) statement.perform := by
  cases statement with
  | expr value span => exact (keeps_evaluate value).bind fun _ => .pure _
  | assign name value span =>
    exact (keeps_evaluate value).bind fun v => (keeps_setVariable name.text v).bind fun _ => .pure _
  | print items terminator span =>
    refine Keeps.bind (.ofStore fun _ _ h => congrArg (Expr.evalLine · _) h.store) fun line => ?_
    exact (keeps_emit line).bind fun _ => .pure _
  | branch condition body alternative span => exact (keeps_evaluate condition).decide _ _
  | whileLoop condition body span => exact .pure _
  | forLoop start condition step body span => exact .pure _
  | update op name span =>
    refine Keeps.bind (.ofStore fun _ _ h => congrArg (Store.readNumber · op name.text) h.store)
      fun x => ?_
    exact (keeps_setVariable name.text _).bind fun _ => .pure _

/-- A task does no more than the statement that it is a part of. -/
theorem keeps_perform (task : Task) : Keeps (Framed first o₁ o₂) task.perform := by
  cases task with
  | run statement => exact keeps_perform_statement statement
  | whileRound condition body => exact (keeps_evaluate condition).decide _ _
  | forRound condition step body => exact (keeps_evaluate condition).decide _ _

end Framed

/-- **Output.**  Two runs of the same statements from the same store, behind two texts that were
printed before: both finish, or both fail with the same error, and then they leave the same store
and have printed the same text behind those two; or both run forever.  However a run stops, all that
was defined before is still defined. -/
theorem output_is_framed (statements : List Stmt) (store : Store) (o₁ o₂ : String) :
    let first := Machine.start statements ⟨store, o₁⟩
    let second := Machine.start statements ⟨store, o₂⟩
    (∃ left d, first.Ends (.finished ⟨left, o₁ ++ d⟩) ∧ second.Ends (.finished ⟨left, o₂ ++ d⟩) ∧
      store.Within left) ∨
    (∃ e left d, first.Ends (.failed e ⟨left, o₁ ++ d⟩) ∧ second.Ends (.failed e ⟨left, o₂ ++ d⟩) ∧
      store.Within left) ∨
    (∀ o, ¬ first.Ends o) ∧ ∀ o, ¬ second.Ends o := by
  intro first second
  have hstart : Framed store o₁ o₂ ⟨store, o₁⟩ ⟨store, o₂⟩ :=
    ⟨rfl, fun _ h => h, "", String.append_empty.symm, String.append_empty.symm⟩
  have hpaired := fun n =>
    Machine.run_paired Framed.keeps_perform n (Task.ofBlock statements) hstart
  rcases Machine.ends_paired hpaired with ⟨s, t, hst, hs, ht⟩ | ⟨e, s, t, hst, hs, ht⟩ | hnever
  · obtain ⟨left, printed⟩ := s
    obtain ⟨left', printed'⟩ := t
    obtain ⟨rfl, hwithin, d, rfl, rfl⟩ := hst
    exact .inl ⟨left, d, hs, ht, hwithin⟩
  · obtain ⟨left, printed⟩ := s
    obtain ⟨left', printed'⟩ := t
    obtain ⟨rfl, hwithin, d, rfl, rfl⟩ := hst
    exact .inr (.inl ⟨e, left, d, hs, ht, hwithin⟩)
  · exact .inr (.inr hnever)

end FlatScript
