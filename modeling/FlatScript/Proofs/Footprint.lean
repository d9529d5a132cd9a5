/-
# What a program touches

A program gets at variables by the names that stand in it.  What is kept under other names is
neither seen by it nor touched: from stores that agree on the names of a program, its runs do the
same, and whatever is not assigned or updated somewhere in it stays as it was.

* `Access` : what is done with a variable; `Stmt.accesses` : all that a statement may do;
* `Task.leaves_perform` : what a task leaves to be done gets at no other variables;
* `Confined` : what two runs have in common, and what each of them keeps;
* `programs_keep_to_their_names` : that all runs do, however they end.
-/
import FlatScript.Proofs.LeftSpine
import FlatScript.Proofs.TwoRuns

namespace FlatScript

/-! ## Names in programs -/

/-- What is done with a variable: it is read, or it is given a value. -/
inductive Access where
  | read (name : String)
  | write (name : String)
deriving DecidableEq

/-- The variable that something is done with. -/
def Access.name : Access → String
  | .read name => name
  | .write name => name

/-- The variables that an expression reads. -/
def Expr.accesses : Expr → List Access
  | .literal _ _ => []
  | .var name _ => [.read name.text]
  | .binary _ left right _ => left.accesses ++ right.accesses

mutual

/-- All that a statement may do with variables, in its blocks and in the clauses of its loops as
well. -/
def Stmt.accesses : Stmt → List Access
  | .expr value _ => value.accesses
  | .assign name value _ => .write name.text :: value.accesses
  | .print items terminator _ => (items ++ [terminator]).flatMap Expr.accesses
  | .branch condition body none _ => condition.accesses ++ accessesOf body
  | .branch condition body (some alternative) _ =>
    condition.accesses ++ accessesOf body ++ accessesOf alternative
  | .whileLoop condition body _ => condition.accesses ++ accessesOf body
  | .forLoop start condition step body _ =>
    start.accesses ++ condition.accesses ++ step.accesses ++ accessesOf body
  | .update _ name _ => [.read name.text, .write name.text]

/-- All that some statements may do with variables. -/
def accessesOf : List Stmt → List Access
  | [] => []
  | statement :: statements => statement.accesses ++ accessesOf statements

end

/-- All that a task may do with variables, in all rounds of a loop. -/
def Task.accesses : Task → List Access
  | .run statement => statement.accesses
  | .whileRound condition body => condition.accesses ++ accessesOf body
  | .forRound condition step body => condition.accesses ++ step.accesses ++ accessesOf body

/-- A statement accesses no name that its block does not access. -/
theorem accesses_subset_of_mem {statement : Stmt} {block : List Stmt} (h : statement ∈ block) :
    statement.accesses ⊆ accessesOf block := by
  induction block with
  | nil => cases h
  | cons first block ih =>
    rw [accessesOf]
    rcases List.mem_cons.1 h with rfl | h
    · exact List.subset_append_left _ _
    · exact List.Subset.trans (ih h) (List.subset_append_right _ _)

/-- The task that runs a statement accesses no name that its block does not access. -/
theorem Task.accesses_subset_of_mem {task : Task} {block : List Stmt}
    (h : task ∈ Task.ofBlock block) : task.accesses ⊆ accessesOf block := by
  obtain ⟨statement, hstatement, rfl⟩ := List.mem_map.1 h
  exact FlatScript.accesses_subset_of_mem hstatement

/-! ## What is left to be done -/

section
open Effect

/-- What a statement leaves to be done does nothing with variables that the statement does not. -/
theorem Stmt.leaves_perform (statement : Stmt) :
    Leaves (fun task => task.accesses ⊆ statement.accesses) statement.perform := by
  cases statement with
  | expr value span => exact .bind fun _ => .pure nofun
  | assign name value span => exact .bind fun _ => .bind fun _ => .pure nofun
  | print items terminator span => exact .bind fun _ => .bind fun _ => .pure nofun
  | branch condition body alternative span =>
    refine .decide (fun task htask => ?_) (fun task htask => ?_) condition
    · have hbody := Task.accesses_subset_of_mem htask
      cases alternative with
      | none =>
        rw [accesses]
        exact List.Subset.trans hbody (List.subset_append_right _ _)
      | some alternative =>
        rw [accesses]
        have hboth := List.Subset.trans hbody (List.subset_append_right condition.accesses _)
        exact List.Subset.trans hboth (List.subset_append_left _ _)
    · cases alternative with
      | none => cases htask
      | some alternative =>
        rw [accesses]
        exact List.Subset.trans (Task.accesses_subset_of_mem htask) (List.subset_append_right _ _)
  | whileLoop condition body span =>
    refine .pure fun task htask => ?_
    obtain rfl := List.mem_singleton.1 htask
    rw [accesses, Task.accesses]
    exact List.Subset.refl _
  | forLoop start condition step body span =>
    refine .pure fun task htask => ?_
    rw [accesses]
    simp only [List.mem_cons, List.not_mem_nil, or_false] at htask
    rcases htask with rfl | rfl
    · rw [Task.accesses]
      simp only [List.append_assoc]
      exact List.subset_append_left _ _
    · rw [Task.accesses]
      simp only [List.append_assoc]
      exact List.subset_append_right _ _
  | update op name span => exact .bind fun _ => .bind fun _ => .pure nofun

/-- What a task leaves to be done does nothing with variables that the task does not. -/
theorem Task.leaves_perform (task : Task) :
    Leaves (fun later => later.accesses ⊆ task.accesses) task.perform := by
  cases task with
  | run statement => exact statement.leaves_perform
  | whileRound condition body =>
    refine .decide (fun later hlater => ?_) nofun condition
    rcases List.mem_append.1 hlater with hlater | hlater
    · exact List.Subset.trans (accesses_subset_of_mem hlater) (List.subset_append_right _ _)
    · obtain rfl := List.mem_singleton.1 hlater
      exact List.Subset.refl _
  | forRound condition step body =>
    refine .decide (fun later hlater => ?_) nofun condition
    simp only [List.mem_append, List.mem_cons, List.not_mem_nil, or_false] at hlater
    rcases hlater with hlater | rfl | rfl
    · exact List.Subset.trans (accesses_subset_of_mem hlater) (List.subset_append_right _ _)
    · exact List.Subset.trans (List.subset_append_right condition.accesses _)
        (List.subset_append_left _ _)
    · exact List.Subset.refl _

end

/-! ## Stores that agree -/

/-- Two stores hold the same under all names that something is done with. -/
def Store.AgreeOn (allowed : List Access) (store store' : Store) : Prop :=
  ∀ access ∈ allowed, store.get? access.name = store'.get? access.name

/-- A store holds what it held before, or still nothing, under all names that nothing is written
to. -/
def Store.KeptBut (allowed : List Access) (before after : Store) : Prop :=
  ∀ name, .write name ∉ allowed → after.get? name = before.get? name

section
variable {allowed : List Access} {store store' : Store}

/-- Stores that agree on some names agree on fewer. -/
theorem Store.AgreeOn.mono {fewer : List Access} (h : store.AgreeOn allowed store')
    (hsub : fewer ⊆ allowed) : store.AgreeOn fewer store' :=
  fun access haccess => h access (hsub haccess)

/-- Reading a name gives the same where it holds the same, and so does reading it for an update. -/
theorem Store.read_congr {name : String} (h : store.get? name = store'.get? name) :
    store.read name = store'.read name := by
  rw [read, read, h]

/-- An update reads the name that it changes, and no other. -/
theorem Store.readNumber_congr {op : UpdateOp} {name : String}
    (h : store.get? name = store'.get? name) :
    store.readNumber op name = store'.readNumber op name := by
  rw [readNumber, readNumber, h]

/-- **Expressions** depend on nothing but the variables that they read. -/
theorem Expr.eval_congr {e : Expr} (h : store.AgreeOn e.accesses store') :
    e.eval store = e.eval store' := by
  induction e with
  | literal value span => rfl
  | var name span =>
    rw [eval_var, eval_var]
    exact Store.read_congr (h (.read name.text) List.mem_cons_self)
  | binary op left right span ihleft ihright =>
    rw [accesses] at h
    rw [eval_binary, eval_binary, ihleft (h.mono (List.subset_append_left _ _)),
      ihright (h.mono (List.subset_append_right _ _))]

/-- A printed line reads the names in its items, and no others. -/
theorem Expr.evalLine_congr {items : List Expr}
    (h : store.AgreeOn (items.flatMap accesses) store') :
    evalLine store items = evalLine store' items := by
  induction items with
  | nil => rfl
  | cons item items ih =>
    rw [List.flatMap_cons] at h
    rw [evalLine, evalLine, eval_congr (h.mono (List.subset_append_left _ _)),
      ih (h.mono (List.subset_append_right _ _))]

end

/-! ## Two runs -/

/-- Two states that were reached from two stores have printed the same and hold the same under all
names that something is done with; and each of them has kept what it held under the other names. -/
structure Confined (allowed : List Access) (first second : Store) (s t : State) : Prop where
  output : s.output = t.output
  agree : s.store.AgreeOn allowed t.store
  kept_first : first.KeptBut allowed s.store
  kept_second : second.KeptBut allowed t.store

namespace Confined
open Effect

variable {allowed : List Access} {first second : Store}

/-- Evaluating an expression writes nothing, so both runs stay confined. -/
theorem keeps_evaluate {e : Expr} (h : e.accesses ⊆ allowed) :
    Keeps (Confined allowed first second) (evaluate e) :=
  .ofStore fun _ _ hst => Expr.eval_congr (hst.agree.mono h)

/-- What is written where it is allowed to is the same in both, and disturbs nothing else. -/
theorem keeps_setVariable {name : String} (h : .write name ∈ allowed) (value : Value) :
    Keeps (Confined allowed first second) (setVariable name value) := by
  have hkept : ∀ {before after : Store}, before.KeptBut allowed after →
      before.KeptBut allowed (after.set name value) := by
    intro before after hbefore other hother
    have hne : name ≠ other := by
      rintro rfl
      exact hother h
    rw [Store.get?_set, if_neg hne]
    exact hbefore other hother
  apply Keeps.setVariable
  intro s t hst
  refine ⟨hst.output, fun access haccess => ?_, hkept hst.kept_first, hkept hst.kept_second⟩
  rw [Store.get?_set, Store.get?_set, hst.agree access haccess]

/-- Printing writes to the output alone. -/
theorem keeps_emit (line : String) : Keeps (Confined allowed first second) (emit line) := by
  apply Keeps.emit
  intro s t hst
  exact ⟨congrArg (· ++ line) hst.output, hst.agree, hst.kept_first, hst.kept_second⟩

/-- What a statement reads and writes is among the names that it accesses. -/
theorem keeps_perform_statement {statement : Stmt} (h : statement.accesses ⊆ allowed) :
    Keeps (Confined allowed first second) statement.perform := by
  cases statement with
  | expr value span => exact (keeps_evaluate h).bind fun _ => .pure _
  | assign name value span =>
    rw [Stmt.accesses, List.cons_subset] at h
    exact (keeps_evaluate h.2).bind fun v => (keeps_setVariable h.1 v).bind fun _ => .pure _
  | print items terminator span =>
    have hline : Keeps (Confined allowed first second)
        (ofStore fun store => Expr.evalLine store (items ++ [terminator])) :=
      .ofStore fun _ _ hst => Expr.evalLine_congr (hst.agree.mono h)
    exact hline.bind fun line => (keeps_emit line).bind fun _ => .pure _
  | branch condition body alternative span =>
    have hcondition : condition.accesses ⊆ allowed := by
      cases alternative <;> simp only [Stmt.accesses, List.append_subset] at h
      · exact h.1
      · exact h.1.1
    exact (keeps_evaluate hcondition).decide _ _
  | whileLoop condition body span => exact .pure _
  | forLoop start condition step body span => exact .pure _
  | update op name span =>
    simp only [Stmt.accesses, List.cons_subset] at h
    have hnumber : Keeps (Confined allowed first second)
        (ofStore fun store => store.readNumber op name.text) :=
      .ofStore fun _ _ hst => Store.readNumber_congr (hst.agree _ h.1)
    exact hnumber.bind fun x => (keeps_setVariable h.2.1 _).bind fun _ => .pure _

/-- A task does no more than the statement that it is a part of. -/
theorem keeps_perform {task : Task} (h : task.accesses ⊆ allowed) :
    Keeps (Confined allowed first second) task.perform := by
  cases task with
  | run statement => exact keeps_perform_statement h
  | whileRound condition body =>
    rw [Task.accesses, List.append_subset] at h
    exact (keeps_evaluate h.1).decide _ _
  | forRound condition step body =>
    rw [Task.accesses, List.append_subset, List.append_subset] at h
    exact (keeps_evaluate h.1.1).decide _ _

end Confined

/-- **A program keeps to its names.**  It is run from two stores that agree on all names that occur
in it, behind the same output.  Then both runs finish, or both fail with the same error, and they
leave the same output and stores that agree on these names; or both run forever.  However a run
stops, a name that is neither assigned nor updated anywhere in the program holds what it held at the
start, or still nothing. -/
theorem programs_keep_to_their_names {statements : List Stmt} {store store' : Store}
    (h : store.AgreeOn (accessesOf statements) store') (output : String) :
    let first := Machine.start statements ⟨store, output⟩
    let second := Machine.start statements ⟨store', output⟩
    (∃ s t, Confined (accessesOf statements) store store' s t ∧
      first.Ends (.finished s) ∧ second.Ends (.finished t)) ∨
    (∃ e s t, Confined (accessesOf statements) store store' s t ∧
      first.Ends (.failed e s) ∧ second.Ends (.failed e t)) ∨
    (∀ o, ¬ first.Ends o) ∧ ∀ o, ¬ second.Ends o := by
  intro first second
  have hstart : Confined (accessesOf statements) store store' ⟨store, output⟩ ⟨store', output⟩ :=
    ⟨rfl, h, fun _ _ => rfl, fun _ _ => rfl⟩
  refine Machine.ends_paired fun n => ?_
  exact Machine.run_paired_of (P := fun task => task.accesses ⊆ accessesOf statements)
    (fun task htask => Confined.keeps_perform htask)
    (fun task htask s tasks s' hleft later hlater =>
      List.Subset.trans (task.leaves_perform s tasks s' hleft later hlater) htask)
    n (fun task htask => Task.accesses_subset_of_mem htask) hstart

/-- A loop gives a value to a variable that was not there, and leaves alone what it does not
name. -/
theorem programs_keep_to_their_names_loop :
    let program : List Stmt :=
      [.whileLoop (.var ⟨"go", {}⟩ {}) [.assign ⟨"go", {}⟩ (.literal (.text "") {}) {},
        .assign ⟨"x", {}⟩ (.literal (.text "a") {}) {}] {},
      .print [.var ⟨"x", {}⟩ {}] (.literal .none {}) {}]
    ∃ s t,
      (Machine.start program ⟨⟨[("go", .text "on"), ("y", .text "b")]⟩, ""⟩).Ends (.finished s) ∧
      (Machine.start program ⟨⟨[("y", .none), ("go", .text "on")]⟩, ""⟩).Ends (.finished t) ∧
      s.output = "anone" ∧ t.output = "anone" ∧ s.store.get? "y" = some (.text "b") ∧
      t.store.get? "y" = some .none := by
  intro program
  have hagree : Store.AgreeOn (accessesOf program) ⟨[("go", .text "on"), ("y", .text "b")]⟩
      ⟨[("y", .none), ("go", .text "on")]⟩ := by
    show ∀ access ∈ accessesOf program, _
    decide
  have hrun : (Machine.start program ⟨⟨[("go", .text "on"), ("y", .text "b")]⟩, ""⟩).Ends
      (.finished ⟨⟨[("go", .text ""), ("y", .text "b"), ("x", .text "a")]⟩, "anone"⟩) :=
    ⟨.finished _, 7, by rfl⟩
  have hy : .write "y" ∉ accessesOf program := by decide
  rcases programs_keep_to_their_names hagree "" with
    ⟨s, t, h, hs, ht⟩ | ⟨e, s, t, h, hs, ht⟩ | ⟨hnever, -⟩
  · cases hs.unique hrun
    exact ⟨_, t, hs, ht, rfl, h.output.symm, h.kept_first "y" hy, h.kept_second "y" hy⟩
  · cases hs.unique hrun
  · exact absurd hrun (hnever _)

end FlatScript
