/-
# Kinds evolve independently of values

Whether an expression has a value, of which kind it is, and which error there is otherwise, depends
on the kinds of the variables and not on what they hold.  So the same can be found by an evaluation
that knows kinds only; and it can go on through statements, as long as none of them has blocks,
since which block is run depends on values.

* `Expr.evalKind`, `Stmt.performKinds`, `runKinds` : evaluating and running on kinds alone;
* `Expr.fault?`, `Expr.postorder` : what fails by itself in an expression, and in which order its
  parts are met;
* `kinds_evolve_alone` : taking kinds first and evaluating on kinds, or evaluating first and taking
  kinds then, is the same.
-/
import FlatScript.Proofs.Ending
import FlatScript.Proofs.LeftSpine
import FlatScript.Proofs.Trace

namespace FlatScript

/-! ## Evaluating on kinds -/

/-- The kinds of the variables that have a value. -/
abbrev Kinds := String → Option Kind

/-- The kinds of what a store holds. -/
def Store.kinds (store : Store) : Kinds := fun name =>
  (store.get? name).map Value.kind

namespace Kinds

/-- Gives a name a kind, whether it had one before or not. -/
def set (kinds : Kinds) (name : String) (kind : Kind) : Kinds := fun other =>
  if name = other then some kind else kinds other

/-- The kind of what a name holds; an error if it was never set. -/
def read (kinds : Kinds) (name : String) : Except RuntimeError Kind :=
  match kinds name with
  | some kind => .ok kind
  | none => .error (.undefinedVariable name)

/-- Whether a name holds a number, for an update of it; an error if it does not. -/
def readNumber (kinds : Kinds) (op : UpdateOp) (name : String) : Except RuntimeError Unit :=
  match kinds name with
  | some .number => .ok ()
  | other => .error (.unsupportedUpdate op name other)

end Kinds

/-- The kind of a constant. -/
def Literal.kind : Literal → Kind
  | .number _ => .number
  | .truth _ => .number
  | .text _ => .text
  | .none => .none

/-- The kind that an operator yields on two kinds. -/
def BinaryOp.applyKinds (op : BinaryOp) (left right : Kind) : Except RuntimeError Kind :=
  match op, left, right with
  | _, .number, .number => .ok .number
  | .equal, .text, .text => .ok .number
  | .notEqual, .text, .text => .ok .number
  | .add, .text, _ => .ok .text
  | .add, _, .text => .ok .text
  | op, left, right => .error (.unsupportedOperands op left right)

namespace Expr

/-- The kind of an expression. -/
def evalKind (kinds : Kinds) : Expr → Except RuntimeError Kind
  | .literal value _ => .ok value.kind
  | .var name _ => kinds.read name.text
  | .binary op left right _ => do op.applyKinds (← left.evalKind kinds) (← right.evalKind kinds)

/-- All expressions of a list have kinds, or there is an error of the first one that has none. -/
def evalKinds (kinds : Kinds) : List Expr → Except RuntimeError Unit
  | [] => .ok ()
  | item :: items => do
    let _ ← item.evalKind kinds
    evalKinds kinds items

/-- The parts of an expression, each behind all of its own parts and the left ones first. -/
def postorder : Expr → List Expr
  | .binary op left right span => left.postorder ++ right.postorder ++ [.binary op left right span]
  | e => [e]

/-- The error of an expression whose parts have no error: of a variable that was never set, or of an
operator on the kinds of its operands. -/
def fault? (kinds : Kinds) : Expr → Option RuntimeError
  | .literal _ _ => none
  | .var name _ =>
    match kinds.read name.text with
    | .error e => some e
    | .ok _ => none
  | .binary op left right _ =>
    match left.evalKind kinds, right.evalKind kinds with
    | .ok a, .ok b =>
      match op.applyKinds a b with
      | .error e => some e
      | .ok _ => none
    | _, _ => none

end Expr

/-! ## Running on kinds -/

/-- Performs a simple statement on kinds.  Other statements change nothing by themselves. -/
def Stmt.performKinds (kinds : Kinds) : Stmt → Except RuntimeError Kinds
  | .expr value _ => do
    let _ ← value.evalKind kinds
    return kinds
  | .assign name value _ => do return kinds.set name.text (← value.evalKind kinds)
  | .print items terminator _ => do
    Expr.evalKinds kinds (items ++ [terminator])
    return kinds
  | .update op name _ => do
    kinds.readNumber op name.text
    return kinds.set name.text .number
  | _ => .ok kinds

/-- What becomes of the kinds of all variables. -/
inductive KindOutcome where
  | finished (kinds : Kinds)
  | failed (error : RuntimeError) (kinds : Kinds)

/-- Runs simple statements on kinds, up to the first one that fails. -/
def runKinds (kinds : Kinds) : List Stmt → KindOutcome
  | [] => .finished kinds
  | statement :: statements =>
    match statement.performKinds kinds with
    | .ok kinds => runKinds kinds statements
    | .error e => .failed e kinds

/-- What a run that has stopped says about kinds. -/
def Machine.Outcome.kinds? : Machine.Outcome → Option KindOutcome
  | .finished state => some (.finished state.store.kinds)
  | .failed e state => some (.failed e state.store.kinds)
  | .unfinished _ => none

/-! ## Kinds of values -/

/-- The kind of a literal is that of its value. -/
theorem Literal.kind_ofLiteral (value : Literal) : (Value.ofLiteral value).kind = value.kind := by
  cases value <;> rfl

/-- Setting a variable sets its kind. -/
theorem Store.kinds_set (store : Store) (name : String) (value : Value) :
    (store.set name value).kinds = store.kinds.set name value.kind := by
  funext other
  rw [Store.kinds, Store.get?_set, Kinds.set]
  split <;> rfl

theorem Store.map_kind_read (store : Store) (name : String) :
    (store.read name).map Value.kind = store.kinds.read name := by
  unfold Store.read Kinds.read Store.kinds
  cases store.get? name <;> rfl

/-- Reading a variable as a number fails for the same kinds. -/
theorem Store.map_readNumber (store : Store) (op : UpdateOp) (name : String) :
    (store.readNumber op name).map (fun _ => ()) = store.kinds.readNumber op name := by
  unfold Store.readNumber Kinds.readNumber Store.kinds
  cases store.get? name with
  | none => rfl
  | some value => cases value <;> rfl

/-- **Operators.**  The kind that an operator yields depends on the kinds of its operands only, and
so does its error. -/
theorem BinaryOp.map_kind_apply (op : BinaryOp) (left right : Value) :
    (op.apply left right).map Value.kind = op.applyKinds left.kind right.kind := by
  have hnumbers : ∀ a b, (op.onNumbers a b).kind = .number := by
    intro a b
    cases op <;> rfl
  cases left with
  | number a =>
    cases right with
    | number b => exact congrArg Except.ok (hnumbers a b)
    | text t => cases op <;> rfl
    | none => cases op <;> rfl
  | text s => cases right <;> cases op <;> rfl
  | none => cases right <;> cases op <;> rfl

namespace Expr

variable (store : Store)

/-- **Expressions.**  The kind of the value is the kind that is found on kinds alone. -/
theorem map_kind_eval (e : Expr) : (e.eval store).map Value.kind = e.evalKind store.kinds := by
  induction e with
  | literal value span => exact congrArg Except.ok value.kind_ofLiteral
  | var name span =>
    rw [eval_var]
    exact store.map_kind_read name.text
  | binary op left right span ihleft ihright =>
    rw [eval_binary, evalKind, ← ihleft, ← ihright]
    cases left.eval store with
    | error e => rfl
    | ok a =>
      cases right.eval store with
      | error e => rfl
      | ok b => exact op.map_kind_apply a b

/-- **Lines.**  What is printed has a text if all items have kinds. -/
theorem map_evalLine (items : List Expr) :
    (evalLine store items).map (fun _ => ()) = evalKinds store.kinds items := by
  induction items with
  | nil => rfl
  | cons item items ih =>
    rw [evalLine, evalKinds, ← item.map_kind_eval, ← ih]
    cases item.eval store with
    | error e => rfl
    | ok value => cases evalLine store items <;> rfl

end Expr

/-! ## The first error -/

namespace Expr

variable {kinds : Kinds}

/-- **The first error.**  Of all parts that fail by themselves, the first one in the order of
evaluation gives the error, and there is none only if no part fails. -/
theorem findSome?_fault? (kinds : Kinds) (e : Expr) :
    e.postorder.findSome? (fault? kinds) =
      match e.evalKind kinds with
      | .error err => some err
      | .ok _ => none := by
  induction e with
  | literal value span => rfl
  | var name span =>
    show [var name span].findSome? (fault? kinds) = _
    rw [List.findSome?_singleton, fault?, evalKind]
  | binary op left right span ihleft ihright =>
    rw [postorder, List.findSome?_append, List.findSome?_append, ihleft, ihright,
      List.findSome?_singleton, fault?, evalKind]
    cases left.evalKind kinds with
    | error err => rfl
    | ok a =>
      cases right.evalKind kinds with
      | error err => rfl
      | ok b => cases h : op.applyKinds a b <;> simp [h, bind, Except.bind]

/-- An expression has no kind exactly if one of its parts is at fault, and the first of these in
postorder is reported. -/
theorem evalKind_eq_error_iff {e : Expr} {err : RuntimeError} :
    e.evalKind kinds = .error err ↔ e.postorder.findSome? (fault? kinds) = some err := by
  rw [findSome?_fault?]
  cases e.evalKind kinds <;> simp

/-- No part is passed over, so an expression that reads a variable without a kind has none. -/
theorem exists_error_of_var {e : Expr} {name : Name} {span : Span}
    (hpart : .var name span ∈ e.postorder) (hname : kinds name.text = none) :
    ∃ err, e.evalKind kinds = .error err := by
  cases h : e.evalKind kinds with
  | error err => exact ⟨err, rfl⟩
  | ok kind =>
    have hnone := findSome?_fault? kinds e
    rw [h] at hnone
    have hvar := List.findSome?_eq_none_iff.1 hnone _ hpart
    rw [fault?, Kinds.read, hname] at hvar
    cases hvar

/-- An expression fails with the same error on values and on kinds. -/
theorem eval_eq_error_iff {store : Store} {e : Expr} {err : RuntimeError} :
    e.eval store = .error err ↔ e.evalKind store.kinds = .error err := by
  rw [← map_kind_eval]
  cases e.eval store <;> simp [Except.map]

end Expr

/-! ## Statements -/

/-- A change of the state that is computed from the store is known on kinds, if the kinds that it
leaves are. -/
theorem Stmt.perform_kinds_of {α : Type} {statement : Stmt} {state : State}
    (compute : Store → Except RuntimeError α) (change : α → State → State)
    (hperform : statement.perform = do modify (change (← Effect.ofStore compute)); return [])
    (hkinds : statement.performKinds state.store.kinds =
      (compute state.store).map fun result => (change result state).store.kinds) :
    (∃ state', statement.perform state = .ok [] state' ∧
      statement.performKinds state.store.kinds = .ok state'.store.kinds) ∨
    ∃ e, statement.perform state = .error e state ∧
      statement.performKinds state.store.kinds = .error e := by
  have happly : statement.perform state = _ :=
    hperform ▸ Effect.ofStore_modify_apply compute change state
  rw [happly, hkinds]
  cases compute state.store with
  | ok result => exact .inl ⟨_, rfl, rfl⟩
  | error e => exact .inr ⟨e, rfl, rfl⟩

/-- **Simple statements.**  What a simple statement does to the kinds of variables is what it does
on kinds alone, and it fails with the same error. -/
theorem Stmt.perform_kinds {statement : Stmt} (h : statement.isSimple) (state : State) :
    (∃ state', statement.perform state = .ok [] state' ∧
      statement.performKinds state.store.kinds = .ok state'.store.kinds) ∨
    ∃ e, statement.perform state = .error e state ∧
      statement.performKinds state.store.kinds = .error e := by
  cases statement with
  | expr value span =>
    apply perform_kinds_of (fun store => value.eval store) (fun _ state => state) rfl
    rw [performKinds, ← value.map_kind_eval]
    cases value.eval state.store <;> rfl
  | assign name value span =>
    apply perform_kinds_of (fun store => value.eval store)
      (fun v state => { state with store := state.store.set name.text v }) rfl
    rw [performKinds, ← value.map_kind_eval]
    cases value.eval state.store with
    | error e => rfl
    | ok v => exact congrArg Except.ok (state.store.kinds_set name.text v).symm
  | print items terminator span =>
    apply perform_kinds_of (fun store => Expr.evalLine store (items ++ [terminator]))
      (fun line state => { state with output := state.output ++ line }) rfl
    rw [performKinds, ← Expr.map_evalLine]
    cases Expr.evalLine state.store (items ++ [terminator]) <;> rfl
  | update op name span =>
    apply perform_kinds_of (fun store => store.readNumber op name.text)
      (fun x state =>
        { state with store := state.store.set name.text (.number (x + op.delta)) }) rfl
    rw [performKinds, ← state.store.map_readNumber]
    cases state.store.readNumber op name.text with
    | error e => rfl
    | ok x =>
      exact congrArg Except.ok (state.store.kinds_set name.text (.number (x + op.delta))).symm
  | branch => cases h
  | whileLoop => cases h
  | forLoop => cases h

/-- **Simple statements one behind the other.**  They come to an end, and what this end says about
kinds is what the run on kinds says. -/
theorem Machine.exists_ends_kinds {statements : List Stmt} (h : ∀ s ∈ statements, s.isSimple)
    (state : State) :
    ∃ o, (start statements state).Ends o ∧
      o.kinds? = some (runKinds state.store.kinds statements) := by
  induction statements generalizing state with
  | nil => exact ⟨.finished state, ends_nil.2 rfl, rfl⟩
  | cons statement statements ih =>
    have hrest : ∀ s ∈ statements, s.isSimple := fun s hs => h s (List.mem_cons_of_mem _ hs)
    rcases Stmt.perform_kinds (h statement List.mem_cons_self) state with
      ⟨state', hperform, hkinds⟩ | ⟨e, hperform, hkinds⟩
    · have hrun : (Task.run statement).perform state = .ok [] state' := hperform
      obtain ⟨o, ho, hsame⟩ := ih hrest state'
      refine ⟨o, (ends_of_ok hrun).2 ho, ?_⟩
      rw [runKinds, hkinds]
      exact hsame
    · have hrun : (Task.run statement).perform state = .error e state := hperform
      refine ⟨.failed e state, (ends_of_error hrun).2 rfl, ?_⟩
      rw [runKinds, hkinds]
      rfl

/-- **Kinds evolve independently of values.**  An expression has a value exactly if it has a kind on
the kinds of the variables, and this is the kind of the value; otherwise both have the error of the
first part that fails by itself, operands in front of their operator and the left one first, and no
part is passed over.  Expression statements, assignments, prints and updates, one behind the other,
come to an end that says about kinds and errors what the run on kinds alone says. -/
theorem kinds_evolve_alone :
    (∀ (store : Store) (e : Expr),
      (e.eval store).map Value.kind = e.evalKind store.kinds ∧
      (∀ err, e.eval store = .error err ↔
        e.postorder.findSome? (Expr.fault? store.kinds) = some err) ∧
      ∀ name span, .var name span ∈ e.postorder → store.get? name.text = none →
        ∃ err, e.eval store = .error err) ∧
    ∀ (statements : List Stmt) (state : State), (∀ s ∈ statements, s.isSimple) →
      ∃ o, (Machine.start statements state).Ends o ∧
        o.kinds? = some (runKinds state.store.kinds statements) := by
  constructor
  · intro store e
    refine ⟨e.map_kind_eval store, fun err => ?_, fun name span hpart hname => ?_⟩
    · rw [Expr.eval_eq_error_iff, Expr.evalKind_eq_error_iff]
    · have hkind : store.kinds name.text = none := congrArg (Option.map Value.kind) hname
      obtain ⟨err, herr⟩ := Expr.exists_error_of_var hpart hkind
      exact ⟨err, Expr.eval_eq_error_iff.2 herr⟩
  · intro statements state hsimple
    exact Machine.exists_ends_kinds hsimple state

/-- A variable that is given a text cannot be updated, whatever the text is. -/
theorem kinds_evolve_alone_update :
    ∃ state, (Machine.start [.assign ⟨"x", {}⟩ (.literal (.text "1") {}) {},
      .update .increment ⟨"x", {}⟩ {}] {}).Ends
        (.failed (.unsupportedUpdate .increment "x" (some .text)) state) := by
  obtain ⟨o, hends, hkinds⟩ := kinds_evolve_alone.2
    [.assign ⟨"x", {}⟩ (.literal (.text "1") {}) {}, .update .increment ⟨"x", {}⟩ {}] {}
    (by decide)
  cases o with
  | finished state => cases hkinds
  | failed e state =>
    have he : e = .unsupportedUpdate .increment "x" (some .text) := by
      injection hkinds with hfailed
      injection hfailed
    exact ⟨state, he ▸ hends⟩
  | unfinished machine => cases hkinds

end FlatScript
