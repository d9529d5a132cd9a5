/-
# Printing is joining

A printed line shows the values of its items, one behind the other.  So does the operator `+` if it
joins the items to the empty text one by one: a text can be joined to a value of any kind, and what
comes of it is a text again.  The items are evaluated in the same order in both cases, so both fail
at the same item.

* `Expr.chain` : the expression that joins some items to the empty text;
* `Printed` : how a line may be printed, or fail, from the values of its items alone;
* `Expr.eval_chain` : the value of a chain is the line that its items give;
* `printing_is_joining` : a line and the chain of its items are printed alike.
-/
import FlatScript.Proofs.Ending
import FlatScript.Proofs.LeftSpine
import FlatScript.Proofs.RunRelocation
import FlatScript.Proofs.Trace
import Mathlib.Data.List.Forall2

namespace FlatScript

/-! ## Chains of items -/

/-- The empty text. -/
def Expr.emptyText : Expr :=
  .literal (.text "") {}

/-- Joins items to an expression, which becomes the leftmost one: `((first + a) + b) + …`. -/
def Expr.joinOnto (first : Expr) (items : List Expr) : Expr :=
  items.foldl (fun left right => .binary .add left right {}) first

/-- The chain of some items, from the empty text on. -/
def Expr.chain (items : List Expr) : Expr :=
  Expr.emptyText.joinOnto items

/-- All items have values in a store. -/
def Expr.HaveValues (store : Store) (items : List Expr) (values : List Value) : Prop :=
  List.Forall₂ (fun item value => item.eval store = .ok value) items values

/-- **Printed lines.**  What may come of printing some items: their values are shown one behind the
other, with nothing between them, behind all that was printed before; or there is the error of the
first item that has no value, and nothing is changed. -/
inductive Printed (state : State) (items : List Expr) : Machine.Outcome → Prop where
  | line {values : List Value} (hvalues : Expr.HaveValues state.store items values) :
      Printed state items
        (.finished { state with output := state.output ++ String.join (values.map Value.display) })
  | error {before behind : List Expr} {item : Expr} {values : List Value} {e : RuntimeError}
      (hitems : items = before ++ item :: behind)
      (hvalues : Expr.HaveValues state.store before values)
      (herror : item.eval state.store = .error e) :
      Printed state items (.failed e state)

/-! ## Lines -/

section
variable {store : Store} {items : List Expr} {values : List Value}

/-- The items of a line have values, or there is a first one that has none. -/
theorem Expr.haveValues_or_error (store : Store) (items : List Expr) :
    (∃ values, HaveValues store items values) ∨
      ∃ before item behind values e, items = before ++ item :: behind ∧
        HaveValues store before values ∧ item.eval store = .error e := by
  induction items with
  | nil => exact .inl ⟨[], .nil⟩
  | cons item items ih =>
    cases hitem : item.eval store with
    | error e => exact .inr ⟨[], item, items, [], e, rfl, .nil, hitem⟩
    | ok value =>
      rcases ih with ⟨values, hvalues⟩ | ⟨before, failing, behind, values, e, rfl, hvalues, herror⟩
      · exact .inl ⟨value :: values, .cons hitem hvalues⟩
      · exact .inr ⟨item :: before, failing, behind, value :: values, e, rfl, .cons hitem hvalues,
          herror⟩

/-- The line of some values shows them one behind the other. -/
theorem Expr.evalLine_of_values (h : HaveValues store items values) :
    evalLine store items = .ok (String.join (values.map Value.display)) := by
  induction h with
  | nil => rfl
  | cons hitem _ ih =>
    rw [evalLine, hitem, ih, List.map_cons, String.join_cons]
    rfl

/-- A line has the error of the first item that has no value. -/
theorem Expr.evalLine_of_error {before behind : List Expr} {item : Expr} {e : RuntimeError}
    (h : HaveValues store before values) (herror : item.eval store = .error e) :
    evalLine store (before ++ item :: behind) = .error e := by
  induction h with
  | nil =>
    rw [List.nil_append, evalLine, herror]
    rfl
  | cons hitem _ ih =>
    rw [List.cons_append, evalLine, hitem, ih]
    rfl

end

/-! ## Values of chains -/

/-- **Joining.**  A text can be joined to any value, and gives a text. -/
theorem BinaryOp.apply_add_text (s : String) (value : Value) :
    add.apply (.text s) value = .ok (.text (s ++ value.display)) := by
  cases value <;> rfl

namespace Expr

variable {store : Store} {first : Expr}

/-- Nothing is joined to an expression that has no value. -/
theorem eval_joinOnto_of_error {e : RuntimeError} (h : first.eval store = .error e)
    (items : List Expr) : (first.joinOnto items).eval store = .error e := by
  induction items generalizing first with
  | nil => exact h
  | cons item items ih =>
    apply ih
    rw [eval_binary, h]
    rfl

/-- What is joined to a text is the line of the items. -/
theorem eval_joinOnto_of_text {s : String} (h : first.eval store = .ok (.text s))
    (items : List Expr) :
    (first.joinOnto items).eval store =
      (evalLine store items).map fun line => .text (s ++ line) := by
  -- The text in front grows by one item at a time, so it is generalized.
  induction items generalizing first s with
  | nil =>
    show first.eval store = .ok (.text (s ++ ""))
    rw [h, String.append_empty]
  | cons item items ih =>
    show ((binary .add first item {}).joinOnto items).eval store = _
    have hsum := eval_binary store .add first item {}
    rw [h] at hsum
    rw [evalLine]
    cases hitem : item.eval store with
    | error e =>
      rw [hitem] at hsum
      rw [eval_joinOnto_of_error hsum]
      rfl
    | ok value =>
      rw [hitem] at hsum
      have htext : (binary .add first item {}).eval store = .ok (.text (s ++ value.display)) :=
        hsum.trans (BinaryOp.apply_add_text s value)
      rw [ih htext]
      cases evalLine store items with
      | error e => rfl
      | ok line =>
        show Except.ok (Value.text (s ++ value.display ++ line)) = _
        rw [String.append_assoc]
        rfl

/-- **Chains.**  The value of a chain is the line that its items give, as a text. -/
theorem eval_chain (store : Store) (items : List Expr) :
    (chain items).eval store = (evalLine store items).map .text := by
  have hchain := eval_joinOnto_of_text (eval_literal store (.text "") {}) items
  simp only [String.empty_append] at hchain
  exact hchain

/-- Expressions that are the same up to their spans have the same value. -/
theorem eval_of_bare_eq {e e' : Expr} (h : e.bare = e'.bare) (store : Store) :
    e.eval store = e'.eval store := by
  rw [← eval_relocate (fun _ => .origin) store e, ← eval_relocate (fun _ => .origin) store e']
  exact congrArg (eval store) h

/-- A chain and the empty text behind it are the line of the items of the chain. -/
theorem evalLine_chain {joined empty : Expr} {items : List Expr}
    (hjoined : joined.bare = (chain items).bare) (hempty : empty.bare = emptyText.bare)
    (store : Store) : evalLine store [joined, empty] = evalLine store items := by
  have hvalue : joined.eval store = (evalLine store items).map .text :=
    (eval_of_bare_eq hjoined store).trans (eval_chain store items)
  have hnothing : empty.eval store = .ok (.text "") := eval_of_bare_eq hempty store
  rw [evalLine, evalLine, evalLine, hvalue, hnothing]
  cases evalLine store items with
  | error e => rfl
  | ok line =>
    show Except.ok (line ++ ("" ++ "")) = Except.ok line
    rw [String.append_empty, String.append_empty]

end Expr

/-! ## Running both -/

namespace Machine

variable {items : List Expr} {terminator : Expr} {state : State}

/-- Printing shows the line of its items behind all that was printed before. -/
theorem ends_print_of_ok {line : String}
    (h : Expr.evalLine state.store (items ++ [terminator]) = .ok line) (span : Span) :
    Ends (start [.print items terminator span] state)
      (.finished { state with output := state.output ++ line }) := by
  have hperform : (Task.run (.print items terminator span)).perform state =
      .ok [] { state with output := state.output ++ line } := by
    refine (Effect.ofStore_modify_apply (fun store => Expr.evalLine store (items ++ [terminator]))
      (fun line state => { state with output := state.output ++ line }) state).trans ?_
    rw [h]
  exact (ends_of_ok hperform).2 (ends_nil.2 rfl)

/-- Printing changes nothing if its items give no line. -/
theorem ends_print_of_error {e : RuntimeError}
    (h : Expr.evalLine state.store (items ++ [terminator]) = .error e) (span : Span) :
    Ends (start [.print items terminator span] state) (.failed e state) := by
  have hperform : (Task.run (.print items terminator span)).perform state = .error e state := by
    refine (Effect.ofStore_modify_apply (fun store => Expr.evalLine store (items ++ [terminator]))
      (fun line state => { state with output := state.output ++ line }) state).trans ?_
    rw [h]
  exact (ends_of_error hperform).2 rfl

end Machine

/-- **Printing is joining.**  Printing some items and a terminator, and printing the chain of all of
them with nothing behind it, come to the same end: with the values of all items and of the
terminator printed in one piece, one behind the other; or, with nothing changed, with the error of
the first of them that has no value. -/
theorem printing_is_joining (items : List Expr) (terminator : Expr) {joined empty : Expr}
    (hjoined : joined.bare = (Expr.chain (items ++ [terminator])).bare)
    (hempty : empty.bare = Expr.emptyText.bare) (span span' : Span) (state : State) :
    ∃ o, Printed state (items ++ [terminator]) o ∧
      (Machine.start [.print items terminator span] state).Ends o ∧
      (Machine.start [.print [joined] empty span'] state).Ends o := by
  have hline : Expr.evalLine state.store ([joined] ++ [empty]) =
      Expr.evalLine state.store (items ++ [terminator]) :=
    Expr.evalLine_chain hjoined hempty state.store
  rcases Expr.haveValues_or_error state.store (items ++ [terminator]) with
    ⟨values, hvalues⟩ | ⟨before, item, behind, values, e, hitems, hvalues, herror⟩
  · have hok := Expr.evalLine_of_values hvalues
    exact ⟨_, .line hvalues, Machine.ends_print_of_ok hok span,
      Machine.ends_print_of_ok (hline.trans hok) span'⟩
  · have hfails : Expr.evalLine state.store (items ++ [terminator]) = .error e := by
      rw [hitems]
      exact Expr.evalLine_of_error hvalues herror
    exact ⟨_, .error hitems hvalues herror, Machine.ends_print_of_error hfails span,
      Machine.ends_print_of_error (hline.trans hfails) span'⟩

/-- A variable that holds a text, `none` and a terminator, at some places of a source: the chain of
all three, at no places at all, prints what the line prints. -/
theorem printing_is_joining_none :
    let x : Expr := .var ⟨"x", ⟨⟨6, 1, 7⟩, ⟨7, 1, 8⟩⟩⟩ ⟨⟨6, 1, 7⟩, ⟨7, 1, 8⟩⟩
    let nothing : Expr := .literal .none ⟨⟨9, 1, 10⟩, ⟨13, 1, 14⟩⟩
    let mark : Expr := .literal (.text "!") ⟨⟨19, 1, 20⟩, ⟨22, 1, 23⟩⟩
    let chain : Expr := .binary .add
      (.binary .add (.binary .add Expr.emptyText (.var ⟨"x", {}⟩ {}) {}) (.literal .none {}) {})
      (.literal (.text "!") {}) {}
    let state : State := ⟨⟨[("x", .text "b")]⟩, "a"⟩
    chain.bare = (Expr.chain ([x, nothing] ++ [mark])).bare ∧
      (Machine.start [.print [x, nothing] mark {}] state).Ends
        (.finished { state with output := "abnone!" }) ∧
      (Machine.start [.print [chain] Expr.emptyText {}] state).Ends
        (.finished { state with output := "abnone!" }) := by
  intro x nothing mark chain state
  have hends : (Machine.start [.print [x, nothing] mark {}] state).Ends
      (.finished { state with output := "abnone!" }) := ⟨.finished _, 2, by rfl⟩
  obtain ⟨o, -, hprinting, hjoining⟩ :=
    @printing_is_joining [x, nothing] mark chain Expr.emptyText rfl rfl {} {} state
  rw [hprinting.unique hends] at hjoining
  exact ⟨rfl, hends, hjoining⟩

end FlatScript
