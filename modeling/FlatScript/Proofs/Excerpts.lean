/-
# Excerpts of a program

The text under the span of a statement is the statement: read alone, it gives the same tree up to
spans, at whatever depth the statement was found.  So do the start and the step of a `for`, once a
semicolon stands behind them, and the text under a name is the name.

* `excerpts_are_read_alike` : all three, for every part of every source that is read.
-/
import FlatScript.Proofs.Placement

namespace FlatScript

open Grammar

/-- A text whose tokens are a statement is read as that statement alone. -/
theorem Program.parse_of_statement {text : String} {s : Stmt}
    (h : Statement (tokensOf text.toList) s.bare) :
    ∃ t, Program.parse text = .ok [t] ∧ t.bare = s.bare := by
  have hword : Statements (tokensOf text.toList) [s.bare] := by
    rw [← List.append_nil (tokensOf text.toList)]
    exact .cons h .nil
  obtain ⟨p, hp, hbare⟩ := Program.parse_iff.2 hword
  obtain ⟨t, rfl, ht⟩ := List.map_eq_singleton_iff.1 hbare
  exact ⟨t, hp, ht⟩

/-- A semicolon behind a change of a variable makes it a statement. -/
theorem statement_of_change {ts : List Token} {s : Stmt} (h : changeLanguage ts s) :
    Statement (ts ++ [.symbol .semicolon]) s :=
  statement_iff.2 ⟨.change, _, s, _, h, ⟨_, (), [], rfl, ⟨rfl, rfl⟩, rfl⟩, rfl⟩

/-- A change begins with a name. -/
theorem changeLanguage_ne_nil {s : Stmt} : ¬ changeLanguage [] s := by
  intro h
  obtain ⟨_, _, _, hnil⟩ := changeLanguage_iff.1 h
  cases hnil

section
variable {source : String} {last : Lexeme} (hlast : last.token = .endOfInput)
include hlast

/-- The text of a member holds it and nothing else. -/
theorem Part.Sits.parse_member {s : Stmt}
    (h : Part.Sits (Lexeme.all (.ofString source) ++ₛ Stream'.const last) (.member s)) :
    ∃ text, s.span.text? source = some text ∧
      ∃ t, Program.parse text = .ok [t] ∧ t.bare = s.bare := by
  obtain ⟨used, hoccurs, hword, hspan⟩ := h
  have hne : used ≠ [] := by
    rintro rfl
    exact Statement.ne_nil hword
  have hproper : ∀ l ∈ used, l.Proper := fun l hl =>
    Lexeme.proper_iff.2 (hword.proper _ (List.mem_map_of_mem hl))
  obtain ⟨text, htext, htokens⟩ := text?_hull (hoccurs.isInfix hlast hproper hne) hne
  exact ⟨text, hspan ▸ htext, Program.parse_of_statement (htokens ▸ hword)⟩

/-- The text of a clause holds it, with a semicolon behind it. -/
theorem Part.Sits.parse_clause {s : Stmt}
    (h : Part.Sits (Lexeme.all (.ofString source) ++ₛ Stream'.const last) (.clause s)) :
    ∃ text, s.span.text? source = some text ∧
      ∃ t, Program.parse (text ++ ";") = .ok [t] ∧ t.bare = s.bare := by
  obtain ⟨used, next, hoccurs, hnext, hchange, hspan⟩ := h
  have hword := statement_of_change hchange
  have hne : used ≠ [] := by
    rintro rfl
    exact changeLanguage_ne_nil hchange
  have hproper : ∀ l ∈ used ++ [next], l.Proper := by
    refine proper_append (fun l hl => ?_) (List.forall_mem_singleton.2 hnext)
    exact Lexeme.proper_iff.2 (hword.proper _ (List.mem_append_left _ (List.mem_map_of_mem hl)))
  have hinput := hoccurs.isInfix hlast hproper (List.append_ne_nil_of_left_ne_nil hne _)
  obtain ⟨text, htext, htokens⟩ := text?_hull_semicolon hinput hne (List.cons_ne_nil _ _)
  exact ⟨text, hspan ▸ htext, Program.parse_of_statement (htokens ▸ hword)⟩

theorem Part.Sits.text?_eq {x : Name}
    (h : Part.Sits (Lexeme.all (.ofString source) ++ₛ Stream'.const last) (.name x)) :
    x.span.text? source = some x.text := by
  obtain ⟨l, hoccurs, hl, hspan⟩ := h
  have hproper : l.Proper := Lexeme.proper_iff.2 (hl ▸ Token.proper_name x.text)
  have hinput := hoccurs.isInfix hlast (List.forall_mem_singleton.2 hproper) (List.cons_ne_nil _ _)
  exact hspan ▸ text?_name (hinput.subset (List.mem_singleton_self l)) hl

end

/-- **Excerpts.**  In every source that is read, at any depth, the text of a statement is read as
this statement alone, the text of the start or the step of a `for` likewise with a semicolon behind
it, and the text of a name is the name. -/
theorem excerpts_are_read_alike {source : String} {p : Program} (h : Program.parse source = .ok p) :
    (∀ s, .member s ∈ p.parts → ∃ text, s.span.text? source = some text ∧
      ∃ t, Program.parse text = .ok [t] ∧ t.bare = s.bare) ∧
    (∀ s, .clause s ∈ p.parts → ∃ text, s.span.text? source = some text ∧
      ∃ t, Program.parse (text ++ ";") = .ok [t] ∧ t.bare = s.bare) ∧
    ∀ x, .name x ∈ p.parts → x.span.text? source = some x.text := by
  obtain ⟨last, hlast, hsit⟩ := Program.parts_sit h
  exact ⟨fun s hs => (hsit _ hs).parse_member hlast, fun s hs => (hsit _ hs).parse_clause hlast,
    fun x hx => (hsit _ hx).text?_eq hlast⟩

/-- Whether a program is a loop in a branch, and these are the texts of the clauses of the loop and
of what it repeats. -/
def isLoopInBranch (source start step member : String) : Program → Bool
  | [.branch (.var _ _) [.forLoop first _ later [repeated] _] none _] =>
    decide (first.span.text? source = some start ∧ later.span.text? source = some step ∧
      repeated.span.text? source = some member)
  | _ => false

/-- A loop in a block: its clauses, one of which ends with a parenthesis, its body, and the name in
front of it, which takes two bytes. -/
theorem excerpts_are_read_alike_for :
    ∃ x start test step member span span₁ span₂,
      Program.parse "if (é) { for (i = 0; i < 3; i = (i)) { é++; } }" =
        .ok [.branch (.var x span₂) [.forLoop start test step [member] span₁] none span] ∧
      (∃ t, Program.parse ("i = 0" ++ ";") = .ok [t] ∧ t.bare = start.bare) ∧
      (∃ t, Program.parse ("i = (i)" ++ ";") = .ok [t] ∧ t.bare = step.bare) ∧
      (∃ t, Program.parse "é++;" = .ok [t] ∧ t.bare = member.bare) ∧
      x.span.text? "if (é) { for (i = 0; i < 3; i = (i)) { é++; } }" = some x.text := by
  obtain ⟨p, hp, hshape⟩ := Program.exists_of_check
    "if (é) { for (i = 0; i < 3; i = (i)) { é++; } }"
    (isLoopInBranch "if (é) { for (i = 0; i < 3; i = (i)) { é++; } }" "i = 0" "i = (i)" "é++;")
    (by decide +kernel)
  unfold isLoopInBranch at hshape
  split at hshape
  · rename_i x span₂ start test step member span₁ span
    obtain ⟨hstart, hstep, hmember⟩ := of_decide_eq_true hshape
    obtain ⟨hmembers, hclauses, hnames⟩ := excerpts_are_read_alike hp
    simp only [Program.parts, Stmt.partsOf, Stmt.parts, Expr.parts] at hmembers hclauses hnames
    obtain ⟨text₁, htext₁, hparse₁⟩ := hclauses start (by simp)
    obtain ⟨text₂, htext₂, hparse₂⟩ := hclauses step (by simp)
    obtain ⟨text₃, htext₃, hparse₃⟩ := hmembers member (by simp)
    obtain rfl := Option.some.inj (htext₁.symm.trans hstart)
    obtain rfl := Option.some.inj (htext₂.symm.trans hstep)
    obtain rfl := Option.some.inj (htext₃.symm.trans hmember)
    exact ⟨x, start, test, step, member, span, span₁, span₂, hp, hparse₁, hparse₂, hparse₃,
      hnames x (by simp)⟩
  · cases hshape

end FlatScript
