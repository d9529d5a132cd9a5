/-
# Programs are read as the grammar says

* `reads_statement` : the decision between the forms of statements is right for all of them;
* `reads_statements` : the statements up to a closing token are read as the grammar says;
* `reads_program` : the same for a program, which the end of the input closes.

A statement shows in its first token which form it has, except that a name begins both changes of
a variable and expressions; then the second token tells.  So the decision never has to be taken
back, and what it rules out could not have been continued.
-/
import FlatScript.Proofs.StmtReading

namespace FlatScript

open Grammar

variable {σ : Type} [Feed σ] {w : Window σ} {n : Nat}

/-! ## The decision between the forms -/

/-- The forms of statements. -/
inductive Form where
  | print
  | branch
  | whileLoop
  | forLoop
  | change
  | expr

namespace Form

/-- Statements and the semicolon behind them. -/
def terminated (L : Language Stmt) : Language Stmt :=
  L.bind fun s => (Language.token (.symbol .semicolon)).bind fun _ => .unit s

/-- The words of a form. -/
def language : Form → Language Stmt
  | .print => printLanguage
  | .branch => branchLanguage
  | .whileLoop => whileLanguage
  | .forLoop => forLanguage
  | .change => terminated changeLanguage
  | .expr => terminated (Language.bind AnyExpression fun e => .unit (.expr e {}))

/-- What the words of a form begin with. -/
def starts : Form → Token → Prop
  | .print, t => t = .keyword .print
  | .branch, t => t = .keyword .conditional
  | .whileLoop, t => t = .keyword .whileLoop
  | .forLoop, t => t = .keyword .forLoop
  | .change, t => ∃ x, t = .name x
  | .expr, t => StartsExpression t

/-- The form that a token other than a name begins. -/
def ofToken : Token → Form
  | .keyword .print => .print
  | .keyword .conditional => .branch
  | .keyword .whileLoop => .whileLoop
  | .keyword .forLoop => .forLoop
  | _ => .expr

/-- Unless it is a name, the first token tells the form of a statement. -/
theorem eq_ofToken {form : Form} {t : Token} (hname : ∀ x, t ≠ .name x) (h : form.starts t) :
    form = ofToken t := by
  cases form with
  | change =>
    obtain ⟨x, rfl⟩ := h
    exact absurd rfl (hname x)
  | expr =>
    rcases h with rfl | ⟨e, h⟩
    · rfl
    · cases h <;> rfl
  | _ => rw [show t = _ from h]; rfl

/-- The words of a change that is a statement, written out. -/
theorem change_iff {ts : List Token} {s : Stmt} :
    Form.change.language ts s ↔
      ∃ x us, Change x us s ∧ ts = .name x :: us ++ [.symbol .semicolon] := by
  constructor
  · rintro ⟨_, _, _, ⟨_, x, us, rfl, h, rfl⟩, ⟨_, _, _, rfl, ⟨rfl, rfl⟩, rfl⟩, rfl⟩
    exact ⟨x, us, h, rfl⟩
  · rintro ⟨x, us, h, rfl⟩
    exact ⟨_, s, _, ⟨_, x, us, rfl, h, rfl⟩, ⟨_, (), [], rfl, ⟨rfl, rfl⟩, rfl⟩, rfl⟩

/-- The words of an expression that is a statement, written out. -/
theorem expr_iff {ts : List Token} {s : Stmt} :
    Form.expr.language ts s ↔
      ∃ us e, AnyExpression us e ∧ ts = us ++ [.symbol .semicolon] ∧ s = .expr e {} := by
  constructor
  · rintro ⟨_, _, _, ⟨us, e, _, he, ⟨rfl, rfl⟩, rfl⟩, ⟨_, _, _, rfl, ⟨rfl, rfl⟩, rfl⟩, rfl⟩
    exact ⟨us, e, he, by simp, rfl⟩
  · rintro ⟨us, e, he, rfl, rfl⟩
    exact ⟨_, _, _, ⟨us, e, [], he, ⟨rfl, rfl⟩, (List.append_nil _).symm⟩,
      ⟨_, (), [], rfl, ⟨rfl, rfl⟩, rfl⟩, rfl⟩

end Form

/-- Every statement has one of the forms. -/
theorem statement_iff {ts : List Token} {s : Stmt} :
    Statement ts s ↔ ∃ form : Form, form.language ts s := by
  constructor
  · intro h
    cases h with
    | print he hs => exact ⟨.print, printLanguage_iff.2 ⟨_, _, _, _, _, he, hs, rfl, rfl⟩⟩
    | change h => exact ⟨.change, Form.change_iff.2 ⟨_, _, h, rfl⟩⟩
    | expr he => exact ⟨.expr, Form.expr_iff.2 ⟨_, _, he, rfl, rfl⟩⟩
    | branch hc hb ha =>
      exact ⟨.branch, branchLanguage_iff.2 ⟨_, _, _, _, _, _, hc, hb, ha, rfl, rfl⟩⟩
    | whileLoop hc hb => exact ⟨.whileLoop, whileLanguage_iff.2 ⟨_, _, _, _, hc, hb, rfl, rfl⟩⟩
    | forLoop he hc hp hb =>
      exact ⟨.forLoop, forLanguage_iff.2 ⟨_, _, _, _, _, _, _, _, _, _, he, hc, hp, hb, rfl, rfl⟩⟩
  · rintro ⟨form, h⟩
    cases form with
    | print =>
      obtain ⟨_, _, _, _, _, he, hs, rfl, rfl⟩ := printLanguage_iff.1 h
      exact .print he hs
    | branch =>
      obtain ⟨_, _, _, _, _, _, hc, hb, ha, rfl, rfl⟩ := branchLanguage_iff.1 h
      exact .branch hc hb ha
    | whileLoop =>
      obtain ⟨_, _, _, _, hc, hb, rfl, rfl⟩ := whileLanguage_iff.1 h
      exact .whileLoop hc hb
    | forLoop =>
      obtain ⟨_, _, _, _, _, _, _, _, _, _, he, hc, hp, hb, rfl, rfl⟩ := forLanguage_iff.1 h
      exact .forLoop he hc hp hb
    | change =>
      obtain ⟨_, _, hchange, rfl⟩ := Form.change_iff.1 h
      exact .change hchange
    | expr =>
      obtain ⟨_, _, he, rfl, rfl⟩ := Form.expr_iff.1 h
      exact .expr he

/-- A statement shows in its first token which form it has, names apart. -/
theorem Form.starts_of_prefix {form : Form} {t : Token} {ts k : List Token} {s : Stmt}
    (h : form.language ts s) (hpre : [t] <+: ts ++ k) : form.starts t := by
  cases form with
  | print =>
    obtain ⟨_, _, _, _, _, _, _, rfl, _⟩ := printLanguage_iff.1 h
    exact (List.cons_prefix_cons.1 hpre).1
  | branch =>
    obtain ⟨_, _, _, _, _, _, _, _, _, rfl, _⟩ := branchLanguage_iff.1 h
    exact (List.cons_prefix_cons.1 hpre).1
  | whileLoop =>
    obtain ⟨_, _, _, _, _, _, rfl, _⟩ := whileLanguage_iff.1 h
    exact (List.cons_prefix_cons.1 hpre).1
  | forLoop =>
    obtain ⟨_, _, _, _, _, _, _, _, _, _, _, _, _, _, rfl, _⟩ := forLanguage_iff.1 h
    exact (List.cons_prefix_cons.1 hpre).1
  | change =>
    obtain ⟨x, _, _, rfl⟩ := Form.change_iff.1 h
    exact ⟨x, (List.cons_prefix_cons.1 hpre).1⟩
  | expr =>
    obtain ⟨_, _, he, rfl, _⟩ := Form.expr_iff.1 h
    rw [List.append_assoc] at hpre
    exact he.starts hpre

/-- Behind the name of a change stands a sign of what is changed. -/
theorem Form.changes_of_change {t u : Token} {ts k : List Token} {s : Stmt}
    (h : Form.change.language ts s) (hpre : [t, u] <+: ts ++ k) : Parser.changes u = true := by
  obtain ⟨x, us, hchange, rfl⟩ := Form.change_iff.1 h
  have hsecond := (List.cons_prefix_cons.1 hpre).2
  cases hchange <;> rw [(List.cons_prefix_cons.1 hsecond).1] <;> rfl

/-- Behind the name that an expression begins with stands no such sign. -/
theorem Form.changes_of_expr {x : String} {u : Token} {ts k : List Token} {s : Stmt}
    (h : Form.expr.language ts s) (hpre : [.name x, u] <+: ts ++ k) :
    Parser.changes u = false := by
  obtain ⟨us, e, he, rfl, -⟩ := Form.expr_iff.1 h
  match us with
  | [] => exact absurd he Expression.ne_nil
  | [_] =>
    have hsecond := (List.cons_prefix_cons.1 hpre).2
    rw [(List.cons_prefix_cons.1 hsecond).1]
    rfl
  | a :: b :: us =>
    have ha := (List.cons_prefix_cons.1 hpre).1
    have hb := (List.cons_prefix_cons.1 (List.cons_prefix_cons.1 hpre).2).1
    subst ha hb
    obtain ⟨op, rfl⟩ := he.second nofun
    cases op <;> rfl

theorem Form.ne_nil {form : Form} {s : Stmt} : ¬ form.language [] s := by
  intro h
  have hprint : form.starts (.keyword .print) := starts_of_prefix h (k := [_]) (List.prefix_refl _)
  have hname : form.starts (.name "") := starts_of_prefix h (k := [_]) (List.prefix_refl _)
  cases form with
  | change => cases hprint; rename_i h; cases h
  | expr => rcases hprint with h | ⟨_, h⟩ <;> cases h
  | _ => cases hname

/-- No statement is empty. -/
theorem Grammar.Statement.ne_nil {s : Stmt} : ¬ Statement [] s := by
  intro h
  obtain ⟨form, hform⟩ := statement_iff.1 h
  exact Form.ne_nil hform

/-- A name begins changes and expressions alone. -/
theorem Form.of_name {form : Form} {x : String} {u : Token} {ts k : List Token} {s : Stmt}
    (h : form.language ts s) (hpre : [.name x, u] <+: ts ++ k) : form = .change ∨ form = .expr := by
  have hstarts := Form.starts_of_prefix h ((List.prefix_append [_] [_]).trans hpre)
  cases form with
  | change => exact .inl rfl
  | expr => exact .inr rfl
  | _ => cases hstarts

section
variable {α : Type} {view : α → Stmt} {p : Parser σ α} {K : Stmt → Language Unit}

/-- Deciding for a form on the current lexeme, if no other form begins with it. -/
theorem Reads.of_form (form : Form)
    (honly : ∀ form' : Form, form'.starts w.current.token → form' = form)
    (h : Reads view p w form.language K) : Reads view p w Statement K := by
  refine Reads.of_branch (fun ts s h => statement_iff.2 ⟨form, h⟩) ?_ h
  intro ts s k hts _ hpre
  obtain ⟨form', hform⟩ := statement_iff.1 hts
  obtain rfl := honly form' (Form.starts_of_prefix hform hpre)
  exact hform

/-- Deciding for a form on both lexemes of the window, if no other form goes on as they do. -/
theorem Reads.of_form₂ (form : Form)
    (honly : ∀ (form' : Form) (ts k : List Token) (s : Stmt), form'.language ts s →
      [w.current.token, w.next.token] <+: ts ++ k → form' = form)
    (hfit : Completable (form.language.bind K) [w.current.token])
    (h : Reads view p w form.language K) : Reads view p w Statement K := by
  refine Reads.of_branch₂ (fun ts s h => statement_iff.2 ⟨form, h⟩) ?_
    (fun _ => Form.ne_nil) hfit h
  intro ts s k hts _ hpre
  obtain ⟨form', hform⟩ := statement_iff.1 hts
  obtain rfl := honly form' ts k s hform hpre
  exact hform

end

/-- A statement without a block is read up to its semicolon. -/
theorem reads_terminated {body : Parser σ (Span → Stmt)} {L : Language Stmt}
    {K : Stmt → Language Unit} [∀ s, (K s).Inhabited] {span : Span}
    (h : Reads (fun make => (make span).bare) body w L fun s =>
      ((Language.token (.symbol .semicolon)).bind fun _ => Language.unit s).bind K) :
    Reads (fun make => (make span).bare) (Parser.statement.terminated body) w
      (Form.terminated L) K :=
  .bind h fun _ _ _ _ h₁ => .bind (reads_token h₁.clear (by decide)) fun _ _ _ _ h₂ =>
    reads_unit h₂.clear rfl

/-- An expression that is a statement goes on up to the semicolon, where no operator can follow. -/
theorem reads_evaluation {expr : Parser σ Expr} (hexpr : ReadsExpressions expr n .lowest)
    {K : Stmt → Language Unit} [∀ s, (K s).Inhabited] (hw : w.Clear) (hn : w.Within n)
    (span : Span) :
    Reads (fun make => (make span).bare)
      (Parser.statement.terminated (Parser.statement.evaluation expr)) w Form.expr.language K := by
  refine reads_terminated (.bind (hexpr w _ hw hn fun e => ?_) fun _ _ _ _ h₁ =>
    reads_unit h₁.clear rfl)
  refine (Language.begins_unit _).bind fun s => ?_
  rw [Language.bind_assoc]
  exact Language.begins_token_bind (Stops.of_none rfl)

/-- A name begins changes and expressions, and the token behind it tells which. -/
theorem reads_named {expr : Parser σ Expr} (hexpr : ReadsExpressions expr n .lowest) {x : String}
    {K : Stmt → Language Unit} [∀ s, (K s).Inhabited] (hw : w.Clear) (hn : w.Within n)
    (hname : w.current.token = .name x) (span : Span) :
    Reads (fun make => (make span).bare)
      (if Parser.changes w.next.token = true then
          Parser.statement.terminated (Parser.change expr)
        else Parser.statement.terminated (Parser.statement.evaluation expr)) w Statement K := by
  split
  · rename_i hchanges
    refine .of_form₂ .change ?_ ?_ (reads_terminated (reads_change hexpr hw hn (fun s => ?_) span))
    · rw [hname]
      intro form ts k s hform hpre
      rcases Form.of_name hform hpre with rfl | rfl
      · rfl
      · rw [Form.changes_of_expr hform hpre] at hchanges
        cases hchanges
    · rw [hname]
      exact Language.completable_of_word [_] _ (Form.change_iff.2 ⟨x, _, .increment, rfl⟩)
    · rw [Language.bind_assoc]
      exact Language.begins_token_bind (Stops.of_none rfl)
  · rename_i hchanges
    refine .of_form₂ .expr ?_ ?_ (reads_evaluation hexpr hw hn span)
    · rw [hname]
      intro form ts k s hform hpre
      rcases Form.of_name hform hpre with rfl | rfl
      · exact absurd (Form.changes_of_change hform hpre) hchanges
      · rfl
    · rw [hname]
      exact Language.completable_of_word [_] _
        (Form.expr_iff.2 ⟨_, _, (Leaf.variable x).expression .lowest, rfl, rfl⟩)

/-- **Statements.**  Every form is read for what it is. -/
theorem reads_statement {expr : Parser σ Expr} {block : Parser σ (List Stmt)}
    (hexpr : ReadsExpressions expr n .lowest) (hblock : ReadsBlocks block n)
    {K : Stmt → Language Unit} [∀ s, (K s).Inhabited] (hw : w.Clear) (hn : w.Within n)
    (helse : ∀ s, (K s).Begins (· ≠ .keyword .otherwise)) :
    Reads Stmt.bare (Parser.statement expr block n) w Statement K := by
  unfold Parser.statement
  rw [Parser.progressing_eq]
  refine Reads.spanned fun span => ?_
  refine Reads.congr (Parser.current_bind_apply _ w) ?_
  have honly : ∀ {form : Form}, (∀ x, w.current.token ≠ .name x) →
      Form.ofToken w.current.token = form →
      ∀ form' : Form, form'.starts w.current.token → form' = form :=
    fun hname hform form' h => (Form.eq_ofToken hname h).trans hform
  split
  · rename_i ht
    exact .of_form .print (honly (by rw [ht]; exact nofun) (by rw [ht]; rfl))
      (reads_printing hexpr hw hn span)
  · rename_i ht
    exact .of_form .branch (honly (by rw [ht]; exact nofun) (by rw [ht]; rfl))
      (reads_branching hexpr hblock hw hn helse span)
  · rename_i ht
    exact .of_form .whileLoop (honly (by rw [ht]; exact nofun) (by rw [ht]; rfl))
      (reads_whileLooping hexpr hblock hw hn span)
  · rename_i ht
    exact .of_form .forLoop (honly (by rw [ht]; exact nofun) (by rw [ht]; rfl))
      (reads_forLooping hexpr hblock hw hn span)
  · rename_i x ht
    exact Reads.congr (Parser.next_bind_apply _ w) (reads_named hexpr hw hn ht span)
  · rename_i hprint hbranch hwhile hfor hname
    refine .of_form .expr (honly hname ?_) (reads_evaluation hexpr hw hn span)
    unfold Form.ofToken
    split
    · exact absurd ‹_› hprint
    · exact absurd ‹_› hbranch
    · exact absurd ‹_› hwhile
    · exact absurd ‹_› hfor
    · rfl

/-! ## Blocks and programs -/

/-- A parser reads statements up to a closing token, from all windows within a bound. -/
def ReadsStatements (p : Parser σ (List Stmt)) (n : Nat) (closing : Token) : Prop :=
  ∀ (w : Window σ) (K : List Stmt → Language Unit) [∀ b, (K b).Inhabited], w.Clear → w.Within n →
    (∀ b k, K b k () → [closing] <+: k) → Reads (List.map Stmt.bare) p w Statements K

/-- A block is statements between braces. -/
theorem block_eq :
    Block = (Language.token (.symbol .leftBrace)).bind fun _ => Language.bind Statements fun b =>
      (Language.token (.symbol .rightBrace)).bind fun _ => .unit b := by
  funext ts b
  apply propext
  constructor
  · rintro ⟨h⟩
    exact ⟨_, (), _, rfl, ⟨_, b, _, h, ⟨_, (), [], rfl, ⟨rfl, rfl⟩, rfl⟩, rfl⟩, rfl⟩
  · rintro ⟨_, _, _, rfl, ⟨us, _, _, h, ⟨_, _, _, rfl, ⟨rfl, rfl⟩, rfl⟩, rfl⟩, rfl⟩
    exact .braces h

/-- A block is read up to its brace, which is where its statements stop. -/
theorem reads_block {inner : Parser σ (List Stmt)}
    (hinner : ReadsStatements inner n (.symbol .rightBrace)) :
    ReadsBlocks (Parser.block inner) (n + 1) := by
  intro w K _ hw hn
  unfold Parser.block Parser.symbol
  rw [Parser.progressing_eq, Parser.expect_eq, block_eq]
  refine .bind (reads_token hw (by decide)) fun _ w₁ _ _ h₁ => ?_
  have hw₁ : w₁.Within n := h₁.within_pred hn fun _ h => nomatch h
  refine .bind (hinner w₁ _ h₁.clear hw₁ fun b k hk => ?_) fun body w₂ _ _ h₂ => ?_
  · rw [Language.bind_assoc] at hk
    obtain ⟨_, _, ts, rfl, _, rfl⟩ := hk
    exact List.prefix_append _ _
  · refine .bind (reads_token h₂.clear (by decide)) fun _ w₃ _ _ h₃ => ?_
    exact reads_unit h₃.clear rfl

/-- The tokens that no statement begins with: those that close a run of statements, and `else`. -/
inductive Closes : Token → Prop where
  | endOfInput : Closes .endOfInput
  | rightBrace : Closes (.symbol .rightBrace)
  | otherwise : Closes (.keyword .otherwise)

/-- What closes a run of statements begins no statement. -/
theorem Closes.not_starts {t : Token} (h : Closes t) (form : Form) : ¬ form.starts t := by
  intro hstarts
  have hname : ∀ x, t ≠ .name x := by
    rintro x rfl
    cases h
  obtain rfl := Form.eq_ofToken hname hstarts
  cases h <;> rcases hstarts with ht | ⟨e, ht⟩ <;> cases ht

/-- In front of such a token there are no statements. -/
theorem Closes.eq_nil {t : Token} (ht : Closes t) {ts k : List Token} {b : List Stmt}
    (h : Statements ts b) (hpre : [t] <+: ts ++ k) : ts = [] ∧ b = [] := by
  cases h with
  | nil => exact ⟨rfl, rfl⟩
  | cons hs _ =>
    obtain ⟨form, hform⟩ := statement_iff.1 hs
    rw [List.append_assoc] at hpre
    exact absurd (Form.starts_of_prefix hform hpre) (ht.not_starts form)

/-- No statement begins with `else`, so none can be taken for the rest of a branch. -/
theorem begins_statements : Language.Begins (· ≠ .keyword .otherwise) Statements := by
  rintro _ ts b h rfl
  cases (Closes.otherwise.eq_nil h (k := []) (List.prefix_append [_] _)).1

/-- **Runs of statements.**  With a bound greater than the number of lexemes left, the statements
up to a closing token are read as the grammar says. -/
theorem reads_statements (n : Nat) {closing : Token} (hclosing : Closes closing)
    (helse : closing ≠ .keyword .otherwise) :
    ReadsStatements (Parser.statements n closing : Parser σ (List Stmt)) n closing := by
  induction n generalizing closing with
  | zero =>
    intro w K _ _ hn
    exact absurd hn w.not_within_zero
  | succ n ih =>
    intro w K _ hw hn hK
    have hfirst : ∀ {b : List Stmt} {k : List Token}, K b k () → [w.current.token] <+: k →
        w.current.token = closing := by
      intro b k hk hpre
      obtain ⟨ws, rfl⟩ := hpre
      exact (List.cons_prefix_cons.1 (hK b _ hk)).1.symm
    unfold Parser.statements
    simp only [Parser.progressing_eq]
    refine Reads.congr (Parser.current_bind_apply _ w) ?_
    split
    · rename_i ht
      refine Reads.of_branch ?_ ?_ (reads_unit hw rfl)
      · rintro _ _ ⟨rfl, rfl⟩
        exact .nil
      · intro ts b k hts _ hpre
        exact (ht ▸ hclosing : Closes w.current.token).eq_nil hts hpre
    · rename_i ht
      split
      · rename_i hend
        -- A block that is never closed: its brace is missed at the end of the input only.
        refine Reads.of_unexpected hw ?_ ?_
        · intro ts b k hts hk hpre
          obtain ⟨rfl, rfl⟩ := (hend ▸ Closes.endOfInput : Closes w.current.token).eq_nil hts hpre
          exact ht (hfirst hk hpre)
        · rintro _ ⟨⟩
          obtain ⟨k, _, hk⟩ := Language.Inhabited.exists_word (L := K [])
          obtain ⟨ws, rfl⟩ := hK [] k hk
          exact ⟨fun h => ht (hend.trans h.symm), ws, (), [], [], _, .nil, hk, rfl⟩
      · refine Reads.of_branch (P := Language.bind Statement fun s => Language.bind Statements
          fun ss => .unit (s :: ss)) ?_ ?_ ?_
        · rintro _ _ ⟨us, s, _, hs, ⟨vs, ss, _, hss, ⟨rfl, rfl⟩, rfl⟩, rfl⟩
          rw [List.append_nil]
          exact .cons hs hss
        · intro ts b k hts hk hpre
          cases hts with
          | nil => exact absurd (hfirst hk hpre) ht
          | cons hs hss =>
            exact ⟨_, _, _, hs, ⟨_, _, [], hss, ⟨rfl, rfl⟩, (List.append_nil _).symm⟩, rfl⟩
        · refine .bind (reads_statement (reads_expression (n + 1) .lowest)
            (reads_block (ih .rightBrace nofun)) hw hn fun s => ?_) fun first w₁ _ _ h₁ => ?_
          · -- an `if` is always followed by a statement or by what closes the run, never by `else`
            rw [Language.bind_assoc]
            refine begins_statements.bind fun ss => (Language.begins_unit _).bind fun b => ?_
            rintro t ts _ hk rfl
            exact helse (List.cons_prefix_cons.1 (hK b _ hk)).1
          · have hw₁ : w₁.Within n := h₁.within_pred hn fun _ => Statement.ne_nil
            refine .bind (ih hclosing helse w₁ _ h₁.clear hw₁ fun ss k hk => ?_)
              fun rest w₂ _ _ h₂ => reads_unit h₂.clear rfl
            obtain ⟨_, _, vs, ⟨rfl, rfl⟩, hk, rfl⟩ := hk
            exact hK _ _ hk

/-- Statements are read up to the closing token. -/
theorem statements_closing {closing : Token} {b : List Stmt} {w w' : Window σ}
    (h : (Parser.statements n closing : Parser σ (List Stmt)) w = .ok b w') :
    w'.current.token = closing := by
  induction n generalizing w b with
  | zero => cases h
  | succ n ih =>
    unfold Parser.statements at h
    rw [Parser.current_bind_apply] at h
    split at h
    · rename_i ht
      obtain ⟨rfl, rfl⟩ := EStateM.Result.ok.inj h
      exact ht
    · split at h
      · cases h
      · rw [Parser.bind_apply] at h
        split at h
        · rw [Parser.bind_apply] at h
          split at h
          · rename_i hrest
            obtain ⟨-, rfl⟩ := EStateM.Result.ok.inj h
            exact ih hrest
          · cases h
        · cases h

/-- **Programs.** -/
theorem reads_program (n : Nat) (hw : w.Clear) (hn : w.Within n) :
    Reads (List.map Stmt.bare) (Parser.program n : Parser σ Program) w Statements
      fun _ => Language.token .endOfInput :=
  reads_statements n .endOfInput nofun w _ hw hn fun _ _ hk => hk ▸ List.prefix_refl _

end FlatScript
