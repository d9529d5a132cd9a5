/-
# The forms of statements are read as the grammar says

Each reader of a form of statement reads the words of that form, given readers of expressions and
of blocks.  A form that ends in an expression, or in an `if` without `else`, needs something of
what stands behind it: no operator, and no `else`.

The words of a form are put together from those of its parts in the order in which they are read;
the lemmas `…Language_iff` say that these are the words that the grammar gives to the form.
-/
import FlatScript.Proofs.ExprReading
import FlatScript.StmtParser

namespace FlatScript

open Grammar

variable {σ : Type} [Feed σ] {w : Window σ} {n : Nat}

/-! ## Parts of statements -/

/-- The tokens that are names. -/
def nameLanguage : Language String := fun ts x => ts = [.name x]

instance : nameLanguage.Inhabited := ⟨[.name ""], "", rfl⟩

/-- A name is one token, and every name would do. -/
theorem reads_name {K : String → Language Unit} [∀ x, (K x).Inhabited] (hw : w.Clear) :
    Reads Name.text (Parser.name : Parser σ Name) w nameLanguage K := by
  unfold Parser.name
  refine Reads.congr (Parser.current_bind_apply _ w) ?_
  split
  · rename_i x hx
    refine Reads.of_single hw (by rw [hx]; exact nofun) (by rw [hx]; rfl) ?_
    rintro _ y k rfl _ hpre
    have ht := (List.cons_prefix_cons.1 hpre).1
    rw [hx, Token.name.injEq] at ht
    subst ht
    exact ⟨by rw [hx], rfl⟩
  · rename_i hx
    refine Reads.of_unexpected hw ?_ ?_
    · rintro _ y k rfl _ hpre
      exact hx y (List.cons_prefix_cons.1 hpre).1
    · intro t ht
      cases ht with
      | name x => exact ⟨nofun, Language.completable_of_word [.name x] [] rfl⟩

/-- The words that change a variable: its name, and what is done to it. -/
def changeLanguage : Language Stmt := nameLanguage.bind Change

instance (x : String) : Language.Inhabited (Change x) :=
  ⟨_, _, .increment⟩

instance : changeLanguage.Inhabited := by
  unfold changeLanguage
  infer_instance

/-- The mark behind a name that makes it an update. -/
def UpdateOp.mark : UpdateOp → Symbol
  | .increment => .plusPlus
  | .decrement => .minusMinus

/-- The mark of an update is a change of the variable by one. -/
theorem Grammar.Change.update (x : String) (op : UpdateOp) :
    Change x [.symbol op.mark] (.update op ⟨x, {}⟩ {}) := by
  cases op with
  | increment => exact .increment
  | decrement => exact .decrement

/-- What begins with such a mark is the mark alone. -/
theorem Grammar.Change.eq_update {x : String} {op : UpdateOp} {ts : List Token} {s : Stmt}
    (h : Change x (.symbol op.mark :: ts) s) : ts = [] ∧ s = .update op ⟨x, {}⟩ {} := by
  cases op <;> cases h <;> exact ⟨rfl, rfl⟩

/-- The mark of an update is all that is read behind the name. -/
theorem reads_update (x : Name) (op : UpdateOp) {K : Stmt → Language Unit}
    [∀ s, (K s).Inhabited] (hw : w.Clear) (ht : w.current.token = .symbol op.mark) (span : Span) :
    Reads (fun make => (make span).bare)
      (Parser.advance >>= fun _ => pure (.update op x) : Parser σ (Span → Stmt)) w
      (Change x.text) K := by
  refine Reads.of_single hw (by rw [ht]; exact nofun) (by rw [ht]; exact .update x.text op) ?_
  intro ts s k hts _ hpre
  cases ts with
  | nil => cases hts
  | cons t ts =>
    obtain rfl := (List.cons_prefix_cons.1 hpre).1
    rw [ht] at hts ⊢
    obtain ⟨rfl, rfl⟩ := hts.eq_update
    exact ⟨rfl, rfl⟩

/-- A change is read up to where its expression ends: no operator may stand behind it. -/
theorem reads_change {expr : Parser σ Expr} (hexpr : ReadsExpressions expr n .lowest)
    {K : Stmt → Language Unit} [∀ s, (K s).Inhabited] (hw : w.Clear) (hn : w.Within n)
    (hstop : ∀ s, (K s).Begins (Stops .lowest)) (span : Span) :
    Reads (fun make => (make span).bare) (Parser.change expr) w changeLanguage K := by
  unfold Parser.change
  refine .bind (reads_name hw) fun target w₁ _ _ h₁ => ?_
  refine Reads.congr (Parser.current_bind_apply _ w₁) ?_
  have hw₁ : w₁.Within n := h₁.within hn
  split
  · rename_i ht
    refine Reads.of_branch
      (P := (Language.token (.symbol .equals)).bind fun _ =>
        Language.bind AnyExpression fun e => .unit (.assign ⟨target.text, {}⟩ e {})) ?_ ?_ ?_
    · rintro _ _ ⟨_, _, _, rfl, ⟨ts, e, _, he, ⟨rfl, rfl⟩, rfl⟩, rfl⟩
      rw [List.append_nil]
      exact .assign he
    · intro ts s k hts _ hpre
      cases hts with
      | assign he =>
        exact ⟨_, (), _, rfl, ⟨_, _, [], he, ⟨rfl, rfl⟩, (List.append_nil _).symm⟩, rfl⟩
      | increment => cases ht.symm.trans (List.cons_prefix_cons.1 hpre).1
      | decrement => cases ht.symm.trans (List.cons_prefix_cons.1 hpre).1
    · refine .bind (reads_advance h₁.clear ht (by decide)) fun _ w₂ _ _ h₂ => ?_
      refine .bind (hexpr w₂ _ h₂.clear (h₂.within hw₁) fun e => ?_)
        fun e w₃ _ _ h₃ => reads_unit h₃.clear rfl
      exact (Language.begins_unit _).bind hstop
  · rename_i ht
    exact reads_update target .increment h₁.clear ht span
  · rename_i ht
    exact reads_update target .decrement h₁.clear ht span
  · rename_i hassign hincrement hdecrement
    refine Reads.of_unexpected h₁.clear ?_ ?_
    · intro ts s k hts _ hpre
      cases hts with
      | assign => exact hassign (List.cons_prefix_cons.1 hpre).1
      | increment => exact hincrement (List.cons_prefix_cons.1 hpre).1
      | decrement => exact hdecrement (List.cons_prefix_cons.1 hpre).1
    · intro t ht
      cases ht with
      | assign =>
        obtain ⟨us, e, he⟩ := Language.Inhabited.exists_word (L := AnyExpression)
        exact ⟨nofun, Language.completable_of_word [_] us (.assign he)⟩
      | increment => exact ⟨nofun, Language.completable_of_word [_] [] .increment⟩
      | decrement => exact ⟨nofun, Language.completable_of_word [_] [] .decrement⟩

/-! ## Printed lines -/

/-- The tokens that are texts. -/
def textLanguage : Language Expr := fun ts e => ∃ s, ts = [.text s] ∧ e = .literal (.text s) {}

instance : textLanguage.Inhabited := ⟨[.text ""], _, "", rfl, rfl⟩

/-- The words of a terminator. -/
def terminatorLanguage : Language Expr :=
  (Language.token (.keyword .terminator)).bind fun _ =>
    (Language.token (.symbol .equals)).bind fun _ => textLanguage

/-- A terminator is its keyword, an equals sign and a text. -/
theorem terminatorLanguage_iff {ts : List Token} {e : Expr} :
    terminatorLanguage ts e ↔
      ∃ s, ts = [.keyword .terminator, .symbol .equals, .text s] ∧ e = .literal (.text s) {} := by
  constructor
  · rintro ⟨_, _, _, rfl, ⟨_, _, _, rfl, ⟨s, rfl, rfl⟩, rfl⟩, rfl⟩
    exact ⟨s, rfl, rfl⟩
  · rintro ⟨s, rfl, rfl⟩
    exact ⟨_, (), _, rfl, ⟨_, (), _, rfl, ⟨s, rfl, rfl⟩, rfl⟩, rfl⟩

/-- A terminator is read up to its text, which is all that is kept of it. -/
theorem reads_terminator {K : Expr → Language Unit} [∀ e, (K e).Inhabited] (hw : w.Clear) :
    Reads Expr.bare (Parser.terminator : Parser σ Expr) w terminatorLanguage K := by
  unfold Parser.terminator Parser.keyword Parser.symbol
  rw [Parser.expect_eq]
  refine .bind (reads_token hw (by decide)) fun _ w₁ _ _ h₁ => ?_
  refine .bind (reads_token h₁.clear (by decide)) fun _ w₂ _ _ h₂ => ?_
  refine Reads.congr (Parser.current_bind_apply _ w₂) ?_
  split
  · rename_i s hs
    refine Reads.of_single h₂.clear (by rw [hs]; exact nofun) ⟨s, by rw [hs], rfl⟩ ?_
    rintro _ _ k ⟨s', rfl, rfl⟩ _ hpre
    have ht := (List.cons_prefix_cons.1 hpre).1
    rw [hs, Token.text.injEq] at ht
    subst ht
    exact ⟨by rw [hs], rfl⟩
  · rename_i hs
    refine Reads.of_unexpected h₂.clear ?_ ?_
    · rintro _ _ k ⟨s', rfl, rfl⟩ _ hpre
      exact hs s' (List.cons_prefix_cons.1 hpre).1
    · intro t ht
      cases ht with
      | text s =>
        exact ⟨nofun, Language.completable_of_word [.text s] [] ⟨s, rfl, rfl⟩⟩

/-- What is read behind the first item of a printed line, without spans. -/
def bareItems (items : List Expr × Option Expr) : List Expr × Option Expr :=
  (items.1.map Expr.bare, items.2.map Expr.bare)

instance : Language.Inhabited Items := ⟨[], _, .stop⟩

/-- Unless nothing follows, a comma stands behind the first item. -/
theorem begins_items : Language.Begins (· = .symbol .comma) Items := by
  intro t ts b h
  generalize hus : t :: ts = us at h
  cases h with
  | stop => cases hus
  | terminator => exact (List.cons.inj hus).1
  | item => exact (List.cons.inj hus).1

/-- The items behind a comma: the terminator, or one more item and those behind it. -/
theorem items_comma_iff {ts : List Token} {b : List Expr × Option Expr} :
    Items (.symbol .comma :: ts) b ↔
      (terminatorLanguage.bind fun e => .unit ([], some e)) ts b ∨
        (Language.bind AnyExpression fun e => Language.bind Items fun r =>
          .unit (e :: r.1, r.2)) ts b := by
  constructor
  · intro h
    cases h with
    | terminator s =>
      exact .inl ⟨_, _, [], terminatorLanguage_iff.2 ⟨s, rfl, rfl⟩, ⟨rfl, rfl⟩, rfl⟩
    | item he hs =>
      exact .inr ⟨_, _, _, he, ⟨_, _, [], hs, ⟨rfl, rfl⟩, (List.append_nil _).symm⟩, rfl⟩
  · rintro (⟨_, _, _, h, ⟨rfl, rfl⟩, rfl⟩ | ⟨us, e, _, he, ⟨vs, r, _, hs, ⟨rfl, rfl⟩, rfl⟩, rfl⟩)
    · obtain ⟨s, rfl, rfl⟩ := terminatorLanguage_iff.1 h
      exact .terminator s
    · rw [List.append_nil]
      exact .item he hs

/-- What may stand behind a comma. -/
def CommaItems : Language (List Expr × Option Expr) := fun ts b => Items (.symbol .comma :: ts) b

instance : CommaItems.Inhabited := ⟨_, _, .terminator ""⟩

/-- A parser reads what is behind the first item up to a closing parenthesis, from all windows
within two bounds: one for the expressions and one for the rounds of the loop. -/
def ReadsItems (p : Parser σ (List Expr × Option Expr)) (n m : Nat) : Prop :=
  ∀ (w : Window σ) (K : List Expr × Option Expr → Language Unit) [∀ b, (K b).Inhabited], w.Clear →
    w.Within n → w.Within m → (∀ b, (K b).Begins (· = .symbol .rightParen)) →
    Reads bareItems p w Items K

section
variable {K : List Expr × Option Expr → Language Unit} [∀ b, (K b).Inhabited]

/-- Behind a comma, the keyword tells the terminator from one more item. -/
theorem reads_ending (hw : w.Clear) (hend : w.current.token = .keyword .terminator) :
    Reads bareItems (Parser.terminator >>= fun e => pure ([], some e) : Parser σ _) w
      CommaItems K := by
  refine Reads.of_branch (fun ts b h => items_comma_iff.2 (.inl h)) ?_
    (.bind (reads_terminator hw) fun e w₁ _ _ h₁ => reads_unit h₁.clear rfl)
  intro ts b k hts _ hpre
  rcases items_comma_iff.1 hts with h | ⟨us, e, vs, he, -, rfl⟩
  · exact h
  · rw [List.append_assoc, hend] at hpre
    rcases he.starts hpre with h | ⟨_, h⟩ <;> cases h

/-- Without this keyword there is one more item, and then those behind it. -/
theorem reads_item {expr : Parser σ Expr} {rest : Parser σ (List Expr × Option Expr)} {m : Nat}
    (hexpr : ReadsExpressions expr n .lowest) (hrest : ReadsItems rest n m) (hw : w.Clear)
    (hn : w.Within n) (hm : w.Within (m + 1)) (hend : w.current.token ≠ .keyword .terminator)
    (hclose : ∀ b, (K b).Begins (· = .symbol .rightParen)) :
    Reads bareItems (expr >>= fun e => rest >>= fun r => pure (e :: r.1, r.2)) w CommaItems K := by
  refine Reads.of_branch (fun ts b h => items_comma_iff.2 (.inr h)) ?_
    (.bind (hexpr w _ hw hn fun e => ?_) fun e w₁ _ _ h₁ =>
      .bind (hrest w₁ _ h₁.clear (h₁.within hn) ?_ fun b => ?_) fun r w₂ _ _ h₂ =>
        reads_unit h₂.clear rfl)
  · intro ts b k hts _ hpre
    rcases items_comma_iff.1 hts with ⟨_, _, _, h, ⟨rfl, rfl⟩, rfl⟩ | h
    · obtain ⟨s, rfl, rfl⟩ := terminatorLanguage_iff.1 h
      exact absurd (List.cons_prefix_cons.1 hpre).1 hend
    · exact h
  · rw [Language.bind_assoc]
    refine (begins_items.mono ?_).bind fun r => (Language.begins_unit _).bind fun b =>
      (hclose b).mono ?_
    · rintro _ rfl
      exact .of_none rfl
    · rintro _ rfl
      exact .of_none rfl
  · exact h₁.within_pred hm fun _ => Expression.ne_nil
  · exact (Language.begins_unit _).bind hclose

end

/-- The items behind the first one are read up to a closing parenthesis. -/
theorem reads_items {expr : Parser σ Expr} (hexpr : ReadsExpressions expr n .lowest) (m : Nat) :
    ReadsItems (Parser.items expr m) n m := by
  induction m with
  | zero => exact fun w _ _ _ _ hm => absurd hm w.not_within_zero
  | succ m ih =>
    intro w K _ hw hn hm hclose
    unfold Parser.items
    simp only [Parser.movedSince_bind]
    refine Reads.congr (Parser.drawn_bind_apply _ w) ?_
    refine Reads.congr (Parser.accept_bind_apply _ _ w) ?_
    split
    · rename_i hcomma
      refine Reads.of_branch (P := (Language.token (.symbol .comma)).bind fun _ => CommaItems)
        ?_ ?_ ?_
      · rintro _ b ⟨_, _, ts, rfl, hts, rfl⟩
        exact hts
      · intro ts b k hts hk hpre
        cases ts with
        | nil =>
          obtain ⟨ws, rfl⟩ := hpre
          cases hcomma.symm.trans (hclose b _ _ _ hk)
        | cons t ts =>
          obtain rfl : t = .symbol .comma :=
            (List.cons_prefix_cons.1 hpre).1.symm.trans hcomma
          exact ⟨[_], (), ts, rfl, hts, rfl⟩
      · refine .bind (reads_advance hw hcomma (by decide)) fun _ w₁ _ _ h₁ => ?_
        refine Reads.congr (Parser.current_bind_apply _ w₁) ?_
        split
        · exact reads_ending h₁.clear ‹_›
        · exact reads_item hexpr ih h₁.clear (h₁.within hn) (h₁.within hm) ‹_› hclose
    · rename_i hcomma
      refine Reads.of_branch ?_ ?_ (reads_unit hw rfl)
      · rintro _ _ ⟨rfl, rfl⟩
        exact .stop
      · intro ts b k hts _ hpre
        cases hts with
        | stop => exact ⟨rfl, rfl⟩
        | _ => exact absurd (List.cons_prefix_cons.1 hpre).1 hcomma

/-- The words of a printed line. -/
def printLanguage : Language Stmt :=
  (Language.token (.keyword .print)).bind fun _ =>
    (Language.token (.symbol .leftParen)).bind fun _ =>
      Language.bind AnyExpression fun e => Language.bind Items fun r =>
        (Language.token (.symbol .rightParen)).bind fun _ =>
          (Language.token (.symbol .semicolon)).bind fun _ =>
            .unit (.print (e :: r.1) (r.2.getD (.literal (.text "\n") {})) {})

/-- The words of a printed line, written out.  Without a terminator it ends with a line feed. -/
theorem printLanguage_iff {ts : List Token} {s : Stmt} :
    printLanguage ts s ↔ ∃ us e vs es ending, AnyExpression us e ∧ Items vs (es, ending) ∧
      ts = [.keyword .print, .symbol .leftParen] ++ us ++ vs
        ++ [.symbol .rightParen, .symbol .semicolon] ∧
      s = .print (e :: es) (ending.getD (.literal (.text "\n") {})) {} := by
  constructor
  · rintro ⟨_, _, _, rfl, ⟨_, _, _, rfl, ⟨us, e, _, he, ⟨vs, ⟨es, ending⟩, _, hs,
      ⟨_, _, _, rfl, ⟨_, _, _, rfl, ⟨rfl, rfl⟩, rfl⟩, rfl⟩, rfl⟩, rfl⟩, rfl⟩, rfl⟩
    exact ⟨us, e, vs, es, ending, he, hs, by simp, rfl⟩
  · rintro ⟨us, e, vs, es, ending, he, hs, rfl, rfl⟩
    refine ⟨_, (), _, rfl, ⟨_, (), _, rfl, ⟨us, e, _, he, ⟨vs, (es, ending), _, hs,
      ⟨_, (), _, rfl, ⟨_, (), _, rfl, ⟨rfl, rfl⟩, rfl⟩, rfl⟩, rfl⟩, rfl⟩, rfl⟩, ?_⟩
    simp

/-- A printed line is read from its keyword to its semicolon.  An item goes on up to a comma or to
the parenthesis, where no operator can follow. -/
theorem reads_printing {expr : Parser σ Expr} (hexpr : ReadsExpressions expr n .lowest)
    {K : Stmt → Language Unit} [∀ s, (K s).Inhabited] (hw : w.Clear) (hn : w.Within n)
    (span : Span) :
    Reads (fun make => (make span).bare) (Parser.printing expr n) w printLanguage K := by
  unfold Parser.printing Parser.keyword Parser.symbol
  rw [Parser.expect_eq]
  refine .bind (reads_token hw (by decide)) fun _ w₁ _ _ h₁ => ?_
  refine .bind (reads_token h₁.clear (by decide)) fun _ w₂ _ _ h₂ => ?_
  have hw₂ : w₂.Within n := h₂.within (h₁.within hn)
  refine .bind (hexpr w₂ _ h₂.clear hw₂ fun e => ?_) fun first w₃ _ _ h₃ => ?_
  · rw [Language.bind_assoc]
    refine (begins_items.mono ?_).bind fun r => ?_
    · rintro _ rfl
      exact .of_none rfl
    · rw [Language.bind_assoc]
      exact Language.begins_token_bind (Stops.of_none rfl)
  have hw₃ : w₃.Within n := h₃.within hw₂
  refine .bind (reads_items hexpr n w₃ _ h₃.clear hw₃ hw₃ fun b => ?_)
    fun r w₄ _ _ h₄ => ?_
  · rw [Language.bind_assoc]
    exact Language.begins_token_bind rfl
  refine .bind (reads_token h₄.clear (by decide)) fun _ w₅ _ _ h₅ => ?_
  refine Reads.congr (Parser.current_bind_apply _ w₅) ?_
  refine .bind (reads_token h₅.clear (by decide)) fun _ w₆ _ _ h₆ =>
    reads_unit h₆.clear ?_
  rcases r with ⟨rest, _ | ending⟩ <;> rfl

/-! ## Statements with blocks -/

/-- A condition is read like a primary expression between parentheses. -/
theorem reads_condition {expr : Parser σ Expr} (hexpr : ReadsExpressions expr n .lowest)
    {K : Expr → Language Unit} [∀ e, (K e).Inhabited] (hw : w.Clear) (hn : w.Within (n + 1)) :
    Reads Expr.bare (Parser.condition expr) w groupLanguage K :=
  reads_group hexpr hw hn

instance : groupLanguage.Inhabited := by
  unfold groupLanguage
  infer_instance

instance : Language.Inhabited Statements := ⟨[], _, .nil⟩

instance : Language.Inhabited Block := ⟨_, _, .braces .nil⟩

instance : Language.Inhabited Alternative := ⟨[], _, .absent⟩

/-- A parser reads blocks, from all windows within a bound. -/
def ReadsBlocks (p : Parser σ (List Stmt)) (n : Nat) : Prop :=
  ∀ (w : Window σ) (K : List Stmt → Language Unit) [∀ b, (K b).Inhabited], w.Clear → w.Within n →
    Reads (List.map Stmt.bare) p w Block K

/-- The words of an `if`. -/
def branchLanguage : Language Stmt :=
  (Language.token (.keyword .conditional)).bind fun _ => groupLanguage.bind fun c =>
    Language.bind Block fun body => Language.bind Alternative fun alternative =>
      .unit (.branch c body alternative {})

/-- The words of a branch, written out, with or without an `else`. -/
theorem branchLanguage_iff {ts : List Token} {s : Stmt} :
    branchLanguage ts s ↔ ∃ us c vs body ws alternative, AnyExpression us c ∧ Block vs body ∧
      Alternative ws alternative ∧
      ts = [.keyword .conditional, .symbol .leftParen] ++ us ++ [.symbol .rightParen] ++ vs ++ ws ∧
      s = .branch c body alternative {} := by
  constructor
  · rintro ⟨_, _, _, rfl, ⟨_, c, _, hc, ⟨vs, body, _, hb, ⟨ws, alternative, _, ha, ⟨rfl, rfl⟩,
      rfl⟩, rfl⟩, rfl⟩, rfl⟩
    obtain ⟨us, he, rfl⟩ := groupLanguage_iff.1 hc
    exact ⟨us, c, vs, body, ws, alternative, he, hb, ha, by simp, rfl⟩
  · rintro ⟨us, c, vs, body, ws, alternative, hc, hb, ha, rfl, rfl⟩
    refine ⟨_, (), _, rfl, ⟨_, c, _, groupLanguage_iff.2 ⟨us, hc, rfl⟩, ⟨vs, body, _, hb,
      ⟨ws, alternative, [], ha, ⟨rfl, rfl⟩, rfl⟩, rfl⟩, rfl⟩, ?_⟩
    simp

/-- An `if` is read as far as it goes: no `else` may stand behind it. -/
theorem reads_branching {expr : Parser σ Expr} {block : Parser σ (List Stmt)}
    (hexpr : ReadsExpressions expr n .lowest) (hblock : ReadsBlocks block n)
    {K : Stmt → Language Unit} [∀ s, (K s).Inhabited] (hw : w.Clear) (hn : w.Within n)
    (helse : ∀ s, (K s).Begins (· ≠ .keyword .otherwise)) (span : Span) :
    Reads (fun make => (make span).bare) (Parser.branching expr block) w branchLanguage K := by
  unfold Parser.branching Parser.keyword
  rw [Parser.expect_eq]
  refine .bind (reads_token hw (by decide)) fun _ w₁ _ _ h₁ => ?_
  have hw₁ : w₁.Within n := h₁.within hn
  refine .bind (reads_condition hexpr h₁.clear hw₁.succ) fun test w₂ _ _ h₂ => ?_
  have hw₂ : w₂.Within n := h₂.within hw₁
  refine .bind (hblock w₂ _ h₂.clear hw₂) fun body w₃ _ _ h₃ => ?_
  have hw₃ : w₃.Within n := h₃.within hw₂
  refine Reads.congr (Parser.accept_bind_apply _ _ w₃) ?_
  split
  · rename_i hother
    refine Reads.of_branch
      (P := (Language.token (.keyword .otherwise)).bind fun _ => Language.bind Block fun b =>
        .unit (.branch test.bare (body.map Stmt.bare) (some b) {})) ?_ ?_ ?_
    · rintro _ _ ⟨_, _, _, rfl, ⟨ts, b, _, hb, ⟨rfl, rfl⟩, rfl⟩, rfl⟩
      refine ⟨_, _, [], .present hb, ⟨rfl, rfl⟩, ?_⟩
      simp
    · rintro _ s k ⟨ts, alternative, _, ha, ⟨rfl, rfl⟩, rfl⟩ hk hpre
      cases ha with
      | absent =>
        -- the `else` would have to stand behind the statement
        obtain ⟨ws, rfl⟩ := hpre
        exact absurd hother (helse _ _ _ _ hk)
      | present hb => exact ⟨_, (), _, rfl, ⟨_, _, [], hb, ⟨rfl, rfl⟩, rfl⟩, rfl⟩
    · refine .bind (reads_advance h₃.clear hother (by decide)) fun _ w₄ _ _ h₄ => ?_
      refine .bind (hblock w₄ _ h₄.clear (h₄.within hw₃)) fun b w₅ _ _ h₅ =>
        reads_unit h₅.clear ?_
      rw [Stmt.bare_branch]
      rfl
  · rename_i hother
    refine Reads.of_branch ?_ ?_ (reads_unit h₃.clear (Stmt.bare_branch ..))
    · rintro _ _ ⟨rfl, rfl⟩
      exact ⟨[], none, [], .absent, ⟨rfl, rfl⟩, rfl⟩
    · rintro _ s k ⟨ts, alternative, _, ha, ⟨rfl, rfl⟩, rfl⟩ hk hpre
      cases ha with
      | absent => exact ⟨rfl, rfl⟩
      | present => exact absurd (List.cons_prefix_cons.1 hpre).1 hother

/-- The words of a `while`. -/
def whileLanguage : Language Stmt :=
  (Language.token (.keyword .whileLoop)).bind fun _ => groupLanguage.bind fun c =>
    Language.bind Block fun body => .unit (.whileLoop c body {})

/-- The words of a `while`, written out. -/
theorem whileLanguage_iff {ts : List Token} {s : Stmt} :
    whileLanguage ts s ↔ ∃ us c vs body, AnyExpression us c ∧ Block vs body ∧
      ts = [.keyword .whileLoop, .symbol .leftParen] ++ us ++ [.symbol .rightParen] ++ vs ∧
      s = .whileLoop c body {} := by
  constructor
  · rintro ⟨_, _, _, rfl, ⟨_, c, _, hc, ⟨vs, body, _, hb, ⟨rfl, rfl⟩, rfl⟩, rfl⟩, rfl⟩
    obtain ⟨us, he, rfl⟩ := groupLanguage_iff.1 hc
    exact ⟨us, c, vs, body, he, hb, by simp, rfl⟩
  · rintro ⟨us, c, vs, body, hc, hb, rfl, rfl⟩
    refine ⟨_, (), _, rfl, ⟨_, c, _, groupLanguage_iff.2 ⟨us, hc, rfl⟩, ⟨vs, body, [], hb,
      ⟨rfl, rfl⟩, rfl⟩, rfl⟩, ?_⟩
    simp

/-- A `while` is read up to the brace that closes its block. -/
theorem reads_whileLooping {expr : Parser σ Expr} {block : Parser σ (List Stmt)}
    (hexpr : ReadsExpressions expr n .lowest) (hblock : ReadsBlocks block n)
    {K : Stmt → Language Unit} [∀ s, (K s).Inhabited] (hw : w.Clear) (hn : w.Within n)
    (span : Span) :
    Reads (fun make => (make span).bare) (Parser.whileLooping expr block) w whileLanguage K := by
  unfold Parser.whileLooping Parser.keyword
  rw [Parser.expect_eq]
  refine .bind (reads_token hw (by decide)) fun _ w₁ _ _ h₁ => ?_
  have hw₁ : w₁.Within n := h₁.within hn
  refine .bind (reads_condition hexpr h₁.clear hw₁.succ) fun test w₂ _ _ h₂ => ?_
  exact .bind (hblock w₂ _ h₂.clear (h₂.within hw₁)) fun body w₃ _ _ h₃ =>
    reads_unit h₃.clear (Stmt.bare_whileLoop ..)

/-- The words of the start of a `for`. -/
def startLanguage : Language Stmt :=
  nameLanguage.bind fun x => (Language.token (.symbol .equals)).bind fun _ =>
    Language.bind AnyExpression fun e => .unit (.assign ⟨x, {}⟩ e {})

instance : startLanguage.Inhabited := by
  unfold startLanguage
  infer_instance

/-- The start of a `for` is read up to where its expression ends: no operator may stand behind
it. -/
theorem reads_forStart {expr : Parser σ Expr} (hexpr : ReadsExpressions expr n .lowest)
    {K : Stmt → Language Unit} [∀ s, (K s).Inhabited] (hw : w.Clear) (hn : w.Within n)
    (hstop : ∀ s, (K s).Begins (Stops .lowest)) (span : Span) :
    Reads (fun make => (make span).bare) (Parser.forStart expr) w startLanguage K := by
  unfold Parser.forStart Parser.symbol
  refine .bind (reads_name hw) fun target w₁ _ _ h₁ => ?_
  refine .bind (reads_token h₁.clear (by decide)) fun _ w₂ _ _ h₂ => ?_
  refine .bind (hexpr w₂ _ h₂.clear (h₂.within (h₁.within hn)) fun e => ?_)
    fun e w₃ _ _ h₃ => reads_unit h₃.clear rfl
  exact (Language.begins_unit _).bind hstop

/-- The words of a `for` behind its start. -/
def loopLanguage (start : Stmt) : Language Stmt :=
  (Language.token (.symbol .semicolon)).bind fun _ => Language.bind AnyExpression fun c =>
    (Language.token (.symbol .semicolon)).bind fun _ => changeLanguage.bind fun step =>
      (Language.token (.symbol .rightParen)).bind fun _ => Language.bind Block fun body =>
        .unit (.forLoop start c step body {})

instance (start : Stmt) : (loopLanguage start).Inhabited := by
  unfold loopLanguage
  infer_instance

/-- The words of a `for`. -/
def forLanguage : Language Stmt :=
  (Language.token (.keyword .forLoop)).bind fun _ =>
    (Language.token (.symbol .leftParen)).bind fun _ => startLanguage.bind loopLanguage

/-- A change is a name with something done to it. -/
theorem changeLanguage_iff {ts : List Token} {s : Stmt} :
    changeLanguage ts s ↔ ∃ x us, Change x us s ∧ ts = .name x :: us := by
  constructor
  · rintro ⟨_, x, us, rfl, h, rfl⟩
    exact ⟨x, us, h, rfl⟩
  · rintro ⟨x, us, h, rfl⟩
    exact ⟨_, x, us, rfl, h, rfl⟩

/-- The start of a `for` is an assignment without a semicolon. -/
theorem startLanguage_iff {ts : List Token} {s : Stmt} :
    startLanguage ts s ↔ ∃ x us e, AnyExpression us e ∧ ts = .name x :: .symbol .equals :: us ∧
      s = .assign ⟨x, {}⟩ e {} := by
  constructor
  · rintro ⟨_, x, _, rfl, ⟨_, _, _, rfl, ⟨us, e, _, he, ⟨rfl, rfl⟩, rfl⟩, rfl⟩, rfl⟩
    exact ⟨x, us, e, he, by simp, rfl⟩
  · rintro ⟨x, us, e, he, rfl, rfl⟩
    exact ⟨_, x, _, rfl, ⟨_, (), _, rfl, ⟨us, e, [], he, ⟨rfl, rfl⟩, (List.append_nil _).symm⟩,
      rfl⟩, rfl⟩

/-- What stands behind the start of a `for`, written out. -/
theorem loopLanguage_iff {start : Stmt} {ts : List Token} {s : Stmt} :
    loopLanguage start ts s ↔ ∃ us c y vs step ws body, AnyExpression us c ∧ Change y vs step ∧
      Block ws body ∧
      ts = .symbol .semicolon :: us ++ [.symbol .semicolon, .name y] ++ vs
        ++ [.symbol .rightParen] ++ ws ∧
      s = .forLoop start c step body {} := by
  constructor
  · rintro ⟨_, _, _, rfl, ⟨us, c, _, hc, ⟨_, _, _, rfl, ⟨_, step, _, hchange, ⟨_, _, _, rfl,
      ⟨ws, body, _, hb, ⟨rfl, rfl⟩, rfl⟩, rfl⟩, rfl⟩, rfl⟩, rfl⟩, rfl⟩
    obtain ⟨y, vs, hp, rfl⟩ := changeLanguage_iff.1 hchange
    exact ⟨us, c, y, vs, step, ws, body, hc, hp, hb, by simp, rfl⟩
  · rintro ⟨us, c, y, vs, step, ws, body, hc, hp, hb, rfl, rfl⟩
    have hchange : changeLanguage (.name y :: vs) step := changeLanguage_iff.2 ⟨y, vs, hp, rfl⟩
    refine ⟨_, (), _, rfl, ⟨us, c, _, hc, ⟨_, (), _, rfl, ⟨_, step, _, hchange, ⟨_, (), _, rfl,
      ⟨ws, body, [], hb, ⟨rfl, rfl⟩, rfl⟩, rfl⟩, rfl⟩, rfl⟩, rfl⟩, ?_⟩
    simp

/-- The words of a `for`, written out. -/
theorem forLanguage_iff {ts : List Token} {s : Stmt} :
    forLanguage ts s ↔ ∃ x us e vs c y ws step xs body, AnyExpression us e ∧ AnyExpression vs c ∧
      Change y ws step ∧ Block xs body ∧
      ts = [.keyword .forLoop, .symbol .leftParen, .name x, .symbol .equals] ++ us
        ++ [.symbol .semicolon] ++ vs ++ [.symbol .semicolon, .name y] ++ ws
        ++ [.symbol .rightParen] ++ xs ∧
      s = .forLoop (.assign ⟨x, {}⟩ e {}) c step body {} := by
  constructor
  · rintro ⟨_, _, _, rfl, ⟨_, _, _, rfl, ⟨_, _, _, hstart, hloop, rfl⟩, rfl⟩, rfl⟩
    obtain ⟨x, us, e, he, rfl, rfl⟩ := startLanguage_iff.1 hstart
    obtain ⟨vs, c, y, ws, step, xs, body, hc, hp, hb, rfl, rfl⟩ := loopLanguage_iff.1 hloop
    exact ⟨x, us, e, vs, c, y, ws, step, xs, body, he, hc, hp, hb, by simp, rfl⟩
  · rintro ⟨x, us, e, vs, c, y, ws, step, xs, body, he, hc, hp, hb, rfl, rfl⟩
    have hstart := startLanguage_iff.2 ⟨x, us, e, he, rfl, rfl⟩
    have hloop := (@loopLanguage_iff (.assign ⟨x, {}⟩ e {}) _ _).2
      ⟨vs, c, y, ws, step, xs, body, hc, hp, hb, rfl, rfl⟩
    refine ⟨_, (), _, rfl, ⟨_, (), _, rfl, ⟨_, _, _, hstart, hloop, rfl⟩, rfl⟩, ?_⟩
    simp

/-- A `for` is read clause by clause: a semicolon or a parenthesis behind each of them ends its
expression. -/
theorem reads_forLooping {expr : Parser σ Expr} {block : Parser σ (List Stmt)}
    (hexpr : ReadsExpressions expr n .lowest) (hblock : ReadsBlocks block n)
    {K : Stmt → Language Unit} [∀ s, (K s).Inhabited] (hw : w.Clear) (hn : w.Within n)
    (span : Span) :
    Reads (fun make => (make span).bare) (Parser.forLooping expr block) w forLanguage K := by
  unfold Parser.forLooping Parser.keyword Parser.symbol
  rw [Parser.expect_eq]
  refine .bind (reads_token hw (by decide)) fun _ w₁ _ _ h₁ => ?_
  refine .bind (reads_token h₁.clear (by decide)) fun _ w₂ _ _ h₂ => ?_
  have hw₂ : w₂.Within n := h₂.within (h₁.within hn)
  refine .bind (Reads.spanned (reads_forStart hexpr h₂.clear hw₂ fun s => ?_))
    fun start w₃ _ _ h₃ => ?_
  · rw [loopLanguage, Language.bind_assoc]
    exact Language.begins_token_bind (Stops.of_none rfl)
  unfold loopLanguage
  refine .bind (reads_token h₃.clear (by decide)) fun _ w₄ _ _ h₄ => ?_
  have hw₄ : w₄.Within n := h₄.within (h₃.within hw₂)
  refine .bind (hexpr w₄ _ h₄.clear hw₄ fun e => ?_) fun test w₅ _ _ h₅ => ?_
  · rw [Language.bind_assoc]
    exact Language.begins_token_bind (Stops.of_none rfl)
  refine .bind (reads_token h₅.clear (by decide)) fun _ w₆ _ _ h₆ => ?_
  have hw₆ : w₆.Within n := h₆.within (h₅.within hw₄)
  refine .bind (Reads.spanned (reads_change hexpr h₆.clear hw₆ fun s => ?_))
    fun step w₇ _ _ h₇ => ?_
  · rw [Language.bind_assoc]
    exact Language.begins_token_bind (Stops.of_none rfl)
  refine .bind (reads_token h₇.clear (by decide)) fun _ w₈ _ _ h₈ => ?_
  exact .bind (hblock w₈ _ h₈.clear (h₈.within (h₇.within hw₆))) fun body w₉ _ _ h₉ =>
    reads_unit h₉.clear (Stmt.bare_forLoop ..)

end FlatScript
