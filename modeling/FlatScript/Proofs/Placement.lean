/-
# Where the parts of a program stand

Every reader takes a word of what it reads, and lays out over the lexemes of this word the phrases
that it reads: an expression over its tokens, without the parentheses around it, and a statement
over all of its lexemes, whose hull is its span.  So the parts of a tree stand among the lexemes of
the source where their spans say, at any depth, and the spans of a program are nested like its
phrases.

* `Part`, `Stmt.parts` : the parts of a tree that have a text of their own, and `Part.Sits` : such a
  part stands in the input where its span says;
* `Placed` : some lexemes are a word, they lay out phrases, and the parts of what they mean stand
  where their spans say, with one rule for each way in which words are put together;
* `yields_expression_operators`, `yields_statements` : every reader places what it reads;
* `Program.parts_sit` : all parts of a program that was read from a source stand there;
* `spans_are_nested` : all its phrases, at any depth, are well placed.
-/
import FlatScript.Proofs.Phrases

namespace FlatScript

open Grammar

variable {σ : Type} {β γ : Type}

/-! ## Parts of trees -/

/-- A part of a tree that has a text of its own. -/
inductive Part where
  /-- A statement of a program or of a block. -/
  | member (s : Stmt)
  /-- The start or the step of a `for`. -/
  | clause (s : Stmt)
  /-- The name of a variable. -/
  | name (x : Name)

/-- The names in an expression.  A variable has the span of its name as well. -/
def Expr.parts : Expr → List Part
  | .literal _ _ => []
  | .var x span => [.name x, .name ⟨x.text, span⟩]
  | .binary _ left right _ => left.parts ++ right.parts

mutual

/-- The parts of a statement, at any depth. -/
def Stmt.parts : Stmt → List Part
  | .expr value _ => value.parts
  | .assign x value _ => .name x :: value.parts
  | .print items terminator _ => items.flatMap Expr.parts ++ terminator.parts
  | .branch condition body none _ => condition.parts ++ partsOf body
  | .branch condition body (some alternative) _ =>
    condition.parts ++ partsOf body ++ partsOf alternative
  | .whileLoop condition body _ => condition.parts ++ partsOf body
  | .forLoop start condition step body _ =>
    .clause start :: start.parts ++ condition.parts ++ .clause step :: step.parts ++ partsOf body
  | .update _ x _ => [.name x]

/-- Some statements and their parts. -/
def Stmt.partsOf : List Stmt → List Part
  | [] => []
  | s :: ss => .member s :: s.parts ++ partsOf ss

end

/-- The parts of a program: all its statements, clauses and names, at any depth. -/
def Program.parts (p : Program) : List Part :=
  Stmt.partsOf p

/-- The parts of a branch are told in the same way whether there is an `else` or not. -/
theorem Stmt.parts_branch {condition : Expr} {body : List Stmt} {alternative : Option (List Stmt)}
    {span : Span} : (branch condition body alternative span).parts =
      condition.parts ++ (partsOf body ++ alternative.elim [] partsOf) := by
  cases alternative <;> simp [parts]

/-- A part stands in the input where its span says: the lexemes under its span are a statement, a
clause with one more lexeme behind it, or a name. -/
def Part.Sits (input : Stream' Lexeme) : Part → Prop
  | .member s => ∃ used, Occurs input used ∧ Statement (tokens used) s.bare ∧ s.span = hull used
  | .clause s => ∃ used next, Occurs input (used ++ [next]) ∧ next.Proper ∧
      changeLanguage (tokens used) s.bare ∧ s.span = hull used
  | .name x => ∃ l, Occurs input [l] ∧ l.token = .name x.text ∧ l.span = x.span

/-! ## Words and what stands over them -/

/-- Over some lexemes stand parts and phrases: the parts stand in the input where their spans say,
and the lexemes lay out the phrases. -/
structure Holds (ls : List Lexeme) (input : Stream' Lexeme) (parts : List Part)
    (phrases : List Phrase) (used : List Lexeme) : Prop where
  parts : ∀ part ∈ parts, part.Sits input
  lays : Lays ls used phrases

/-- Some lexemes are a word with a meaning, and parts and phrases stand over them. -/
structure Placed (ls : List Lexeme) (input : Stream' Lexeme) (L : Language β) (b : β)
    (parts : List Part) (phrases : List Phrase) (used : List Lexeme) : Prop
    extends Holds ls input parts phrases used where
  word : L (tokens used) b

section
variable {ls used used' : List Lexeme} {input : Stream' Lexeme} {parts parts' : List Part}
  {phrases phrases' : List Phrase} {L : Language β} {b : β} {c : γ}

/-- Nothing has to stand over lexemes. -/
theorem Holds.nil : Holds ls input [] [] used :=
  ⟨List.forall_mem_nil _, .nil⟩

/-- What stands over lexemes one behind the other. -/
theorem Holds.append (h : Holds ls input parts phrases used)
    (h' : Holds ls input parts' phrases' used') :
    Holds ls input (parts ++ parts') (phrases ++ phrases') (used ++ used') :=
  ⟨List.forall_mem_append.2 ⟨h.parts, h'.parts⟩, h.lays.append h'.lays⟩

/-- Tokens in front of what stands there. -/
theorem Holds.skip (h : Holds ls input parts phrases used') :
    Holds ls input parts phrases (used ++ used') :=
  ⟨h.parts, h.lays.skip⟩

namespace Placed

/-- Other words with the same lexemes. -/
theorem mono (h : Placed ls input L b parts phrases used) {M : Language γ}
    (hsub : L (tokens used) b → M (tokens used) c) : Placed ls input M c parts phrases used :=
  ⟨h.toHolds, hsub h.word⟩

/-- The same parts and phrases in another order of putting them together. -/
theorem of_eq (h : Placed ls input L b parts phrases used) (hparts : parts' = parts)
    (hphrases : phrases' = phrases) : Placed ls input L b parts' phrases' used := by
  rwa [hparts, hphrases]

/-- A token in front of a word. -/
theorem token {M : Unit → Language γ} {t : Token} (ht : tokens used = [t])
    (h : Placed ls input (M ()) c parts phrases used') :
    Placed ls input ((Language.token t).bind M) c parts phrases (used ++ used') :=
  ⟨h.skip, _, (), _, ht, h.word, tokens_append ..⟩

/-- A last token, with what stands over it. -/
theorem last {t : Token} (ht : tokens used = [t]) (h : Holds ls input parts phrases used) :
    Placed ls input ((Language.token t).bind fun _ => .unit b) b parts phrases (used ++ []) := by
  rw [List.append_nil]
  exact ⟨h, _, (), [], ht, ⟨rfl, rfl⟩, (List.append_nil _).symm⟩

/-- What stands over two words, one behind the other. -/
theorem bind {M : β → Language γ} (h : Placed ls input L b parts phrases used)
    (h' : Placed ls input (M b) c parts' phrases' used') :
    Placed ls input (L.bind M) c (parts ++ parts') (phrases ++ phrases') (used ++ used') :=
  ⟨h.append h'.toHolds, _, b, _, h.word, h'.word, tokens_append ..⟩

/-- A last word, and what is made of its meaning. -/
theorem map (h : Placed ls input L b parts phrases used) {f : β → γ} :
    Placed ls input (L.bind fun b => .unit (f b)) (f b) parts phrases (used ++ []) := by
  rw [List.append_nil]
  exact ⟨h.toHolds, _, b, [], h.word, ⟨rfl, rfl⟩, (List.append_nil _).symm⟩

end Placed

end

/-! ## Expressions -/

section
variable [Feed σ] {ls : List Lexeme} {input : Stream' Lexeme} {w : Window σ}

/-- A parser yields expressions of a stratum, which are placed. -/
def YieldsExpressions (ls : List Lexeme) (input : Stream' Lexeme) (s : Stratum)
    (p : Parser σ Expr) : Prop :=
  ∀ w, Yields input p w fun used e =>
    Placed ls input (Expression s) e.bare e.parts [.expr e] used

/-- A constant or a variable is placed where its lexeme stands. -/
theorem Placed.leaf {l : Lexeme} {e : Expr} (h : l.leaf? = some e) (hl : Occurs input [l]) :
    Placed ls input (Expression .primary) e.bare e.parts [.expr e] [l] := by
  refine ⟨⟨?_, .leaf h⟩, .leaf (Lexeme.leaf_of_leaf? h)⟩
  unfold Lexeme.leaf? at h
  split at h <;> simp only [Option.some.injEq, reduceCtorEq] at h <;> subst h
  any_goals exact List.forall_mem_nil _
  rename_i x hx
  have hname : Part.Sits input (.name ⟨x, l.span⟩) := ⟨l, hl, hx, rfl⟩
  exact List.forall_mem_cons.2 ⟨hname, List.forall_mem_singleton.2 hname⟩

/-- Parentheses do not belong to the expression between them. -/
theorem yields_condition {inner : Parser σ Expr}
    (hinner : YieldsExpressions ls input Precedence.lowest.above inner) :
    Yields input (Parser.condition inner) w fun used e =>
      Placed ls input groupLanguage e.bare e.parts [.expr e] used := by
  unfold Parser.condition Parser.symbol
  refine yields_consume.bind fun _ w₁ u₁ _ _ h₁ => ?_
  refine (hinner w₁).bind fun e w₂ u₂ _ _ h₂ => ?_
  refine yields_consume.bind fun _ w₃ u₃ _ _ h₃ => yields_pure ?_
  exact ((h₂.bind (.last h₃.1 .nil)).token h₁.1).of_eq (List.append_nil _).symm rfl

/-- A primary expression is a leaf or an expression in parentheses. -/
theorem yields_primary {inner : Parser σ Expr}
    (hinner : YieldsExpressions ls input Precedence.lowest.above inner) :
    YieldsExpressions ls input .primary (Parser.primary inner) := by
  intro w
  unfold Parser.primary
  rw [Parser.progressing_eq]
  refine Yields.congr (Parser.current_bind_apply _ w) ?_
  split
  · rename_i hparen
    refine Yields.congr ?_ ((yields_condition hinner).mono fun u e h =>
      h.mono fun hword => primary_iff.2 (.inr hword))
    unfold Parser.condition Parser.symbol
    rw [Parser.bind_apply, Parser.bind_apply, Parser.consume_apply, if_pos hparen]
  · split
    · rename_i e hleaf
      refine yields_advance.bind fun _ w₁ u₁ _ hoccurs h₁ => yields_pure ?_
      subst h₁
      rw [List.append_nil]
      exact .leaf hleaf hoccurs.left
    · exact yields_unexpected

/-- A parser of operators yields the tails of a left operand, if it begins in front of a token that
the operand ends at.  Given what stands over the lexemes of the operand, the whole expression stands
over these and its own. -/
def YieldsTails (σ : Type) [Feed σ] (ls : List Lexeme) (input : Stream' Lexeme) (n : ℕ) : Prop :=
  ∀ (w : Window σ) (level bound : Precedence) (left : Expr) (front : List Lexeme),
    Stops bound w.current.token → Holds ls input left.parts [.expr left] front →
    Yields input (Parser.operators n level left) w fun used e =>
      Tail level bound left.bare (tokens used) e.bare ∧
        Holds ls input e.parts [.expr e] (front ++ used)

/-- An operator and its right operand are a left operand for what follows. -/
theorem yields_operators_succ {n : ℕ}
    (hexpression : ∀ level : Precedence,
      YieldsExpressions ls input level.above (Parser.expression n level : Parser σ Expr))
    (hoperators : YieldsTails σ ls input n) : YieldsTails σ ls input (n + 1) := by
  intro w level bound left front hbound hleft
  rcases stops_or_tighter level w.current.token with hstop | ⟨op, hop, htight⟩
  · refine Yields.congr (Parser.operators_of_stops hstop) (yields_pure ⟨.stop, ?_⟩)
    rwa [List.append_nil]
  · refine Yields.congr (Parser.operators_of_tighter hop htight) ?_
    rw [Parser.progressing_eq, bind_assoc]
    refine (yields_token (Token.binaryOp?_eq_some_iff.1 hop)).bind fun _ w₁ u₁ _ _ h₁ => ?_
    refine (hexpression op.precedence w₁).bind fun right w₂ u₂ hok _ h₂ => ?_
    have hoperands : Holds ls input (left.parts ++ right.parts) [.expr left, .expr right]
        (front ++ (u₁ ++ u₂)) := hleft.append h₂.skip
    have hboth : Holds ls input (Expr.binary op left right (left.span.union right.span)).parts
        [.expr (.binary op left right (left.span.union right.span))] (front ++ (u₁ ++ u₂)) :=
      ⟨hoperands.parts, hoperands.lays.binary⟩
    refine (hoperators w₂ level op.precedence _ _ (expression_stops hok) hboth).mono
      fun u₃ e h₃ => ⟨?_, ?_⟩
    · rw [tokens_append, tokens_append, h₁, ← List.append_assoc]
      exact .step htight (hbound op hop) h₂.word h₃.1
    · simpa only [List.append_assoc] using h₃.2

/-- An expression is a primary expression with its tail. -/
theorem yields_expression_succ {n : ℕ}
    (hexpression : YieldsExpressions ls input Precedence.lowest.above
      (Parser.expression n .lowest : Parser σ Expr))
    (hoperators : YieldsTails σ ls input n) (level : Precedence) :
    YieldsExpressions ls input level.above (Parser.expression (n + 1) level : Parser σ Expr) := by
  intro w
  unfold Parser.expression
  refine (yields_primary hexpression w).bind fun left w₁ u₁ _ _ h₁ => ?_
  have hbound : Stops .multiplication w₁.current.token := fun op _ => by cases op <;> decide
  refine (hoperators w₁ level .multiplication left u₁ hbound h₁.toHolds).mono
    fun u₂ e h₂ => ⟨h₂.2, ?_⟩
  exact expression_above_iff.2 ⟨_, _, _, h₁.word, h₂.1, tokens_append ..⟩

/-- **Expressions.**  An expression is placed over the lexemes that were taken for it, whatever the
level at which it was read. -/
theorem yields_expression_operators (n : ℕ) :
    (∀ level : Precedence,
      YieldsExpressions ls input level.above (Parser.expression n level : Parser σ Expr)) ∧
      YieldsTails σ ls input n := by
  induction n with
  | zero => exact ⟨fun _ _ => yields_unexpected, fun _ _ _ _ _ _ _ => yields_unexpected⟩
  | succ n ih => exact ⟨yields_expression_succ (ih.1 .lowest) ih.2, yields_operators_succ ih.1 ih.2⟩

/-! ## Simple statements -/

variable (ls) in
/-- A name stands over its lexeme. -/
theorem yields_name :
    Yields input (Parser.name : Parser σ Name) w fun used x =>
      Placed ls input nameLanguage x.text [.name x] [.name x] used := by
  unfold Parser.name
  refine Yields.congr (Parser.current_bind_apply _ w) ?_
  split
  · rename_i x hx
    refine yields_advance.bind fun _ w₁ u₁ _ hoccurs h₁ => yields_pure ?_
    subst h₁
    exact ⟨⟨List.forall_mem_singleton.2 ⟨_, hoccurs.left, hx, rfl⟩, .name hx⟩,
      congrArg (fun t => [t]) hx⟩
  · exact yields_unexpected

variable (ls) in
/-- A terminator has the span of its text, and has no part. -/
theorem yields_terminator :
    Yields input (Parser.terminator : Parser σ Expr) w fun used e =>
      Placed ls input terminatorLanguage e.bare e.parts [.terminator e] used := by
  unfold Parser.terminator Parser.keyword Parser.symbol
  refine yields_consume.bind fun _ w₁ u₁ _ _ h₁ => ?_
  refine yields_consume.bind fun _ w₂ u₂ _ _ h₂ => ?_
  refine Yields.congr (Parser.current_bind_apply _ w₂) ?_
  split
  · rename_i x hx
    refine yields_advance.bind fun _ w₃ u₃ _ _ h₃ => yields_pure ?_
    subst h₃
    exact .token h₁.1 (.token h₂.1 ⟨⟨List.forall_mem_nil _, .text hx⟩, x,
      congrArg (fun t => [t]) hx, rfl⟩)
  · exact yields_unexpected

/-- Some lexemes are a word of a form of statements, and a statement of this form is placed over
them, whatever span it is given. -/
structure PlacedForm (ls : List Lexeme) (input : Stream' Lexeme) (L : Language Stmt)
    (used : List Lexeme) (make : Span → Stmt) : Prop where
  span : ∀ span, (make span).span = span
  placed : ∀ span, Placed ls input L (make span).bare (make span).parts (make span).phrases used

/-- A form may be said less precisely. -/
theorem PlacedForm.mono {L M : Language Stmt} (hsub : ∀ ts s, L ts s → M ts s)
    {used : List Lexeme} {make : Span → Stmt} (h : PlacedForm ls input L used make) :
    PlacedForm ls input M used make :=
  ⟨h.span, fun span => (h.placed span).mono (hsub _ _)⟩

/-- A statement stands over all lexemes that were taken for it, and is given their hull as its
span. -/
theorem Yields.spanned_form {L : Language Stmt} {p : Parser σ (Span → Stmt)}
    (h : Yields input p w (PlacedForm ls input L)) :
    Yields input (Parser.spanned p) w fun used s =>
      s.span = hull used ∧ Placed ls input L s.bare s.parts [.stmt s] used := by
  refine Yields.spanned (h.mono fun used make hform => ?_)
  have hplaced := hform.placed (hull used)
  exact ⟨hplaced.lays.ne_nil (Stmt.phrases_ne_nil _), hform.span _,
    ⟨hplaced.parts, hplaced.lays.stmt (hform.span _)⟩, hplaced.word⟩

/-- The start of a `for` is a change of a variable. -/
theorem change_of_start {ts : List Token} {s : Stmt} (h : startLanguage ts s) :
    changeLanguage ts s := by
  obtain ⟨x, us, e, he, rfl, rfl⟩ := startLanguage_iff.1 h
  exact changeLanguage_iff.2 ⟨x, _, .assign he, rfl⟩

/-- A clause stands where its span says if a symbol stands behind it. -/
theorem Placed.clause {L : Language Stmt} {s : Stmt} {used : List Lexeme} {next : Lexeme}
    {mark : Symbol} (h : Placed ls input L s.bare s.parts [.stmt s] used)
    (hspan : s.span = hull used)
    (hchange : L (tokens used) s.bare → changeLanguage (tokens used) s.bare)
    (hoccurs : Occurs input (used ++ [next])) (hnext : next.token = .symbol mark) :
    Placed ls input L s.bare (.clause s :: s.parts) [.stmt s] used := by
  have hproper : next.Proper := Lexeme.proper_iff.2 (hnext ▸ Token.proper_symbol mark)
  exact ⟨⟨List.forall_mem_cons.2 ⟨⟨used, next, hoccurs, hproper, hchange h.word, hspan⟩, h.parts⟩,
    h.lays⟩, h.word⟩

variable {expr : Parser σ Expr} {block : Parser σ (List Stmt)}
  (hexpr : YieldsExpressions ls input Precedence.lowest.above expr)
include hexpr

/-- A change holds its name, and the expression that is assigned if there is one. -/
theorem yields_change :
    Yields input (Parser.change expr) w (PlacedForm ls input changeLanguage) := by
  unfold Parser.change
  refine (yields_name ls).bind fun x w₁ u₁ _ _ h₁ => ?_
  refine Yields.congr (Parser.current_bind_apply _ w₁) ?_
  have hupdate : ∀ op : UpdateOp, w₁.current.token = .symbol op.mark →
      Yields input (Parser.advance >>= fun _ => pure (.update op x) : Parser σ (Span → Stmt)) w₁
        fun u₂ make => PlacedForm ls input changeLanguage (u₁ ++ u₂) make := by
    intro op ht
    refine (yields_token ht).bind fun _ w₂ u₂ _ _ h₂ => yields_pure ⟨fun _ => rfl, fun _ => ?_⟩
    have hmark : Placed ls input (Change x.text) (.update op ⟨x.text, {}⟩ {}) [] []
        (u₂ ++ []) := by
      refine ⟨.nil, ?_⟩
      rw [List.append_nil, h₂]
      exact .update x.text op
    exact h₁.bind hmark
  split
  · rename_i ht
    refine (yields_token ht).bind fun _ w₂ u₂ _ _ h₂ => ?_
    refine (hexpr w₂).bind fun e w₃ u₃ _ _ h₃ => yields_pure ⟨fun _ => rfl, fun _ => ?_⟩
    have hassign : Placed ls input (Change x.text) (.assign ⟨x.text, {}⟩ e.bare {}) e.parts
        [.expr e] (u₂ ++ (u₃ ++ [])) := by
      rw [List.append_nil]
      refine ⟨h₃.skip, ?_⟩
      rw [tokens_append, h₂]
      exact .assign h₃.word
    exact h₁.bind hassign
  · exact hupdate .increment ‹_›
  · exact hupdate .decrement ‹_›
  · exact yields_unexpected

/-- The parts of what is read behind the first item of a printed line. -/
def itemParts (items : List Expr × Option Expr) : List Part :=
  items.1.flatMap Expr.parts ++ items.2.elim [] Expr.parts

/-- The phrases that are read behind the first item of a printed line. -/
def itemPhrases (items : List Expr × Option Expr) : List Phrase :=
  items.1.map .expr ++ items.2.toList.map .terminator

/-- A round holds the item or the terminator behind its comma, and what the other rounds hold. -/
theorem yields_items (m : ℕ) :
    Yields input (Parser.items expr m) w fun used r =>
      Placed ls input Items (bareItems r) (itemParts r) (itemPhrases r) used := by
  induction m generalizing w with
  | zero => exact yields_unexpected
  | succ m ih =>
    unfold Parser.items
    simp only [Parser.movedSince_bind]
    refine Yields.congr (Parser.drawn_bind_apply _ w) ?_
    refine Yields.congr (Parser.accept_bind_apply _ _ w) ?_
    split
    · rename_i hcomma
      refine (yields_token hcomma).bind fun _ w₁ u₁ _ _ h₁ => ?_
      -- A comma in front makes words of the items that stand behind it.
      have hitems : ∀ {M : Language (List Expr × Option Expr)} {r : List Expr × Option Expr}
          {us : List Lexeme}, (M (tokens us) (bareItems r) →
            Items (.symbol .comma :: tokens us) (bareItems r)) →
          Placed ls input M (bareItems r) (itemParts r) (itemPhrases r) us →
          Placed ls input Items (bareItems r) (itemParts r) (itemPhrases r) (u₁ ++ us) := by
        intro M r us hM h
        refine ⟨h.skip, ?_⟩
        rw [tokens_append, h₁]
        exact hM h.word
      refine Yields.congr (Parser.current_bind_apply _ w₁) ?_
      split
      · refine (yields_terminator ls).bind fun e w₂ u₂ _ _ h₂ => yields_pure ?_
        exact hitems (fun h => items_comma_iff.2 (.inl h)) h₂.map
      · refine (hexpr w₁).bind fun e w₂ u₂ _ _ h₂ => ?_
        refine ih.bind fun r w₃ u₃ _ _ h₃ => yields_pure ?_
        refine hitems (fun h => items_comma_iff.2 (.inr h)) ((h₂.bind h₃.map).of_eq ?_ rfl)
        unfold itemParts
        rw [List.flatMap_cons, List.append_assoc]
    · exact yields_pure ⟨.nil, .stop⟩

/-- A printed line ends with the terminator that is given, or else at its semicolon. -/
theorem yields_printing (n : ℕ) :
    Yields input (Parser.printing expr n) w (PlacedForm ls input printLanguage) := by
  unfold Parser.printing Parser.keyword Parser.symbol
  refine yields_consume.bind fun _ w₁ u₁ _ _ h₁ => ?_
  refine yields_consume.bind fun _ w₂ u₂ _ _ h₂ => ?_
  refine (hexpr w₂).bind fun first w₃ u₃ _ _ h₃ => ?_
  refine (yields_items hexpr n).bind fun r w₄ u₄ _ _ h₄ => ?_
  refine yields_consume.bind fun _ w₅ u₅ _ _ h₅ => ?_
  refine Yields.congr (Parser.current_bind_apply _ w₅) ?_
  refine yields_consume_current.bind fun _ w₆ u₆ _ _ h₆ => yields_pure ⟨fun _ => rfl, fun _ => ?_⟩
  obtain ⟨rfl, hsemicolon⟩ := h₆
  have hmark : tokens [w₅.current] = [.symbol .semicolon] := congrArg (fun t => [t]) hsemicolon
  rcases r with ⟨rest, _ | ending⟩
  · have hend : Holds ls input [] [.terminator (.literal (.text "\n") w₅.current.span)]
        [w₅.current] := ⟨List.forall_mem_nil _, .semicolon hsemicolon⟩
    exact ((h₃.bind (h₄.bind (.token h₅.1 (.last hmark hend)))).token h₂.1).token h₁.1 |>.of_eq
      (by simp [itemParts, Stmt.parts, Expr.parts]) (by simp [itemPhrases, Stmt.phrases])
  · exact ((h₃.bind (h₄.bind (.token h₅.1 (.last hmark .nil)))).token h₂.1).token h₁.1 |>.of_eq
      (by simp [itemParts, Stmt.parts]) (by simp [itemPhrases, Stmt.phrases])

/-- The start of a `for` holds its name and the expression that is assigned. -/
theorem yields_forStart :
    Yields input (Parser.forStart expr) w (PlacedForm ls input startLanguage) := by
  unfold Parser.forStart Parser.symbol
  refine (yields_name ls).bind fun x w₁ u₁ _ _ h₁ => ?_
  refine yields_consume.bind fun _ w₂ u₂ _ _ h₂ => ?_
  exact (hexpr w₂).bind fun e w₃ u₃ _ _ h₃ => yields_pure
    ⟨fun _ => rfl, fun _ => h₁.bind (h₃.map.token h₂.1)⟩

/-! ## Statements with blocks -/

variable (hblock : ∀ w, Yields input block w fun used b =>
  Placed ls input Block (b.map Stmt.bare) (Stmt.partsOf b) (b.map .stmt) used)
include hblock

/-- A branch holds its condition and one block or two. -/
theorem yields_branching :
    Yields input (Parser.branching expr block) w (PlacedForm ls input branchLanguage) := by
  unfold Parser.branching Parser.keyword
  refine yields_consume.bind fun _ w₁ u₁ _ _ h₁ => ?_
  refine (yields_condition hexpr).bind fun test w₂ u₂ _ _ h₂ => ?_
  refine (hblock w₂).bind fun body w₃ u₃ _ _ h₃ => ?_
  have hbranch : ∀ (alternative : Option (List Stmt)) (u₄ : List Lexeme),
      Placed ls input Alternative (alternative.map (List.map Stmt.bare))
        (alternative.elim [] Stmt.partsOf) ((alternative.getD []).map .stmt) u₄ →
      PlacedForm ls input branchLanguage (u₁ ++ (u₂ ++ (u₃ ++ (u₄ ++ []))))
        (.branch test body alternative) := by
    refine fun alternative u₄ h => ⟨fun _ => rfl, fun span => ?_⟩
    rw [Stmt.bare_branch]
    exact ((h₂.bind (h₃.bind h.map)).token h₁.1).of_eq Stmt.parts_branch rfl
  refine Yields.congr (Parser.accept_bind_apply _ _ w₃) ?_
  split
  · rename_i hother
    refine (yields_token hother).bind fun _ w₄ u₄ _ _ h₄ => ?_
    refine (hblock w₄).bind fun alternative w₅ u₅ _ _ h₅ => yields_pure ?_
    rw [← List.append_assoc u₄]
    refine hbranch _ _ ⟨h₅.skip, ?_⟩
    rw [tokens_append, h₄]
    exact .present h₅.word
  · exact yields_pure (hbranch none [] ⟨.nil, .absent⟩)

/-- A `while` holds its condition and its block. -/
theorem yields_whileLooping :
    Yields input (Parser.whileLooping expr block) w (PlacedForm ls input whileLanguage) := by
  unfold Parser.whileLooping Parser.keyword
  refine yields_consume.bind fun _ w₁ u₁ _ _ h₁ => ?_
  refine (yields_condition hexpr).bind fun test w₂ u₂ _ _ h₂ => ?_
  refine (hblock w₂).bind fun body w₃ u₃ _ _ h₃ => yields_pure ⟨fun _ => rfl, fun _ => ?_⟩
  rw [Stmt.bare_whileLoop]
  exact (h₂.bind h₃.map).token h₁.1

/-- Behind both clauses of a `for` that are statements stands a symbol. -/
theorem yields_forLooping :
    Yields input (Parser.forLooping expr block) w (PlacedForm ls input forLanguage) := by
  unfold Parser.forLooping Parser.keyword Parser.symbol
  refine yields_consume.bind fun _ w₁ u₁ _ _ h₁ => ?_
  refine yields_consume.bind fun _ w₂ u₂ _ _ h₂ => ?_
  refine (yields_forStart hexpr).spanned_form.bind fun start w₃ u₃ _ hstart h₃ => ?_
  refine yields_consume.bind fun _ w₄ u₄ _ _ h₄ => ?_
  refine (hexpr w₄).bind fun test w₅ u₅ _ _ h₅ => ?_
  refine yields_consume.bind fun _ w₆ u₆ _ _ h₆ => ?_
  refine (yields_change hexpr).spanned_form.bind fun step w₇ u₇ _ hstep h₇ => ?_
  refine yields_consume.bind fun _ w₈ u₈ _ _ h₈ => ?_
  refine (hblock w₈).bind fun body w₉ u₉ _ _ h₉ => yields_pure ⟨fun _ => rfl, fun _ => ?_⟩
  have hstart := h₃.2.clause h₃.1 change_of_start hstart h₄.2
  have hstep := h₇.2.clause h₇.1 id hstep h₈.2
  rw [Stmt.bare_forLoop]
  exact ((hstart.bind ((h₅.bind ((hstep.bind (h₉.map.token h₈.1)).token h₆.1)).token h₄.1)).token
    h₂.1).token h₁.1 |>.of_eq (by simp [Stmt.parts]) rfl

/-! ## Statements and blocks -/

omit hexpr hblock in
/-- The semicolon behind a statement belongs to it, but nothing stands over it. -/
theorem yields_terminated {L : Language Stmt} {body : Parser σ (Span → Stmt)}
    (h : Yields input body w (PlacedForm ls input L)) :
    Yields input (Parser.statement.terminated body) w (PlacedForm ls input (Form.terminated L)) :=
  h.bind fun _ _ _ _ _ h₁ => yields_consume.bind fun _ _ _ _ _ h₂ => yields_pure
    ⟨h₁.span, fun span => ((h₁.placed span).bind (.last h₂.1 .nil)).of_eq
      (List.append_nil _).symm (List.append_nil _).symm⟩

omit hblock in
theorem yields_evaluation :
    Yields input (Parser.statement.evaluation expr) w
      (PlacedForm ls input (Language.bind AnyExpression fun e => .unit (.expr e {}))) :=
  (hexpr w).bind fun _ _ _ _ _ h₁ => yields_pure ⟨fun _ => rfl, fun _ => h₁.map⟩

/-- **Statements.**  A statement is placed over all lexemes that were taken for it, and its span is
their hull. -/
theorem yields_statement (n : ℕ) :
    Yields input (Parser.statement expr block n) w fun used s =>
      s.span = hull used ∧ Placed ls input Statement s.bare s.parts [.stmt s] used := by
  unfold Parser.statement
  rw [Parser.progressing_eq]
  refine Yields.spanned_form ?_
  have hform : ∀ (form : Form) {p : Parser σ (Span → Stmt)},
      Yields input p w (PlacedForm ls input form.language) →
      Yields input p w (PlacedForm ls input Statement) := fun form p h =>
    h.mono fun used make => PlacedForm.mono fun ts s hword => statement_iff.2 ⟨form, hword⟩
  refine Yields.congr (Parser.current_bind_apply _ w) ?_
  split
  · exact hform .print (yields_printing hexpr n)
  · exact hform .branch (yields_branching hexpr hblock)
  · exact hform .whileLoop (yields_whileLooping hexpr hblock)
  · exact hform .forLoop (yields_forLooping hexpr hblock)
  · refine Yields.congr (Parser.next_bind_apply _ w) ?_
    split
    · exact hform .change (yields_terminated (yields_change hexpr))
    · exact hform .expr (yields_terminated (yields_evaluation hexpr))
  · exact hform .expr (yields_terminated (yields_evaluation hexpr))

omit hexpr hblock in
/-- A block holds what stands between its braces. -/
theorem yields_block {inner : Parser σ (List Stmt)}
    (hinner : ∀ w, Yields input inner w fun used b =>
      Placed ls input Statements (b.map Stmt.bare) (Stmt.partsOf b) (b.map .stmt) used) :
    Yields input (Parser.block inner) w fun used b =>
      Placed ls input Block (b.map Stmt.bare) (Stmt.partsOf b) (b.map .stmt) used := by
  unfold Parser.block Parser.symbol
  rw [Parser.progressing_eq]
  refine yields_consume.bind fun _ w₁ u₁ _ _ h₁ => ?_
  refine (hinner w₁).bind fun body w₂ u₂ _ _ h₂ => ?_
  refine yields_consume.bind fun _ w₃ u₃ _ _ h₃ => yields_pure ?_
  rw [block_eq]
  exact ((h₂.bind (.last h₃.1 .nil)).token h₁.1).of_eq (List.append_nil _).symm
    (List.append_nil _).symm

omit hexpr hblock in
/-- **Runs of statements.**  They are placed one behind the other, each of them as a member. -/
theorem yields_statements (n : ℕ) (closing : Token) :
    Yields input (Parser.statements n closing : Parser σ (List Stmt)) w fun used b =>
      Placed ls input Statements (b.map Stmt.bare) (Stmt.partsOf b) (b.map .stmt) used := by
  induction n generalizing closing w with
  | zero => exact yields_unexpected
  | succ n ih =>
    unfold Parser.statements
    refine Yields.congr (Parser.current_bind_apply _ w) ?_
    split
    · exact yields_pure ⟨.nil, .nil⟩
    · split
      · exact yields_unexpected
      · dsimp only
        rw [Parser.progressing_eq]
        refine (yields_statement ((yields_expression_operators (n + 1)).1 .lowest)
          (fun _ => yields_block fun _ => ih _) (n + 1)).bind fun s w₁ u₁ _ hoccurs h₁ => ?_
        refine (ih closing).bind fun ss w₂ u₂ _ _ h₂ => yields_pure ?_
        have hmember : Part.Sits input (.member s) := ⟨u₁, hoccurs.left, h₁.2.word, h₁.1⟩
        have hfirst : Holds ls input (.member s :: s.parts) [.stmt s] u₁ :=
          ⟨List.forall_mem_cons.2 ⟨hmember, h₁.2.parts⟩, h₁.2.lays⟩
        rw [List.append_nil]
        refine ⟨hfirst.append h₂.toHolds, ?_⟩
        rw [tokens_append]
        exact .cons h₁.2.word h₂.word

end

/-! ## Programs -/

/-- A program that is read from a source is placed over lexemes that stand in front of it. -/
theorem Program.placed {source : String} {p : Program} (h : Program.parse source = .ok p) :
    ∃ used behind, Feed.stream (Cursor.ofString source) = used ++ₛ behind ∧
      Placed (Lexeme.all (.ofString source)) (Feed.stream (Cursor.ofString source)) Statements
        p.bare p.parts (p.map .stmt) used :=
  Yields.of_parse h fun _ => yields_statements _ _

/-- **Placement.**  All parts of a program stand among the lexemes of its source where their spans
say. -/
theorem Program.parts_sit {source : String} {p : Program} (h : Program.parse source = .ok p) :
    ∃ last, last.token = .endOfInput ∧
      ∀ part ∈ p.parts, part.Sits (Lexeme.all (.ofString source) ++ₛ Stream'.const last) := by
  obtain ⟨last, hlast, heq⟩ := Lexeme.allWithEnd_eq (.ofString source)
  obtain ⟨used, -, -, hplaced⟩ := Program.placed h
  refine ⟨last, hlast, ?_⟩
  rw [← Feed.stream_all heq]
  exact hplaced.parts

/-- **Nesting.**  The statements of a program stand one behind the other.  Every phrase of it, at
any depth, has a span that is not reversed; its parts lie in that span, one behind the other in the
order of the source; a leaf has the span of its token, and an operation reaches from the start of
its left operand to the end of its right one. -/
theorem spans_are_nested {source : String} {p : Program} (h : Program.parse source = .ok p) :
    (p.map Stmt.span).Pairwise Span.Before ∧
      ∀ s ∈ p, (Phrase.stmt s).Nested (Lexeme.all (.ofString source)) := by
  obtain ⟨used, behind, hstream, hplaced⟩ := Program.placed h
  obtain ⟨-, hincreasing, hnested⟩ := hplaced.lays (inOrder_source hstream)
  rw [List.map_map] at hincreasing
  exact ⟨hincreasing, List.forall_mem_map.1 hnested⟩

/-- A loop over a printed line that ends at its semicolon, and a printed line with a terminator. -/
theorem spans_are_nested_loop :
    ∃ p,
      Program.parse "for (i = 0; i < 2; i++) { print((i + 1) * 2) ; } print(i, end='');" = .ok p ∧
      p.length = 2 ∧ (p.map Stmt.span).Pairwise Span.Before ∧
      ∀ s ∈ p, (Phrase.stmt s).Nested (Lexeme.all
        (.ofString "for (i = 0; i < 2; i++) { print((i + 1) * 2) ; } print(i, end='');")) := by
  obtain ⟨p, hp, hlength⟩ := Program.exists_of_check
    "for (i = 0; i < 2; i++) { print((i + 1) * 2) ; } print(i, end='');"
    (fun p => p.length = 2) (by decide +kernel)
  exact ⟨p, hp, of_decide_eq_true hlength, spans_are_nested hp⟩

end FlatScript
