/-
# What sources are read as

* `parse_iff_grammar` : a source is read exactly if all its lexemes are tokens and their sequence
  is a word of the grammar, and the tree that is read is the one tree of that word;
* `parse_error_is_first` : a syntax error names the first lexeme that no valid source has after
  those in front of it, and every token that it says was expected could stand in its place.

Both are said of programs and of single expressions.
-/
import FlatScript.Proofs.WholeInput
import FlatScript.Script

namespace FlatScript

open Grammar

/-! ## Verdicts on sources -/

theorem verdict_program (source : String) :
    ∃ last, last.token = .endOfInput ∧
      Lexeme.allWithEnd (.ofString source) = Lexeme.all (.ofString source) ++ [last] ∧
      Verdict Program.bare Statements (Lexeme.all (.ofString source)) last
        (Program.parse source) :=
  verdict_parse (fun _ _ => readsInput_program) source

theorem verdict_expression (source : String) :
    ∃ last, last.token = .endOfInput ∧
      Lexeme.allWithEnd (.ofString source) = Lexeme.all (.ofString source) ++ [last] ∧
      Verdict Expr.bare AnyExpression (Lexeme.all (.ofString source)) last (Expr.parse source) :=
  verdict_parse (fun _ _ => readsInput_soleExpression) source

/-- The lexemes of a source, if all of them are tokens. -/
theorem lexemes_eq_ok_iff {source : String} {ls : List Lexeme} :
    lexemes source = .ok ls ↔
      ls = Lexeme.all (.ofString source) ∧ ∀ l ∈ ls, l.error? = none := by
  unfold lexemes
  dsimp only
  constructor
  · intro h
    split at h
    · cases h
    · rename_i hnone
      obtain rfl := Except.ok.inj h
      exact ⟨rfl, List.findSome?_eq_none_iff.1 hnone⟩
  · rintro ⟨rfl, hnone⟩
    rw [List.findSome?_eq_none_iff.2 hnone]

theorem Expected.Fits.eq_token {expected : Expected} (h : expected.Fits .endOfInput) :
    expected = .token .endOfInput := by
  cases h with
  | token => rfl
  | expression h => rcases h with h | ⟨_, h⟩ <;> cases h

/-- The end of the input is never what was expected of a program: it could only end too early. -/
theorem program_expected_ne {source : String} {e : Unexpected}
    (h : Program.parse source = .error (.syntactic e)) : e.expected ≠ .token .endOfInput := by
  intro hexpected
  obtain ⟨last, hlast, heq⟩ := Lexeme.allWithEnd_eq (.ofString source)
  unfold Program.parse Parser.parse at h
  rcases Parser.runOn_cases Parser.program (Cursor.ofString source) (source.length + 1) with
    ⟨i, e', w, -, hrun, -⟩ | ⟨w, hrun, hw, hahead, -⟩
  · rw [hrun] at h
    cases h
  · have hn : w.Within (source.length + 1) := Window.within_of_ahead hlast
      (hahead.trans (Feed.stream_all heq)) (Nat.lt_succ_of_le (Lexeme.length_all_le _))
    have hreads := reads_program _ hw hn
    unfold Reads at hreads
    rw [hrun] at h
    cases hp : (Parser.program (source.length + 1) : Parser Cursor Program) w with
    | ok a w' =>
      rw [hp] at h
      cases h
    | error e' w' =>
      rw [hp] at h hreads
      obtain rfl := Except.error.inj h
      obtain ⟨used, hrefuses⟩ := hreads
      exact (hrefuses.honest .endOfInput (hexpected ▸ .token _)).1 rfl

section
variable {α β : Type} {view : α → β} {L : Language β} {ls : List Lexeme} {last : Lexeme}
  {r : Except ParseError α}

/-- A word is not objected to. -/
theorem Objects.not_word {e : Unexpected} {k : Nat} {b : β} (hlast : last.token = .endOfInput)
    (hls : ∀ l ∈ ls, l.token ≠ .endOfInput) (h : Objects L (ls ++ [last]) e k)
    (hword : L (tokens ls) b) : False := by
  have hmisfit := h.misfit
  obtain ⟨hk, hhere⟩ := List.getElem?_eq_some_iff.1 h.here
  rw [List.length_append, List.length_singleton] at hk
  rw [List.take_append_of_le_length (by omega)] at hmisfit
  refine hmisfit ?_
  unfold Suits
  -- The place is one of the lexemes, which the word goes on with, or the end, where it is complete.
  rcases Nat.lt_or_ge k ls.length with hlt | hge
  · rw [List.getElem_append_left hlt] at hhere
    have hgot : e.got = ls[k].token := by rw [hhere]
    rw [if_neg (hgot ▸ hls _ (List.getElem_mem hlt))]
    refine ⟨tokens (ls.drop (k + 1)), b, ?_⟩
    have hsplit : ls.take k ++ [ls[k]] ++ ls.drop (k + 1) = ls := by
      rw [List.take_append_getElem, List.take_append_drop]
    have htokens : tokens (ls.take k) ++ [e.got] ++ tokens (ls.drop (k + 1)) = tokens ls := by
      rw [hgot, ← congrArg tokens hsplit, tokens_append, tokens_append]
      rfl
    rwa [htokens]
  · obtain rfl : k = ls.length := by omega
    rw [List.getElem_concat_length rfl] at hhere
    have hgot : e.got = .endOfInput := by rw [← hlast, hhere]
    rw [if_pos hgot, List.take_length]
    exact ⟨b, hword⟩

/-- The right outcome is a result exactly for the words of the language. -/
theorem Verdict.ok_iff (hlast : last.token = .endOfInput)
    (hls : ∀ l ∈ ls, l.token ≠ .endOfInput) (h : Verdict view L ls last r) {b : β} :
    (∃ a, r = .ok a ∧ view a = b) ↔ (∀ l ∈ ls, l.error? = none) ∧ L (tokens ls) b := by
  constructor
  · rintro ⟨a, rfl, rfl⟩
    exact ⟨h.1, h.2.1⟩
  · rintro ⟨hrecognized, hword⟩
    match r, h with
    | .ok a, ⟨_, _, honly⟩ => exact ⟨a, rfl, (honly b hword).symm⟩
    | .error (.syntactic e), ⟨k, h⟩ => exact (h.not_word hlast hls hword).elim
    | .error (.lexical e), ⟨u, h⟩ =>
      obtain ⟨l, hl, hbad⟩ := h.bad
      rw [hrecognized l (List.mem_of_getElem? hl)] at hbad
      cases hbad

/-- What is read from a source, in terms of its tokens. -/
theorem Verdict.ok_iff_lexemes {source : String} (hlast : last.token = .endOfInput)
    (h : Verdict view L (Lexeme.all (.ofString source)) last r) {b : β} :
    (∃ a, r = .ok a ∧ view a = b) ↔ ∃ ls, lexemes source = .ok ls ∧ L (tokens ls) b := by
  rw [h.ok_iff hlast fun l => Lexeme.token_ne_of_mem_all]
  constructor
  · rintro ⟨hrecognized, hword⟩
    exact ⟨_, lexemes_eq_ok_iff.2 ⟨rfl, hrecognized⟩, hword⟩
  · rintro ⟨ls, hls, hword⟩
    obtain ⟨rfl, hrecognized⟩ := lexemes_eq_ok_iff.1 hls
    exact ⟨hrecognized, hword⟩

/-- The tokens of a source have at most one meaning, since its outcome has at most one. -/
theorem unique_of_ok_iff {source : String}
    (h : ∀ b, (∃ a, r = .ok a ∧ view a = b) ↔ ∃ ls, lexemes source = .ok ls ∧ L (tokens ls) b)
    {ls : List Lexeme} {b c : β} (hls : lexemes source = .ok ls) (hb : L (tokens ls) b)
    (hc : L (tokens ls) c) : b = c := by
  obtain ⟨a, rfl, rfl⟩ := (h b).2 ⟨ls, hls, hb⟩
  obtain ⟨a', ha', rfl⟩ := (h c).2 ⟨ls, hls, hc⟩
  rw [Except.ok.inj ha']

end

/-- **Parsing decides the grammar.**  A source is read as a program exactly if all its lexemes are
tokens and their sequence is a program of the grammar, and up to spans the tree that is read is
the only tree that the grammar gives to it.  The same is true of sources that are read as a single
expression. -/
theorem parse_iff_grammar (source : String) :
    (∀ p, (∃ tree, Program.parse source = .ok tree ∧ tree.bare = p) ↔
      ∃ ls, lexemes source = .ok ls ∧ Statements (tokens ls) p) ∧
    (∀ ls p q, lexemes source = .ok ls → Statements (tokens ls) p → Statements (tokens ls) q →
      p = q) ∧
    (∀ e, (∃ tree, Expr.parse source = .ok tree ∧ tree.bare = e) ↔
      ∃ ls, lexemes source = .ok ls ∧ AnyExpression (tokens ls) e) ∧
    ∀ ls e f, lexemes source = .ok ls → AnyExpression (tokens ls) e →
      AnyExpression (tokens ls) f → e = f := by
  obtain ⟨_, hlast, -, hprogram⟩ := verdict_program source
  obtain ⟨_, hlast', -, hexpression⟩ := verdict_expression source
  have hp := fun p => hprogram.ok_iff_lexemes hlast (b := p)
  have he := fun e => hexpression.ok_iff_lexemes hlast' (b := e)
  exact ⟨hp, fun ls p q => unique_of_ok_iff hp, he, fun ls e f => unique_of_ok_iff he⟩

/-- The program and the expression of one constant are read as the grammar says, and as nothing
else. -/
theorem parse_iff_grammar_none :
    (∃ tree, Program.parse "none;" = .ok tree ∧ tree.bare = [.expr (.literal .none {}) {}]) ∧
      (∀ q, Statements [.keyword .absence, .symbol .semicolon] q →
        q = [.expr (.literal .none {}) {}]) ∧
      (∃ tree, Expr.parse "none" = .ok tree ∧ tree.bare = .literal .none {}) ∧
      ∀ f, AnyExpression [.keyword .absence] f → f = .literal .none {} := by
  have hlexemes : lexemes "none;" = .ok [⟨.keyword .absence, ⟨⟨0, 1, 1⟩, ⟨4, 1, 5⟩⟩⟩,
      ⟨.symbol .semicolon, ⟨⟨4, 1, 5⟩, ⟨5, 1, 6⟩⟩⟩] := by decide +kernel
  have hlexemes' : lexemes "none" = .ok [⟨.keyword .absence, ⟨⟨0, 1, 1⟩, ⟨4, 1, 5⟩⟩⟩] := by
    decide +kernel
  have hexpr : AnyExpression [.keyword .absence] (.literal .none {}) :=
    Leaf.absence.expression .lowest
  have hword : Statements [.keyword .absence, .symbol .semicolon] [.expr (.literal .none {}) {}] :=
    .cons (.expr hexpr) .nil
  obtain ⟨hprogram, hunique, -⟩ := parse_iff_grammar "none;"
  obtain ⟨-, -, hexpression, hunique'⟩ := parse_iff_grammar "none"
  exact ⟨(hprogram _).2 ⟨_, hlexemes, hword⟩, fun q hq => hunique _ q _ hlexemes hq hword,
    (hexpression _).2 ⟨_, hlexemes', hexpr⟩, fun f hf => hunique' _ f _ hlexemes' hf hexpr⟩

/-- **Syntax errors are honest.**  A syntax error names a lexeme of the source, perhaps the end of
the input, with its span.  What stands in front of it is the beginning of a valid source, but with
it this is so no more, and with any token that was said to be expected in its place it is so again.
Where the end of the input was expected behind an expression, the expression is complete. -/
theorem parse_error_is_first (source : String) :
    (∀ e, Program.parse source = .error (.syntactic e) →
      ∃ k, Objects Statements (Lexeme.allWithEnd (.ofString source)) e k ∧
        ∀ t, e.expected.Fits t →
          Completable Statements (tokens ((Lexeme.allWithEnd (.ofString source)).take k) ++ [t])) ∧
    ∀ e, Expr.parse source = .error (.syntactic e) →
      ∃ k, Objects AnyExpression (Lexeme.allWithEnd (.ofString source)) e k := by
  obtain ⟨_, _, heq, hprogram⟩ := verdict_program source
  obtain ⟨_, _, heq', hexpression⟩ := verdict_expression source
  constructor
  · intro e he
    rw [he] at hprogram
    obtain ⟨k, h⟩ := hprogram
    refine ⟨k, heq ▸ h, fun t ht => ?_⟩
    have hsuits := h.honest t ht
    have hne : t ≠ .endOfInput := by
      rintro rfl
      exact program_expected_ne he ht.eq_token
    rw [heq]
    rwa [Suits, if_neg hne] at hsuits
  · intro e he
    rw [he] at hexpression
    obtain ⟨k, h⟩ := hexpression
    exact ⟨k, heq' ▸ h⟩

/-- A missing argument and a second expression are such errors; a constant would have fitted where
the argument is missing. -/
theorem parse_error_is_first_print :
    (∃ e k, Program.parse "print(;" = .error (.syntactic e) ∧
      Objects Statements (Lexeme.allWithEnd (.ofString "print(;")) e k ∧
      Completable Statements
        (tokens ((Lexeme.allWithEnd (.ofString "print(;")).take k) ++ [.keyword .absence])) ∧
    ∃ e k, Expr.parse "x y" = .error (.syntactic e) ∧
      Objects AnyExpression (Lexeme.allWithEnd (.ofString "x y")) e k := by
  have hprogram : (match Program.parse "print(;" with
      | .error (.syntactic e) => decide (e.expected = .expression)
      | _ => false) = true := by decide +kernel
  have hexpression : (match Expr.parse "x y" with
      | .error (.syntactic _) => true
      | _ => false) = true := by decide +kernel
  split at hprogram
  · rename_i e he
    have hfits : e.expected.Fits (.keyword .absence) := by
      rw [of_decide_eq_true hprogram]
      exact .expression (.inr ⟨_, .absence⟩)
    obtain ⟨k, h, hhonest⟩ := (parse_error_is_first "print(;").1 e he
    split at hexpression
    · rename_i e' he'
      obtain ⟨k', h'⟩ := (parse_error_is_first "x y").2 e' he'
      exact ⟨⟨e, k, he, h, hhonest _ hfits⟩, e', k', he', h'⟩
    · cases hexpression
  · cases hprogram

/-- A source that is checked to be read as a program with some property. -/
theorem Program.exists_of_check (source : String) (check : Program → Bool)
    (h : (Program.parse source).toOption.any check = true) :
    ∃ p, Program.parse source = .ok p ∧ check p = true := by
  cases hp : Program.parse source with
  | error e =>
    rw [hp] at h
    cases h
  | ok p =>
    rw [hp] at h
    exact ⟨p, rfl, h⟩

end FlatScript
