/-
# Looking ahead

A parser holds the current lexeme and the next one, and draws the others when it comes to them.
Reading all lexemes of a source first makes no difference to what is read, but it does decide
which error is found first if there are two: a character that begins no token is found when it
would become the next lexeme, so a token that does not fit is found before it only if at least one
lexeme stands between them.

* `parse_eq_parseList` : a source is read like the list of its lexemes;
* `Verdict.of_firstError` : which of two errors is found;
* `parse_agrees_with_lexemes` : both, for scripts.
-/
import FlatScript.Proofs.Parsing
import FlatScript.Proofs.StmtLockstep

namespace FlatScript

open Grammar

/-! ## Lexemes that are read beforehand -/

theorem keepsUnion_id : KeepsUnion id :=
  fun _ _ _ _ hs ht => congrArg₂ Span.union hs ht

/-- Outcomes that are the same where every position stays are equal. -/
theorem AlikeOutcomes.eq {α : Type} {R : α → α → Prop} {r r' : Except ParseError α}
    (h : AlikeOutcomes id R r r') (hR : ∀ a b, R a b → a = b) : r = r' := by
  cases h with
  | ok hvalue => rw [hR _ _ hvalue]
  | error herror =>
    rw [ParseError.relocate_id, ParseError.relocate_id] at herror
    rw [herror]

/-- Trees that are the same where every position stays are equal. -/
theorem SameStmts.eq_of_id {b b' : List Stmt} (h : SameStmts id b b') : b = b' := by
  unfold SameStmts at h
  rwa [Stmt.map_relocate_id, Stmt.map_relocate_id] at h

theorem SameExpr.eq_of_id {e e' : Expr} (h : SameExpr id e e') : e = e' := by
  unfold SameExpr at h
  rwa [Expr.relocate_id, Expr.relocate_id] at h

/-- A cursor goes with the list of all lexemes behind it. -/
def Pairing.beforehand : Pairing Cursor (List Lexeme) where
  move := id
  keepsUnion := keepsUnion_id
  feeds cursor lexemes := lexemes = Lexeme.allWithEnd cursor
  draw := by
    rintro cursor _ rfl
    rw [Feed.draw_allWithEnd]
    exact ⟨rfl, rfl⟩

/-- **Reading ahead changes nothing.**  A source is read as a program, or as an expression, like the
list of all its lexemes, with the end of the input as the last one.  Both bounds are greater than
the number of lexemes, though they are not the same. -/
theorem parse_eq_parseList (source : String) :
    Program.parse source =
        Parser.parseList Parser.program (Lexeme.allWithEnd (.ofString source)) ∧
      Expr.parse source =
        Parser.parseList Parser.soleExpression (Lexeme.allWithEnd (.ofString source)) := by
  obtain ⟨last, -, heq⟩ := Lexeme.allWithEnd_eq (.ofString source)
  have hsource := Nat.lt_succ_of_le (Lexeme.length_all_le (.ofString source))
  have hlist : (Lexeme.all (.ofString source)).length <
      (Lexeme.allWithEnd (.ofString source)).length + 1 := by
    rw [heq, List.length_append]
    omega
  have hfeeds : Pairing.beforehand.feeds (.ofString source)
      (Lexeme.allWithEnd (.ofString source)) := rfl
  exact ⟨(runOn_program_alike hfeeds hsource hlist).outcomes.eq fun _ _ => SameStmts.eq_of_id,
    (runOn_soleExpression_alike hfeeds hsource hlist).outcomes.eq fun _ _ => SameExpr.eq_of_id⟩

/-! ## The first of two errors -/

section
variable {α β : Type} {view : α → β} {L : Language β} {ls : List Lexeme} {last : Lexeme}
  {e e' : LexError} {u u' : Nat}

/-- There is only one first error. -/
theorem FirstError.unique (h : FirstError ls e u) (h' : FirstError ls e' u') :
    e = e' ∧ u = u' := by
  obtain ⟨l, hl, hbad⟩ := h.bad
  obtain ⟨l', hl', hbad'⟩ := h'.bad
  rcases Nat.lt_trichotomy u u' with hlt | rfl | hlt
  · rw [h'.recognized u hlt l hl] at hbad
    cases hbad
  · obtain rfl : l = l' := Option.some.inj (hl.symm.trans hl')
    exact ⟨Option.some.inj (hbad.symm.trans hbad'), rfl⟩
  · rw [h.recognized u' hlt l' hl'] at hbad'
    cases hbad'

/-- The error that stops the reading of all lexemes is the first one. -/
theorem exists_firstError {source : String} (h : lexemes source = .error e) :
    ∃ u, FirstError (Lexeme.all (.ofString source)) e u := by
  unfold lexemes at h
  dsimp only at h
  split at h
  · rename_i e' hfound
    obtain rfl := Except.error.inj h
    obtain ⟨before, bad, behind, hall, hbad, hbefore⟩ := List.findSome?_eq_some_iff.1 hfound
    refine ⟨before.length, ⟨bad, ?_, hbad⟩, fun i hi l hl => ?_⟩
    · rw [hall, List.getElem?_append_right (Nat.le_refl _), Nat.sub_self, List.getElem?_cons_zero]
    · rw [hall, List.getElem?_append_left hi] at hl
      exact hbefore l (List.mem_of_getElem? hl)
  · cases h

/-- What is in front of the beginning of a word is the beginning of one. -/
theorem Grammar.Completable.of_append {us vs : List Token} (h : Completable L (us ++ vs)) :
    Completable L us := by
  obtain ⟨ws, b, hb⟩ := h
  exact ⟨vs ++ ws, b, by rwa [List.append_assoc] at hb⟩

/-- The lexemes in front of the one that was refused and this one are together no beginning of a
word, however many others are taken with them. -/
theorem Objects.not_completable {error : Unexpected} {k n : Nat}
    (hls : ∀ l ∈ ls, l.token ≠ .endOfInput) (h : Objects L (ls ++ [last]) error k)
    (hk : ls[k]? = some ⟨error.got, error.span⟩) (hn : k < n) :
    ¬ Completable L (tokens (ls.take n)) := by
  intro hcompletable
  obtain ⟨hlt, hget⟩ := List.getElem?_eq_some_iff.1 hk
  refine h.misfit ?_
  rw [List.take_append_of_le_length (Nat.le_of_lt hlt), Suits,
    if_neg (hls _ (List.mem_of_getElem? hk))]
  have hstart : tokens (ls.take k) ++ [error.got] = tokens (ls.take (k + 1)) := by
    rw [List.take_add_one, hk, tokens_append]
    rfl
  have hsplit : ls.take n = ls.take (k + 1) ++ (ls.drop (k + 1)).take (n - (k + 1)) := by
    rw [← List.take_add, Nat.add_sub_cancel' hn]
  rw [hsplit, tokens_append] at hcompletable
  exact hstart ▸ Completable.of_append hcompletable

/-- **The first of two errors.**  If a lexeme is no token, this is what is found, unless the
lexemes two places before it are no beginning of a word: then it is one of these that is found. -/
theorem Verdict.of_firstError {r : Except ParseError α} (hls : ∀ l ∈ ls, l.token ≠ .endOfInput)
    (h : Verdict view L ls last r) (he : FirstError ls e u) :
    (Completable L (tokens (ls.take (u - 1))) ∧ r = .error (.lexical e)) ∨
    (¬ Completable L (tokens (ls.take (u - 1))) ∧ ∃ k l expected, k + 2 ≤ u ∧ ls[k]? = some l ∧
      r = .error (.syntactic ⟨expected, l.token, l.span⟩)) := by
  obtain ⟨bad, hbad, herror⟩ := he.bad
  obtain ⟨hu, -⟩ := List.getElem?_eq_some_iff.1 hbad
  match r, h with
  | .ok a, ⟨hrecognized, _⟩ =>
    rw [hrecognized bad (List.mem_of_getElem? hbad)] at herror
    cases herror
  | .error (.lexical e'), ⟨u', h⟩ =>
    obtain ⟨rfl, rfl⟩ := he.unique h.toFirstError
    exact .inl ⟨h.begins, rfl⟩
  | .error (.syntactic error), ⟨k, h⟩ =>
    -- The parser has seen the lexeme behind the one it refuses, so the bad one comes later.
    have hk : k + 2 ≤ u := by
      by_contra hlt
      rw [h.recognized u (by omega) bad (by rw [List.getElem?_append_left hu, hbad])] at herror
      cases herror
    have hhere : ls[k]? = some ⟨error.got, error.span⟩ := by
      rw [← h.here, List.getElem?_append_left (by omega)]
    exact .inr ⟨h.not_completable hls hhere (by omega), k, _, error.expected, hk, hhere, rfl⟩

end

/-! ## Scripts -/

/-- Only what was an error of syntax is reported as one. -/
theorem Script.parse_eq_syntactic {source : String} {error : Unexpected}
    (h : Script.parse source = .error (.syntactic error)) :
    Program.parse source = .error (.syntactic error) := by
  unfold Script.parse at h
  match hparse : Program.parse source with
  | .ok program =>
    rw [hparse] at h
    cases h
  | .error (.syntactic error') =>
    rw [hparse] at h
    cases h
    rfl
  | .error (.lexical e) =>
    rw [hparse] at h
    cases h

/-- Only what was a lexical error is reported as one. -/
theorem Script.parse_eq_lexical {source : String} {e : LexError}
    (h : Script.parse source = .error (.lexical e)) :
    Program.parse source = .error (.lexical e) := by
  unfold Script.parse at h
  match hparse : Program.parse source with
  | .ok program =>
    rw [hparse] at h
    cases h
  | .error (.syntactic error) =>
    rw [hparse] at h
    cases h
  | .error (.lexical e') =>
    rw [hparse] at h
    cases h
    rfl

/-- **Lexemes first or on the way.**  A script is parsed with the same result if all of its lexemes
are read first, and what it reports as a syntax error is one.  If all lexemes are tokens, no lexical
error is reported.  Otherwise nothing is parsed: the lexical error that reading them first reports
is reported exactly if the tokens in front of the lexeme before it are the beginning of a program,
and if they are not, a token among them is reported. -/
theorem parse_agrees_with_lexemes (source : String) :
    Script.parse source =
      (Parser.parseList Parser.program (Lexeme.allWithEnd (.ofString source))).mapError
        .ofParseError ∧
    (∀ error, Script.parse source = .error (.syntactic error) →
      Program.parse source = .error (.syntactic error)) ∧
    (∀ ls, lexemes source = .ok ls →
      (∃ last, last.token = .endOfInput ∧ Lexeme.allWithEnd (.ofString source) = ls ++ [last]) ∧
      ∀ e, Script.parse source ≠ .error (.lexical e)) ∧
    ∀ e, lexemes source = .error e →
      ∃ u, FirstError (Lexeme.all (.ofString source)) e u ∧
        (∀ program, Script.parse source ≠ .ok program) ∧
        (Script.parse source = .error (.lexical e) ↔
          Completable Statements (tokens ((Lexeme.all (.ofString source)).take (u - 1)))) ∧
        (¬ Completable Statements (tokens ((Lexeme.all (.ofString source)).take (u - 1))) →
          ∃ k l expected, k + 2 ≤ u ∧ (Lexeme.all (.ofString source))[k]? = some l ∧
            Script.parse source = .error (.syntactic ⟨expected, l.token, l.span⟩)) := by
  obtain ⟨last, hlast, heq, hverdict⟩ := verdict_program source
  have hparse : Script.parse source = (Program.parse source).mapError .ofParseError := rfl
  refine ⟨hparse.trans (congrArg _ (parse_eq_parseList source).1),
    fun error => Script.parse_eq_syntactic, fun ls hls => ?_, fun e he => ?_⟩
  · obtain ⟨rfl, hrecognized⟩ := lexemes_eq_ok_iff.1 hls
    refine ⟨⟨last, hlast, heq⟩, fun e he => ?_⟩
    rw [Script.parse_eq_lexical he] at hverdict
    obtain ⟨u, h⟩ := hverdict
    obtain ⟨l, hl, hbad⟩ := h.bad
    rw [hrecognized l (List.mem_of_getElem? hl)] at hbad
    cases hbad
  · obtain ⟨u, hu⟩ := exists_firstError he
    refine ⟨u, hu, ?_⟩
    rcases hverdict.of_firstError (fun l => Lexeme.token_ne_of_mem_all) hu with
      ⟨hbegins, hlexical⟩ | ⟨hbegins, k, l, expected, hk, hl, hsyntactic⟩
    · rw [hparse, hlexical]
      exact ⟨fun _ => nofun, ⟨fun _ => hbegins, fun _ => rfl⟩, fun h => absurd hbegins h⟩
    · rw [hparse, hsyntactic]
      exact ⟨fun _ => nofun, ⟨nofun, fun h => absurd h hbegins⟩,
        fun _ => ⟨k, l, expected, hk, hl, rfl⟩⟩

/-- A script of tokens has no lexical error; one with an error of each kind reports the first one if
a lexeme stands between them. -/
theorem parse_agrees_with_lexemes_parens :
    (∀ e, Script.parse "none;" ≠ .error (.lexical e)) ∧
      ∃ u, FirstError (Lexeme.all (.ofString ")) ?")) ⟨'?', ⟨3, 1, 4⟩⟩ u ∧
        ∃ k l expected, k + 2 ≤ u ∧ (Lexeme.all (.ofString ")) ?"))[k]? = some l ∧
          Script.parse ")) ?" = .error (.syntactic ⟨expected, l.token, l.span⟩) ∧
          Program.parse ")) ?" = .error (.syntactic ⟨expected, l.token, l.span⟩) := by
  have htokens : lexemes "none;" = .ok [⟨.keyword .absence, ⟨⟨0, 1, 1⟩, ⟨4, 1, 5⟩⟩⟩,
      ⟨.symbol .semicolon, ⟨⟨4, 1, 5⟩, ⟨5, 1, 6⟩⟩⟩] := by decide +kernel
  have hbad : lexemes ")) ?" = .error ⟨'?', ⟨3, 1, 4⟩⟩ := by decide +kernel
  have hsyntactic : (match Script.parse ")) ?" with
      | .error (.lexical _) => true
      | _ => false) = false := by decide +kernel
  obtain ⟨-, -, hnever, -⟩ := parse_agrees_with_lexemes "none;"
  obtain ⟨-, hsame, -, hfirst⟩ := parse_agrees_with_lexemes ")) ?"
  obtain ⟨u, hu, -, hiff, herror⟩ := hfirst _ hbad
  have hbegins : ¬ Completable Statements
      (tokens ((Lexeme.all (.ofString ")) ?")).take (u - 1))) := by
    intro hbegins
    rw [hiff.2 hbegins] at hsyntactic
    cases hsyntactic
  obtain ⟨k, l, expected, hk, hl, hparse⟩ := herror hbegins
  exact ⟨(hnever _ htokens).2, u, hu, k, l, expected, hk, hl, hparse, hsame _ hparse⟩

end FlatScript
