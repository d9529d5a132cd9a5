/-
# Layout does not matter

Two sources with the same tokens may still differ in white space, in line breaks and in the marks
around their texts.  They are read and run alike: what differs are the positions that a tree
carries, that an error names and that a log shows.

* `SameResult` : results that differ in positions only, with errors at the same place in the
  sequence of tokens;
* `SameEntry` : entries of a log that differ in the position in front of a statement only;
* `layout_does_not_matter` : both, for the scripts of two sources, and for statements that were
  never read from a source.
-/
import FlatScript.Proofs.Lookahead
import FlatScript.Proofs.RunRelocation
import Mathlib.Data.List.Forall2

namespace FlatScript

open Grammar

/-! ## Results and logs that differ in positions only -/

/-- Two results are the same but for positions: related values, or the same error.  An error of
reading is found at the same place in both sequences of lexemes, at the same character or at the
same token. -/
inductive SameResult {α : Type} (R : α → α → Prop) (ls ms : List Lexeme) :
    Except ScriptError α → Except ScriptError α → Prop where
  | ok {a b : α} (hvalue : R a b) : SameResult R ls ms (.ok a) (.ok b)
  | lexical {c : Char} {s s' : Span} {k : Nat} (hl : ls[k]? = some ⟨.unrecognized c, s⟩)
      (hm : ms[k]? = some ⟨.unrecognized c, s'⟩) :
      SameResult R ls ms (.error (.lexical ⟨c, s.start⟩)) (.error (.lexical ⟨c, s'.start⟩))
  | syntactic {expected : Expected} {got : Token} {s s' : Span} {k : Nat}
      (hl : ls[k]? = some ⟨got, s⟩) (hm : ms[k]? = some ⟨got, s'⟩) :
      SameResult R ls ms (.error (.syntactic ⟨expected, got, s⟩))
        (.error (.syntactic ⟨expected, got, s'⟩))
  | runtime (e : RuntimeError) : SameResult R ls ms (.error (.runtime e)) (.error (.runtime e))

/-- Two entries of a log are the same, or tell of the same statement at two places. -/
def SameEntry (a b : Script.Event) : Prop :=
  a.level = b.level ∧
    (a.message = b.message ∨
      a.level = .trace ∧ ∃ (p q : Position) (text : String),
        a.message = s!"{p} | {text}" ∧ b.message = s!"{q} | {text}")

/-! ## Errors at the same place -/

/-- A lexeme is bare if nothing is known of its place. -/
theorem Lexeme.relocate_eq_of_token {l m : Lexeme} (h : l.token = m.token) :
    l.relocate (fun _ => .origin) = m.relocate fun _ => .origin :=
  congrArg (Lexeme.mk · _) h

/-- What a lexeme that is no token consists of. -/
theorem Lexeme.eq_of_error? {l : Lexeme} {e : LexError} (h : l.error? = some e) :
    ∃ s : Span, l = ⟨.unrecognized e.character, s⟩ ∧ e = ⟨e.character, s.start⟩ := by
  obtain ⟨t, s⟩ := l
  unfold Lexeme.error? at h
  split at h
  · rename_i c hc
    cases h
    cases hc
    exact ⟨s, rfl, rfl⟩
  · cases h

section
variable {β : Type} {L : Language β} {ls ms : List Lexeme} {last last' : Lexeme}
  {e e' : Unexpected} {k k' : Nat}

/-- Of two first misfits in the same tokens, neither is behind the other. -/
theorem Objects.index_le (hls : ∀ l ∈ ls, l.token ≠ .endOfInput)
    (htokens : tokens ls = tokens ms) (h : Objects L (ls ++ [last]) e k)
    (h' : Objects L (ms ++ [last']) e' k') : k' ≤ k := by
  by_contra hlt
  have hlength : ls.length = ms.length := by simpa using congrArg List.length htokens
  have hk' : k' < (ms ++ [last']).length := (List.getElem?_eq_some_iff.1 h'.here).1
  rw [List.length_append, List.length_singleton] at hk'
  have hk : ls[k]? = some ⟨e.got, e.span⟩ := by
    rw [← h.here, List.getElem?_append_left (by omega)]
  -- In front of the later place stands the token that was refused at the earlier one.
  refine h.not_completable (n := k') hls hk (by omega) ?_
  have hbegins := h'.begins
  rw [List.take_append_of_le_length (by omega)] at hbegins
  have htake : tokens (ls.take k') = tokens (ms.take k') := by
    rw [tokens, tokens, List.map_take, List.map_take]
    exact congrArg (List.take k') htokens
  rwa [htake]

/-- The first token that does not fit is at the same place in two sequences of the same tokens, so
it is the same error. -/
theorem Objects.sameResult {α : Type} {R : α → α → Prop} (hls : ∀ l ∈ ls, l.token ≠ .endOfInput)
    (hms : ∀ m ∈ ms, m.token ≠ .endOfInput) (htokens : tokens ls = tokens ms)
    (h : Objects L (ls ++ [last]) e k) (h' : Objects L (ms ++ [last']) e' k')
    (hexpected : e.expected = e'.expected) (hgot : e.got = e'.got) :
    SameResult R (ls ++ [last]) (ms ++ [last']) (.error (.syntactic e))
      (.error (.syntactic e')) := by
  obtain rfl := Nat.le_antisymm (h'.index_le hms htokens.symm h) (h.index_le hls htokens h')
  obtain ⟨expected, got, s⟩ := e
  obtain ⟨expected', got', s'⟩ := e'
  obtain rfl : expected = expected' := hexpected
  obtain rfl : got = got' := hgot
  exact .syntactic h.here h'.here

/-- Of two first characters that are no token, in the same tokens, neither is behind the other. -/
theorem FirstError.index_le {e e' : LexError} {u u' : Nat} (htokens : tokens ls = tokens ms)
    (h : FirstError ls e u) (h' : FirstError ms e' u') : u' ≤ u := by
  by_contra hlt
  obtain ⟨l, hl, hbad⟩ := h.bad
  have htoken : (tokens ms)[u]? = some l.token := by
    rw [← htokens, List.getElem?_map, hl]
    rfl
  rw [List.getElem?_map, Option.map_eq_some_iff] at htoken
  obtain ⟨m, hm, hlm⟩ := htoken
  rw [(error?_eq_none_iff (Lexeme.relocate_eq_of_token hlm)).1 (h'.recognized u (by omega) m hm)]
    at hbad
  cases hbad

/-- The first character that is no token is at the same place in two sequences of the same tokens,
so it is the same error. -/
theorem FirstError.sameResult {α : Type} {R : α → α → Prop} {e e' : LexError} {u u' : Nat}
    (htokens : tokens ls = tokens ms) (h : FirstError ls e u) (h' : FirstError ms e' u')
    (hcharacter : e.character = e'.character) :
    SameResult R (ls ++ [last]) (ms ++ [last']) (.error (.lexical e)) (.error (.lexical e')) := by
  obtain rfl := Nat.le_antisymm (h'.index_le htokens.symm h) (h.index_le htokens h')
  obtain ⟨l, hl, hbad⟩ := h.bad
  obtain ⟨m, hm, hbad'⟩ := h'.bad
  obtain ⟨s, rfl, he⟩ := Lexeme.eq_of_error? hbad
  obtain ⟨s', rfl, he'⟩ := Lexeme.eq_of_error? hbad'
  rw [he, he', ← hcharacter]
  refine .lexical (k := u) ?_ ?_
  · rw [List.getElem?_append_left (List.getElem?_eq_some_iff.1 hl).1, hl]
  · rw [List.getElem?_append_left (List.getElem?_eq_some_iff.1 hm).1, hm, hcharacter]

end

/-! ## Reading -/

/-- Where as many lexemes with the same tokens are left, so they are behind the next ones. -/
theorem Lexeme.tokens_all_next {s t : Cursor} (h : tokens (all s) = tokens (all t)) :
    (next s).1.token = (next t).1.token ∧ tokens (all (next s).2) = tokens (all (next t).2) := by
  rw [all, all.eq_def t] at h
  split at h
  · next hs =>
    split at h
    · next ht =>
      -- Both texts have ended, and go on giving out the end of the input.
      rw [all, if_pos ((congrArg (·.1.token) (next_next hs)).trans hs), all,
        if_pos ((congrArg (·.1.token) (next_next ht)).trans ht)]
      exact ⟨hs.trans ht.symm, rfl⟩
    · cases h
  · split at h
    · cases h
    · exact List.cons.inj h

/-- Cursors with the same tokens behind them go together, if all positions are taken for one. -/
def Pairing.sameTokens : Pairing Cursor Cursor where
  move _ := .origin
  keepsUnion _ _ _ _ _ _ := rfl
  feeds s t := tokens (Lexeme.all s) = tokens (Lexeme.all t)
  draw h := ⟨Lexeme.relocate_eq_of_token (Lexeme.tokens_all_next h).1, (Lexeme.tokens_all_next h).2⟩

section
variable {s t : String} (h : tokens (Lexeme.all (.ofString s)) = tokens (Lexeme.all (.ofString t)))
include h

/-- Two sources of the same tokens have outcomes that are the same up to all positions. -/
theorem program_parse_alike :
    AlikeOutcomes (fun _ => .origin) (SameStmts fun _ => .origin) (Program.parse s)
      (Program.parse t) := by
  have hs := Nat.lt_succ_of_le (Lexeme.length_all_le (.ofString s))
  have ht := Nat.lt_succ_of_le (Lexeme.length_all_le (.ofString t))
  have hlength : (Lexeme.all (.ofString s)).length = (Lexeme.all (.ofString t)).length := by
    simpa using congrArg List.length h
  have hfeeds : Pairing.sameTokens.feeds (.ofString s) (.ofString t) := h
  exact (runOn_program_alike hfeeds hs (hlength ▸ ht)).outcomes

/-- **Reading.**  Two sources of the same tokens are read as trees that are the same up to spans, or
have the same error at the same place. -/
theorem parse_sameResult :
    SameResult (fun p q => p.bare = q.bare) (Lexeme.allWithEnd (.ofString s))
      (Lexeme.allWithEnd (.ofString t)) (Script.parse s) (Script.parse t) := by
  obtain ⟨last, hlast, heq, hverdict⟩ := verdict_program s
  obtain ⟨last', hlast', heq', hverdict'⟩ := verdict_program t
  have halike := program_parse_alike h
  unfold Script.parse
  rw [heq, heq']
  generalize Program.parse s = r at halike hverdict
  generalize Program.parse t = r' at halike hverdict'
  cases halike with
  | ok hvalue => exact .ok hvalue
  | @error e e' herror =>
    cases e with
    | lexical e =>
      cases e' with
      | syntactic e' => cases herror
      | lexical e' =>
        obtain ⟨u, hu⟩ := hverdict
        obtain ⟨u', hu'⟩ := hverdict'
        injection herror with herror
        exact hu.toFirstError.sameResult h hu'.toFirstError (LexError.mk.inj herror).1
    | syntactic e =>
      cases e' with
      | lexical e' => cases herror
      | syntactic e' =>
        obtain ⟨k, hk⟩ := hverdict
        obtain ⟨k', hk'⟩ := hverdict'
        injection herror with herror
        obtain ⟨hexpected, hgot, -⟩ := Unexpected.mk.inj herror
        exact hk.sameResult (fun l => Lexeme.token_ne_of_mem_all)
          (fun l => Lexeme.token_ne_of_mem_all) h hk' hexpected hgot

/-! ## Running -/

omit h in
/-- Nothing that a script returns tells of positions. -/
theorem Script.result?_relocate (f : Position → Position) (o : Machine.Outcome) :
    result? (o.relocate f) = result? o := by
  cases o <;> rfl

omit h in
theorem Script.ending_relocate (f : Position → Position) (o : Machine.Outcome) :
    ending (o.relocate f) = ending o := by
  cases o <;> rfl

omit h in
theorem sameResult_result? {ls ms : List Lexeme} (o : Machine.Outcome) :
    Option.Rel (SameResult Eq ls ms) (Script.result? o) (Script.result? o) := by
  cases o with
  | finished state => exact .some (.ok rfl)
  | failed e state => exact .some (.runtime e)
  | unfinished machine => exact .none

/-- **Running.**  With the same number of steps, both scripts print the same, stop with the same
error, or have not come to an end. -/
theorem interpret_sameResult (n : Nat) :
    Option.Rel (SameResult Eq (Lexeme.allWithEnd (.ofString s)) (Lexeme.allWithEnd (.ofString t)))
      (Script.interpret n s) (Script.interpret n t) := by
  have hparse := parse_sameResult h
  unfold Script.interpret
  generalize Script.parse s = r at hparse
  generalize Script.parse t = r' at hparse
  cases hparse with
  | lexical hl hm => exact .some (.lexical hl hm)
  | syntactic hl hm => exact .some (.syntactic hl hm)
  | runtime e => exact .some (.runtime e)
  | @ok p q hvalue =>
    have hresult := congrArg Script.result? (Machine.run_of_bare_eq hvalue n {})
    rw [Script.result?_relocate, Script.result?_relocate] at hresult
    show Option.Rel _ (Script.result? (Script.run n p)) (Script.result? (Script.run n q))
    rw [Script.run, Script.run, hresult]
    exact sameResult_result? _

end

/-! ## Logs -/

/-- Entries of the same statement differ in its place only. -/
theorem sameEntry_running {a b : Stmt} (h : a.bare = b.bare) :
    SameEntry (.running a) (.running b) := by
  have hsexpr : a.sexpr = b.sexpr := by
    rw [← a.sexpr_relocate fun _ => .origin, ← b.sexpr_relocate fun _ => .origin]
    exact congrArg Stmt.sexpr h
  refine ⟨rfl, .inr ⟨rfl, a.span.start, b.span.start, a.sexpr, rfl, ?_⟩⟩
  rw [hsexpr]
  rfl

theorem sameEntry_refl (event : Script.Event) : SameEntry event event :=
  ⟨rfl, .inl rfl⟩

/-- Statements that are the same up to spans have such entries one by one. -/
theorem forall₂_of_map_bare {as bs : List Stmt} (h : as.map Stmt.bare = bs.map Stmt.bare) :
    List.Forall₂ SameEntry (as.map .running) (bs.map .running) := by
  rw [← List.forall₂_eq_eq_eq, List.forall₂_map_left_iff, List.forall₂_map_right_iff] at h
  rw [List.forall₂_map_left_iff, List.forall₂_map_right_iff]
  exact h.imp fun _ _ => sameEntry_running

/-- **Logs.** Both scripts log the same entries, up to the positions in front of statements. -/
theorem log_sameEntries {s t : String}
    (h : tokens (Lexeme.all (.ofString s)) = tokens (Lexeme.all (.ofString t))) (n : Nat) :
    List.Forall₂ SameEntry (Script.log n s) (Script.log n t) := by
  have hparse := parse_sameResult h
  unfold Script.log
  generalize Script.parse s = r at hparse
  generalize Script.parse t = r' at hparse
  cases hparse with
  | lexical => exact .nil
  | syntactic => exact .nil
  | runtime => exact .nil
  | @ok p q hvalue =>
    have hlength : p.length = q.length := by
      simpa [Program.bare] using congrArg List.length hvalue
    have hending := congrArg Script.ending (Machine.run_of_bare_eq hvalue n {})
    rw [Script.ending_relocate, Script.ending_relocate] at hending
    refine List.rel_append (List.rel_append (.cons ?_ (.cons ?_ .nil)) ?_) ?_
    · rw [hlength]
      exact sameEntry_refl _
    · refine ⟨rfl, .inl ?_⟩
      show "program tree:\n" ++ p.sexpr = "program tree:\n" ++ q.sexpr
      rw [← p.sexpr_bare, ← q.sexpr_bare, show p.bare = q.bare from hvalue]
    · exact forall₂_of_map_bare (Machine.trace_of_bare_eq hvalue n {})
    · rw [Script.run, Script.run, hending]
      exact List.forall₂_same.2 fun event _ => sameEntry_refl event

/-- **Layout does not matter.**  Two sources of the same tokens, characters that belong to no token
included, are read as the same tree up to spans, or have the same error of reading at the same place
in the sequence of tokens.  In any number of steps both scripts have the same result, or none yet,
and logs that differ only in the positions in front of the statements that are run.  Statements
that are the same up to spans, however they came about, have the same runs from every state. -/
theorem layout_does_not_matter :
    (∀ s t : String,
      tokens (Lexeme.all (.ofString s)) = tokens (Lexeme.all (.ofString t)) →
        SameResult (fun p q => p.bare = q.bare) (Lexeme.allWithEnd (.ofString s))
          (Lexeme.allWithEnd (.ofString t)) (Script.parse s) (Script.parse t) ∧
        ∀ n,
          Option.Rel
            (SameResult Eq (Lexeme.allWithEnd (.ofString s)) (Lexeme.allWithEnd (.ofString t)))
            (Script.interpret n s) (Script.interpret n t) ∧
          List.Forall₂ SameEntry (Script.log n s) (Script.log n t)) ∧
    ∀ b b' : List Stmt, b.map Stmt.bare = b'.map Stmt.bare → ∀ (n : Nat) (state : State),
      (∀ state', (Machine.start b state).run n = .finished state' ↔
        (Machine.start b' state).run n = .finished state') ∧
      ∀ e state', (Machine.start b state).run n = .failed e state' ↔
        (Machine.start b' state).run n = .failed e state' := by
  refine ⟨fun s t h => ⟨parse_sameResult h, fun n => ⟨interpret_sameResult h n,
    log_sameEntries h n⟩⟩, fun b b' h n state => ⟨fun state' => ?_, fun e state' => ?_⟩⟩
  · exact Machine.Outcome.finished_iff_of_relocate (Machine.run_of_bare_eq h n state) state'
  · exact Machine.Outcome.failed_iff_of_relocate (Machine.run_of_bare_eq h n state) e state'

/-- White space, a line break and other quotation marks leave the result of a script as it is, and
so does the place that a statement is said to be at. -/
theorem layout_does_not_matter_quotes :
    tokens (Lexeme.all (.ofString "x='b';print(x);")) =
        tokens (Lexeme.all (.ofString "x = \"b\" ;\n print(x) ;")) ∧
      Script.interpret 3 "x = \"b\" ;\n print(x) ;" = some (.ok "b\n") ∧
      (Machine.start [.expr (.literal .none {}) ⟨⟨4, 1, 5⟩, ⟨9, 1, 10⟩⟩] {}).run 2 =
        .finished {} := by
  have htokens : tokens (Lexeme.all (.ofString "x='b';print(x);")) =
      tokens (Lexeme.all (.ofString "x = \"b\" ;\n print(x) ;")) := by decide +kernel
  have hresult : Script.interpret 3 "x='b';print(x);" = some (.ok "b\n") := by decide +kernel
  obtain ⟨hsources, hstatements⟩ := layout_does_not_matter
  have hsame := ((hsources _ _ htokens).2 3).1
  rw [hresult] at hsame
  refine ⟨htokens, ?_, ?_⟩
  · generalize Script.interpret 3 "x = \"b\" ;\n print(x) ;" = r at hsame
    cases hsame with
    | some h =>
      cases h with
      | ok hvalue => rw [hvalue]
  · exact ((hstatements [.expr (.literal .none {}) {}] _ rfl 2 {}).1 {}).1 rfl

end FlatScript
