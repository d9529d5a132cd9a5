/-
# Words of the grammar

What the tokens of an expression, a statement or a program look like as a sequence.  They are tokens
that a source can really hold, a statement is closed by its last token, and where it is closed does
not depend on what stands behind it, unless that is an `else`.  So programs can be put one behind
the other, and taken apart again.

* `Program.parse_iff` : a source is read exactly if its tokens are a program;
* `Statement.determined` : a statement can be told from what follows it;
* `Statements.split` : a program that begins with another one goes on with a program.
-/
import FlatScript.Proofs.Parsing
import FlatScript.Proofs.Scanning

namespace FlatScript

open Grammar

/-! ## The tokens of words -/

/-- A token of the language: not the end of the input, nor a character that was not recognized. -/
def Token.Proper (t : Token) : Prop :=
  t ≠ .endOfInput ∧ ∀ c, t ≠ .unrecognized c

/-- Whether a lexeme is proper is a matter of its token. -/
theorem Lexeme.proper_iff {l : Lexeme} : l.Proper ↔ l.token.Proper := by
  have herror : l.error? = none ↔ ∀ c, l.token ≠ .unrecognized c := by
    unfold Lexeme.error?
    split
    · rename_i c hc
      exact ⟨nofun, fun h => absurd hc (h c)⟩
    · rename_i hne
      exact ⟨fun _ => hne, fun _ => rfl⟩
  exact ⟨fun h => ⟨h.not_end, herror.1 h.recognized⟩, fun h => ⟨h.1, herror.2 h.2⟩⟩

@[simp] theorem Token.proper_symbol (mark : Symbol) : (Token.symbol mark).Proper :=
  ⟨nofun, nofun⟩

@[simp] theorem Token.proper_keyword (word : Keyword) : (Token.keyword word).Proper :=
  ⟨nofun, nofun⟩

@[simp] theorem Token.proper_name (x : String) : (Token.name x).Proper :=
  ⟨nofun, nofun⟩

@[simp] theorem Token.proper_text (s : String) : (Token.text s).Proper :=
  ⟨nofun, nofun⟩

@[simp] theorem BinaryOp.proper_token (op : BinaryOp) : op.token.Proper := by
  cases op <;> simp [BinaryOp.token]

namespace Grammar

/-- The token of a leaf is one that a source can have. -/
theorem Leaf.proper {t : Token} {e : Expr} (h : Leaf t e) : t.Proper := by
  cases h <;> exact ⟨nofun, nofun⟩

/-- The tokens of an expression are ones that a source can have, of whatever stratum it is. -/
theorem Expression.proper {s : Stratum} {ts : List Token} {e : Expr} (h : Expression s ts e) :
    ∀ t ∈ ts, t.Proper := by
  induction h with
  | leaf h => simpa using h.proper
  | group _ ih => simpa [or_imp, forall_and] using ih
  | single _ _ ih => exact ih
  | chain _ _ _ _ ihl ihr => simpa [or_imp, forall_and] using ⟨ihl, ihr⟩

theorem Items.proper {ts : List Token} {items : List Expr × Option Expr} (h : Items ts items) :
    ∀ t ∈ ts, t.Proper := by
  induction h with
  | stop => exact nofun
  | terminator s => simp
  | item he _ ih => simpa [or_imp, forall_and] using ⟨he.proper, ih⟩

theorem Change.proper {x : String} {ts : List Token} {s : Stmt} (h : Change x ts s) :
    ∀ t ∈ ts, t.Proper := by
  cases h with
  | assign he => simpa using he.proper
  | increment => simp
  | decrement => simp

mutual

/-- **The words of statements** are made of tokens that a source can have, at any depth. -/
theorem Statement.proper : ∀ {ts : List Token} {s : Stmt}, Statement ts s → ∀ t ∈ ts, t.Proper
  | _, _, .print he hs => by simpa [or_imp, forall_and] using ⟨he.proper, hs.proper⟩
  | _, _, .change h => by simpa [or_imp, forall_and] using h.proper
  | _, _, .expr he => by simpa [or_imp, forall_and] using he.proper
  | _, _, .branch hc hb ha => by
    simpa [or_imp, forall_and] using ⟨hc.proper, hb.proper, ha.proper⟩
  | _, _, .whileLoop hc hb => by simpa [or_imp, forall_and] using ⟨hc.proper, hb.proper⟩
  | _, _, .forLoop he hc hp hb => by
    simpa [or_imp, forall_and] using ⟨he.proper, hc.proper, hp.proper, hb.proper⟩

theorem Alternative.proper : ∀ {ts : List Token} {a : Option (List Stmt)}, Alternative ts a →
    ∀ t ∈ ts, t.Proper
  | _, _, .absent => nofun
  | _, _, .present hb => by simpa using hb.proper

theorem Block.proper : ∀ {ts : List Token} {b : List Stmt}, Block ts b → ∀ t ∈ ts, t.Proper
  | _, _, .braces h => by simpa [or_imp, forall_and] using h.proper

/-- The words of programs are made of such tokens. -/
theorem Statements.proper : ∀ {ts : List Token} {b : List Stmt}, Statements ts b →
    ∀ t ∈ ts, t.Proper
  | _, _, .nil => nofun
  | _, _, .cons hs hss => by simpa [or_imp, forall_and] using ⟨hs.proper, hss.proper⟩

end

end Grammar

/-- A source is read as a program exactly if its tokens are a program. -/
theorem Program.parse_iff {source : String} {b : Program} :
    (∃ p, Program.parse source = .ok p ∧ p.bare = b) ↔ Statements (tokensOf source.toList) b := by
  obtain ⟨last, hlast, -, hverdict⟩ := verdict_program source
  rw [hverdict.ok_iff hlast fun l => Lexeme.token_ne_of_mem_all]
  refine ⟨And.right, fun h => ⟨fun l hl => ?_, h⟩⟩
  have hl : l.token ∈ tokensOf source.toList := List.mem_map_of_mem hl
  exact (Lexeme.proper_iff.2 (h.proper _ hl)).recognized

/-! ## Where a statement ends -/

/-- The last of some tokens is a semicolon or a closing brace. -/
def Sealed (ts : List Token) : Prop :=
  ∃ us t, Seals t ∧ ts = us ++ [t]

/-- Only the end of a word counts. -/
theorem Sealed.append {vs : List Token} (us : List Token) : Sealed vs → Sealed (us ++ vs) := by
  rintro ⟨ws, t, ht, rfl⟩
  exact ⟨us ++ ws, t, ht, (List.append_assoc ..).symm⟩

namespace Grammar

/-- A block ends with its brace. -/
theorem Block.sealed {ts : List Token} {b : List Stmt} (h : Block ts b) : Sealed ts := by
  cases h
  exact ⟨_, _, .rightBrace, rfl⟩

/-- Every statement is closed by its last token. -/
theorem Statement.sealed {ts : List Token} {s : Stmt} (h : Statement ts s) : Sealed ts := by
  have hsemicolon : ∀ us, Sealed (us ++ [.symbol .semicolon]) := fun us => ⟨us, _, .semicolon, rfl⟩
  cases h with
  | print =>
    rw [show ∀ us : List Token, us ++ [.symbol .rightParen, .symbol .semicolon] =
      us ++ [.symbol .rightParen] ++ [.symbol .semicolon] from fun us => by simp]
    exact hsemicolon _
  | change => exact hsemicolon _
  | expr => exact hsemicolon _
  | branch _ hb ha =>
    cases ha with
    | absent =>
      rw [List.append_nil]
      exact hb.sealed.append _
    | present hb' => exact (hb'.sealed.append [.keyword .otherwise]).append _
  | whileLoop _ hb => exact hb.sealed.append _
  | forLoop _ _ _ hb => exact hb.sealed.append _

/-- So is every program, unless it is empty. -/
theorem Statements.sealed {ts : List Token} {b : List Stmt} (h : Statements ts b) {t : Token}
    (ht : ts.getLast? = some t) : Seals t := by
  induction b generalizing ts with
  | nil =>
    cases h
    cases ht
  | cons s b ih =>
    cases h with
    | @cons ts us _ _ hs hss =>
      rw [List.getLast?_append, Option.or_eq_some_iff] at ht
      rcases ht with ht | ⟨-, ht⟩
      · exact ih hss ht
      · obtain ⟨vs, t', hseals, rfl⟩ := hs.sealed
        rw [List.getLast?_concat] at ht
        exact Option.some.inj ht ▸ hseals

/-- Programs can be put one behind the other. -/
theorem Statements.append {ts us : List Token} {b c : List Stmt} (h : Statements ts b)
    (h' : Statements us c) : Statements (ts ++ us) (b ++ c) := by
  induction b generalizing ts with
  | nil =>
    cases h
    exact h'
  | cons s b ih =>
    cases h with
    | cons hs hss =>
      rw [List.append_assoc]
      exact .cons hs (ih hss)

end Grammar

/-! ## A window in front of some tokens -/

/-- What was taken from an input, and the lexeme behind it, are its first lexemes; the end of the
input may be the last one. -/
theorem prefix_of_taken {ls used : List Lexeme} {last : Lexeme} {σ : Type} [Feed σ]
    {w w' : Window σ} (hlast : last.token = .endOfInput)
    (hw : w.ahead = ls ++ₛ Stream'.const last) (h : w.ahead = used ++ₛ w'.ahead)
    (hused : ∀ l ∈ used, l.Proper) :
    used ++ [w'.current] <+: ls ++ [last] := by
  rw [hw] at h
  obtain ⟨hle, htake⟩ := take_of_append hlast h hused
  have hcurrent : (ls ++ [last])[used.length]? = some w'.current := by
    rw [getElem?_append_last hle]
    exact congrArg some (get_of_append h 0).symm
  have hfront : used ++ [w'.current] = (ls ++ [last]).take (used.length + 1) := by
    rw [List.take_add_one, hcurrent, List.take_append_of_le_length hle, ← htake]
    rfl
  rw [hfront]
  exact List.take_prefix ..

/-- There is a window in front of any tokens of the language. -/
theorem exists_window {ts : List Token} (hts : ∀ t ∈ ts, t.Proper) :
    ∃ (w : Window (List Lexeme)) (ls : List Lexeme) (last : Lexeme), tokens ls = ts ∧
      last.token = .endOfInput ∧ w.ahead = ls ++ₛ Stream'.const last ∧
      (∀ i, (w.ahead.get i).error? = none) ∧ w.Clear ∧ w.Within (ts.length + 1) := by
  obtain ⟨ls, hls⟩ : ∃ ls : List Lexeme, tokens ls = ts := ⟨ts.map (⟨·, {}⟩), by
    rw [tokens, List.map_map]
    exact List.map_id ts⟩
  have hget : ∀ i, ((ls ++ₛ Stream'.const (⟨.endOfInput, {}⟩ : Lexeme)).get i).error? = none := by
    intro i
    rw [get_append_const]
    cases hl : ls[i]? with
    | none => rfl
    | some l =>
      have hmem : l.token ∈ ts := hls ▸ List.mem_map_of_mem (List.mem_of_getElem? hl)
      exact (Lexeme.proper_iff.2 (hts _ hmem)).recognized
  have hstream := Feed.stream_append_last ls ⟨.endOfInput, {}⟩
  rcases Parser.runOn_cases (fun _ => (pure () : Parser (List Lexeme) Unit))
      (ls ++ [⟨.endOfInput, {}⟩]) 0 with ⟨i, e, _, _, _, hbad, -⟩ | ⟨w, -, hw, hahead, -⟩
  · rw [hstream, hget] at hbad
    cases hbad
  · rw [hstream] at hahead
    refine ⟨w, ls, _, hls, rfl, hahead, fun i => hahead ▸ hget i, hw,
      Window.within_of_ahead rfl hahead ?_⟩
    rw [← hls, List.length_map]
    exact Nat.lt_succ_self _

/-! ## Taking words apart -/

namespace Grammar

/-- What may stand behind a statement: anything but an `else`. -/
def NoElse : Language Unit := fun ts _ =>
  ts.head? ≠ some (.keyword .otherwise)

instance : NoElse.Inhabited := ⟨[], (), nofun⟩

/-- What has to stand behind a program begins with anything but `else`. -/
theorem begins_noElse : NoElse.Begins (· ≠ .keyword .otherwise) := by
  rintro t ts _ h rfl
  exact h rfl

/-- **Where a statement ends.**  Of all that some tokens may begin with, only one is a statement,
provided that no `else` follows. -/
theorem Statement.determined {ts ts' k k' : List Token} {s s' : Stmt} (h : Statement ts s)
    (h' : Statement ts' s') (heq : ts ++ k = ts' ++ k') (hk : NoElse k ()) (hk' : NoElse k' ())
    (hproper : ∀ t ∈ ts ++ k, t.Proper) : ts = ts' ∧ s = s' := by
  obtain ⟨w, ls, last, hls, hlast, hahead, hgood, hw, hn⟩ := exists_window hproper
  have hend : ∀ {k}, NoElse k () → NoElse (k ++ [.endOfInput]) () := by
    intro k hk
    cases k with
    | nil => exact nofun
    | cons t k => exact hk
  have hinput : tokens (ls ++ [last]) = ts ++ (k ++ [.endOfInput]) := by
    rw [tokens_append, hls, ← List.append_assoc, ← hlast]
    rfl
  have hinput' : ts ++ (k ++ [.endOfInput]) = ts' ++ (k' ++ [.endOfInput]) := by
    rw [← List.append_assoc, heq, List.append_assoc]
  have hfront : ∀ {used : List Lexeme} {w' : Window (List Lexeme)}, w.ahead = used ++ₛ w'.ahead →
      (∀ l ∈ used, l.Proper) →
      tokens used ++ [w'.current.token] <+: ts ++ (k ++ [.endOfInput]) := by
    intro used w' hused hproper
    have hpre : tokens (used ++ [w'.current]) <+: tokens (ls ++ [last]) :=
      (prefix_of_taken hlast hahead hused hproper).map Lexeme.token
    rw [tokens_append, hinput] at hpre
    exact hpre
  -- A reader of one statement returns its meaning, and this is the meaning of both.
  have hreads := reads_statement (reads_expression _ .lowest)
    (reads_block (reads_statements (ts ++ k).length .rightBrace nofun)) (K := fun _ => NoElse)
    hw hn fun _ => begins_noElse
  unfold Reads at hreads
  split at hreads
  · obtain ⟨used, ha⟩ := hreads
    have hpre := hfront ha.ahead ha.proper
    obtain ⟨hts, hs⟩ := ha.only ts s _ h (hend hk) hpre
    obtain ⟨hts', hs'⟩ := ha.only ts' s' _ h' (hend hk') (hinput' ▸ hpre)
    exact ⟨hts.trans hts'.symm, hs.trans hs'.symm⟩
  · obtain ⟨used, hr⟩ := hreads
    obtain ⟨ws, hws⟩ := hfront hr.ahead hr.proper
    rw [← hr.got] at hws
    exact absurd ⟨ws, (), ts, s, _, h, hend hk, hws⟩ hr.misfit
  · obtain ⟨used, hb⟩ := hreads
    obtain ⟨next, bad, rest, hstop, -, hbad⟩ := hb.ahead
    have hget : w.ahead.get (used.length + 1) = bad := by
      rw [hstop, Stream'.append_append_stream, Stream'.get_append_right]
      rfl
    rw [← hget, hgood] at hbad
    cases hbad

/-- A program itself begins with anything but `else`, so it may stand behind another one. -/
theorem Statements.noElse {ts : List Token} {b : List Stmt} (h : Statements ts b) :
    NoElse ts () := by
  cases ts with
  | nil => exact nofun
  | cons t ts => exact fun ht => begins_statements t ts b h (Option.some.inj ht)

/-- **Programs are put one behind the other.**  A program that begins with another program goes on
with a program, unless it goes on with an `else`, and its statements are those of both. -/
theorem Statements.split {ts us : List Token} {b c : List Stmt} (h : Statements ts b)
    (h' : Statements (ts ++ us) c) (hus : NoElse us ()) :
    ∃ d, Statements us d ∧ c = b ++ d := by
  induction b generalizing ts c with
  | nil =>
    cases h
    exact ⟨c, h', rfl⟩
  | cons s b ih =>
    cases h with
    | @cons ts vs _ _ hs hss =>
      have hproper := h'.proper
      have hbehind : NoElse (vs ++ us) () := by
        cases vs with
        | nil => exact hus
        | cons t vs => exact hss.noElse
      generalize hall : ts ++ vs ++ us = all at h' hproper
      rw [List.append_assoc] at hall
      cases h' with
      | nil =>
        obtain ⟨rfl, -⟩ := List.append_eq_nil_iff.1 hall
        exact absurd hs Statement.ne_nil
      | @cons ts' vs' s' _ hs' hss' =>
        obtain ⟨rfl, rfl⟩ := hs.determined hs' hall hbehind hss'.noElse (hall ▸ hproper)
        obtain rfl := List.append_cancel_left hall
        obtain ⟨d, hd, rfl⟩ := ih hss hss'
        exact ⟨d, hd, rfl⟩

end Grammar

end FlatScript
