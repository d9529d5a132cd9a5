/-
# Reading is safe and ends

Whatever a source is, nothing goes wrong while it is read, and the reading comes to an end.  Every
lexeme can be cut out of the source, and no check of a reader fails: the bounds are not used up,
every round of a loop takes a lexeme, and nothing is drawn once the end of the input has become the
current lexeme.  So two lexemes more are drawn than there are tokens, if the source is accepted, and
no more than that if it is refused.

* `Alike.eq_faultless` : a reader that checks itself finds no fault if it goes in lockstep with one
  that does not;
* `RunsToEnd` : how a run on a source ends, and `reading_ends` : that all runs do so;
* `nothing_goes_wrong` : that no lexeme is cut in the wrong place and no check fails.
-/
import FlatScript.Proofs.Cutting
import FlatScript.Proofs.Lookahead

namespace FlatScript

open Grammar

/-! ## Readers that check themselves -/

namespace Checked

/-- The parser of programs, with its checks. -/
abbrev program : ℕ → Checked Cursor Program := Parser.program

/-- The parser of single expressions, with its checks. -/
abbrev soleExpression : ℕ → Checked Cursor Expr := Parser.soleExpression

/-- What a reader that checks itself makes of a source. -/
abbrev parse {α : Type} (reader : ℕ → Checked Cursor α) (source : String) : Except Stop α :=
  Parser.parse reader source

/-- A result without a fault. -/
def faultless {σ α : Type} : EStateM.Result ParseError (Window σ) α →
    EStateM.Result Stop (Window σ) α
  | .ok a w => .ok a w
  | .error e w => .error (.refused e) w

end Checked

/-- A feed goes with itself. -/
def Pairing.same (σ : Type) [Feed σ] : Pairing σ σ where
  move := id
  keepsUnion := keepsUnion_id
  feeds s t := s = t
  draw := by
    rintro s _ rfl
    exact ⟨rfl, rfl⟩

section
variable {σ : Type} [Feed σ] {w v : Window σ}

/-- Windows that show the same in front of the same feed are the same. -/
theorem Window.Alike.eq (h : w.Alike (.same σ) v) : w = v := by
  obtain ⟨feed, previous, current, next, drawn⟩ := w
  obtain ⟨hfeed, hprevious, hcurrent, hnext, hdrawn⟩ := h
  obtain rfl : feed = v.feed := hfeed
  obtain rfl : previous = v.previous := hprevious
  obtain rfl : current = v.current := hcurrent
  obtain rfl : next = v.next := hnext
  obtain rfl : v.drawn = drawn := hdrawn
  rfl

/-- **No fault is found** by a reader that goes in lockstep with one that looks for none. -/
theorem Alike.eq_faultless {α : Type} {R : α → α → Prop} {total m : ℕ}
    {r : EStateM.Result ParseError (Window σ) α} {r' : EStateM.Result Stop (Window σ) α}
    (h : Alike (.same σ) R total m r r') (hR : ∀ a b, R a b → a = b) :
    r' = Checked.faultless r := by
  cases h with
  | ok hvalue h _ =>
    rw [hR _ _ hvalue, h.toAlike.eq]
    rfl
  | @error e e' w v herror h _ =>
    have herror : e = e' := by
      rw [← e.relocate_id, ← e'.relocate_id]
      exact herror
    rw [herror, h.eq]
    rfl

end

/-! ## Sources -/

section
variable {α : Type} {source : String} {p : ℕ → Parser Cursor α} {q : ℕ → Checked Cursor α}
  {bound : ℕ}

/-- How the run of a parser on a source ends. -/
structure RunsToEnd (source : String) (p : ℕ → Parser Cursor α) (q : ℕ → Checked Cursor α)
    (bound : ℕ) : Prop where
  /-- The run of the checked parser is the same, so no check fails: a token that was seen is there,
  the window is not moved past the end of the input, every primary expression, statement, block and
  round of a loop takes a lexeme, and the bound is not used up. -/
  faultless : Parser.runOn q (Cursor.ofString source) bound =
    Checked.faultless (Parser.runOn p (Cursor.ofString source) bound)
  /-- The bound makes no difference. -/
  outcome : Parser.outcome (Parser.runOn p (Cursor.ofString source) bound) = Parser.parse p source
  /-- A source is accepted when all its tokens have been drawn, and two lexemes more. -/
  accepts : ∀ a w, Parser.runOn p (Cursor.ofString source) bound = .ok a w →
    w.drawn = (Lexeme.all (.ofString source)).length + 2
  /-- A source is refused no later than that, even if there are tokens behind a character that
  begins none. -/
  refuses : ∀ e w, Parser.runOn p (Cursor.ofString source) bound = .error e w →
    w.drawn ≤ (Lexeme.readable (.ofString source)).length + 2

/-- A parser comes to its end if it goes in lockstep with itself, with its checks and with other
bounds, and accepts nothing but all tokens up to the end of the input. -/
theorem RunsToEnd.of_alike {β : Type} {view : α → β} {L : Language β} {last : Lexeme}
    {R : α → α → Prop} {m k : ℕ} (hR : ∀ a b, R a b → a = b)
    (hchecked : Alike (.same Cursor) R ((Lexeme.readable (.ofString source)).length + 2) m
      (Parser.runOn p (Cursor.ofString source) bound)
      (Parser.runOn q (Cursor.ofString source) bound))
    (hbound : Alike (.same Cursor) R ((Lexeme.readable (.ofString source)).length + 2) k
      (Parser.runOn p (Cursor.ofString source) bound)
      (Parser.runOn p (Cursor.ofString source) (source.length + 1)))
    (hclosing : ∀ (w : Window Cursor) a w', p bound w = .ok a w' → w'.current.token = .endOfInput)
    (hverdict : Verdict view L (Lexeme.all (.ofString source)) last (Parser.parse p source)) :
    RunsToEnd source p q bound := by
  have houtcome := hbound.outcomes.eq hR
  refine ⟨hchecked.eq_faultless hR, houtcome, fun a w hok => ?_,
    fun e w herror => (herror ▸ hchecked).drawn_le⟩
  -- Nothing is left in front of the end, and nothing was refused.
  have hreadable : Lexeme.readable (.ofString source) = Lexeme.all (.ofString source) := by
    refine List.takeWhile_eq_self_iff.2 fun l hl => ?_
    rw [Parser.parse, ← houtcome, hok] at hverdict
    rw [hverdict.1 l hl]
    rfl
  have hend : w.current.token = .endOfInput := by
    rcases Parser.runOn_cases p (Cursor.ofString source) bound with ⟨i, e, w', -, h, -⟩ |
      ⟨w', h, -⟩
    · cases hok.symm.trans h
    · exact hclosing w' a w (h.symm.trans hok)
  rw [hok] at hchecked
  obtain ⟨n, -, hw⟩ := hchecked.left
  have hdrawn := hw.drawn
  rw [hw.eq_zero_iff.2 hend, hreadable] at hdrawn
  exact hdrawn

end

section
variable {source : String} {bound : ℕ} (hbound : (Lexeme.all (.ofString source)).length < bound)
include hbound

theorem runsToEnd_program : RunsToEnd source Parser.program Checked.program bound := by
  obtain ⟨last, -, -, hverdict⟩ := verdict_program source
  have hfeeds : (Pairing.same Cursor).feeds (.ofString source) (.ofString source) := rfl
  have hsource := Nat.lt_succ_of_le (Lexeme.length_all_le (.ofString source))
  exact .of_alike (fun _ _ => SameStmts.eq_of_id) (runOn_program_alike hfeeds hbound hbound)
    (runOn_program_alike hfeeds hbound hsource) (fun _ _ _ => statements_closing) hverdict

theorem runsToEnd_soleExpression :
    RunsToEnd source Parser.soleExpression Checked.soleExpression bound := by
  obtain ⟨last, -, -, hverdict⟩ := verdict_expression source
  have hfeeds : (Pairing.same Cursor).feeds (.ofString source) (.ofString source) := rfl
  have hsource := Nat.lt_succ_of_le (Lexeme.length_all_le (.ofString source))
  exact .of_alike (fun _ _ => SameExpr.eq_of_id) (runOn_soleExpression_alike hfeeds hbound hbound)
    (runOn_soleExpression_alike hfeeds hbound hsource) (fun _ _ _ => soleExpression_closing)
    hverdict

end

/-- A bound that is too small is used up, and the checked parser reports it. -/
example : (match Parser.runOn Checked.program (Cursor.ofString "x;") 1 with
    | .error (.failed .exhausted) _ => true
    | _ => false) = true := by
  decide +kernel

/-- **Reading ends.**  With every bound greater than the number of its lexemes, as the length of a
source is if one is added, a source is read to an end as a program and as an expression. -/
theorem reading_ends (source : String) (bound : ℕ)
    (hbound : (Lexeme.all (.ofString source)).length < bound) :
    RunsToEnd source Parser.program Checked.program bound ∧
      RunsToEnd source Parser.soleExpression Checked.soleExpression bound :=
  ⟨runsToEnd_program hbound, runsToEnd_soleExpression hbound⟩

/-- An update is accepted as a program when its three lexemes and two more have been drawn.  As an
expression it is refused, but not later. -/
theorem reading_ends_update :
    (∃ program w, Parser.runOn Parser.program (Cursor.ofString "x++;") 4 = .ok program w ∧
      w.drawn = 5) ∧
    ∃ e w, Parser.runOn Parser.soleExpression (Cursor.ofString "x++;") 4 = .error e w ∧
      w.drawn ≤ 5 := by
  have hlexemes : Lexeme.all (.ofString "x++;") = [⟨.name "x", ⟨⟨0, 1, 1⟩, ⟨1, 1, 2⟩⟩⟩,
      ⟨.symbol .plusPlus, ⟨⟨1, 1, 2⟩, ⟨3, 1, 4⟩⟩⟩,
      ⟨.symbol .semicolon, ⟨⟨3, 1, 4⟩, ⟨4, 1, 5⟩⟩⟩] := by decide +kernel
  have hreadable : Lexeme.readable (.ofString "x++;") = Lexeme.all (.ofString "x++;") := by
    rw [Lexeme.readable, hlexemes]
    rfl
  have haccepts : (Program.parse "x++;").isOk = true := by decide +kernel
  have hrefuses : (Expr.parse "x++;").isOk = false := by decide +kernel
  obtain ⟨hprogram, hexpression⟩ := reading_ends "x++;" 4 (by rw [hlexemes]; decide)
  constructor
  · cases hrun : Parser.runOn Parser.program (Cursor.ofString "x++;") 4 with
    | ok program w =>
      have hdrawn := hprogram.accepts program w hrun
      rw [hlexemes] at hdrawn
      exact ⟨program, w, rfl, hdrawn⟩
    | error e w =>
      rw [Program.parse, ← hprogram.outcome, hrun] at haccepts
      cases haccepts
  · cases hrun : Parser.runOn Parser.soleExpression (Cursor.ofString "x++;") 4 with
    | ok value w =>
      rw [Expr.parse, ← hexpression.outcome, hrun] at hrefuses
      cases hrefuses
    | error e w =>
      have hdrawn := hexpression.refuses e w hrun
      rw [hreadable, hlexemes] at hdrawn
      exact ⟨e, w, rfl, hdrawn⟩

/-! ## No faults -/

/-- A checked parser makes of a source what the parser makes of it, if it comes to its end. -/
theorem RunsToEnd.parse_eq {α : Type} {source : String} {p : ℕ → Parser Cursor α}
    {q : ℕ → Checked Cursor α} (h : RunsToEnd source p q (source.length + 1)) :
    Checked.parse q source = (Parser.parse p source).mapError .refused := by
  rw [Checked.parse, Parser.parse, h.faultless, ← h.outcome]
  cases Parser.runOn p (Cursor.ofString source) (source.length + 1) <;> rfl

/-- **Nothing goes wrong.**  In front of every lexeme of a source, and at its end, the next lexeme
is cut out of the source as it is read; and a parser that checks what it takes for granted reads
every source as the parser does, without a fault. -/
theorem nothing_goes_wrong (source : String) :
    (∀ k, Lexeme.cutNext source (Cursor.behind source k) =
        .ok (Lexeme.next (Cursor.behind source k)) ∧
      Cursor.CutsTokens source ((Cursor.behind source k).takeWhile isWhiteSpace).2) ∧
    Checked.parse Checked.program source = (Program.parse source).mapError .refused ∧
    Checked.parse Checked.soleExpression source = (Expr.parse source).mapError .refused := by
  refine ⟨fun k => ?_, ?_⟩
  · obtain ⟨front, hfront⟩ := Cursor.exists_moved_behind source k
    have hstart := hfront.trans (Cursor.moved_takeWhile (Cursor.behind source k) isWhiteSpace)
    exact ⟨Lexeme.cutNext_eq hfront, hstart.cutsTokens⟩
  · have hbound : (Lexeme.all (.ofString source)).length < source.length + 1 :=
      Nat.lt_succ_of_le (Lexeme.length_all_le _)
    exact ⟨(runsToEnd_program hbound).parse_eq, (runsToEnd_soleExpression hbound).parse_eq⟩

end FlatScript
