/-
# What a token takes

Reading a token takes characters from the front of a text and looks at no more than one character
behind them.  So the same token is read from the same characters if something else follows, as long
as it follows in the same way, and wherever all of that stands.

* `Follows` : what may stand in the place of the rest behind a token;
* `Scans` : a text begins with white space and a token, and `scan_cases` : that every text does,
  unless it is blank;
* `tokensOf` : the tokens of a text, in whatever place, with an equation for each of these cases;
* `tokensOf_append` : the tokens of two texts, one behind the other, where the first one is closed.
-/
import FlatScript.Proofs.WholeInput
import FlatScript.Proofs.Contents
import Mathlib.Data.List.TakeWhile

namespace FlatScript

/-! ## What may follow -/

/-- A text can take the place of another one behind a token: it is empty, or both have the same
first character, or it begins with a semicolon.  Where there was nothing, nothing may come, since a
text that was never closed would go on. -/
def Follows (rest rest' : List Char) : Prop :=
  rest' = [] ∨ rest ≠ [] ∧ (rest'.head? = rest.head? ∨ rest'.head? = some ';')

theorem Follows.refl (rest : List Char) : Follows rest rest := by
  by_cases h : rest = []
  · exact .inl h
  · exact .inr ⟨h, .inl rfl⟩

theorem Follows.append {rest : List Char} (h : rest ≠ []) (more : List Char) :
    Follows rest (rest ++ more) := by
  cases rest with
  | nil => exact absurd rfl h
  | cons c rest => exact .inr ⟨h, .inl rfl⟩

theorem Follows.trans {r₁ r₂ r₃ : List Char} (h : Follows r₁ r₂) (h' : Follows r₂ r₃) :
    Follows r₁ r₃ := by
  rcases h' with rfl | ⟨hne, h'⟩
  · exact .inl rfl
  · rcases h with rfl | ⟨hne', h⟩
    · exact absurd rfl hne
    · refine .inr ⟨hne', ?_⟩
      rcases h' with h' | h'
      · rw [h']
        exact h
      · exact .inr h'

/-- Nothing follows the end of a text but the end. -/
theorem Follows.eq_nil {rest : List Char} (h : Follows [] rest) : rest = [] := by
  rcases h with h | ⟨hne, -⟩
  · exact h
  · exact absurd rfl hne

/-- A run of characters ends in front of a rest: its first character does not belong to the run. -/
def Ends (condition : Char → Bool) (rest : List Char) : Prop :=
  ∀ c, rest.head? = some c → condition c = false

/-- A run ends where it ended before, also if a semicolon was put there. -/
theorem Ends.follows {condition : Char → Bool} {rest rest' : List Char} (h : Ends condition rest)
    (hrest : Follows rest rest') (hsemicolon : condition ';' = false) : Ends condition rest' := by
  intro c hc
  rcases hrest with rfl | ⟨-, hrest | hrest⟩
  · cases hc
  · exact h c (hrest ▸ hc)
  · obtain rfl : ';' = c := Option.some.inj (hrest.symm.trans hc)
    exact hsemicolon

/-- A run ends in front of what is left of it. -/
theorem ends_dropWhile (condition : Char → Bool) (cs : List Char) :
    Ends condition (cs.dropWhile condition) := by
  intro c hc
  have hhead := List.head?_dropWhile_not condition cs
  rw [hc] at hhead
  simpa using hhead

/-- A run of digits ends at a point. -/
theorem ends_point (cs : List Char) : Ends Char.isDigit ('.' :: cs) := by
  rintro c ⟨⟩
  rfl

/-- A run that ends in front of the rest is taken as a whole. -/
theorem Cursor.takeRun_append {condition : Char → Bool} {run rest : List Char}
    (hrun : ∀ c ∈ run, condition c = true) (hrest : Ends condition rest) (p : Position) :
    takeRun condition (run ++ rest) p = (run, ⟨rest, p.after run⟩) := by
  have htake : rest.takeWhile condition = [] ∧ rest.dropWhile condition = rest := by
    cases rest with
    | nil => exact ⟨rfl, rfl⟩
    | cons c rest =>
      have hc := hrest c rfl
      rw [List.takeWhile_cons, List.dropWhile_cons, hc]
      exact ⟨rfl, rfl⟩
  rw [takeRun_eq, List.takeWhile_append_of_pos hrun, List.dropWhile_append_of_pos hrun, htake.1,
    htake.2, List.append_nil]

/-- A run of characters of one kind in front of one of another kind can be told from it. -/
theorem run_unique {condition : Char → Bool} {cs ds k l : List Char}
    (hcs : ∀ c ∈ cs, condition c = true) (hds : ∀ d ∈ ds, condition d = true)
    (hk : Ends condition k) (hl : Ends condition l) (h : cs ++ k = ds ++ l) : cs = ds ∧ k = l := by
  have hrun := Cursor.takeRun_append hcs hk .origin
  rw [h, Cursor.takeRun_append hds hl] at hrun
  obtain ⟨rfl, hcursor⟩ := Prod.mk.inj hrun
  exact ⟨rfl, (congrArg Cursor.rest hcursor).symm⟩

/-- No run of characters of one kind is longer than the one that ends. -/
theorem length_le_of_run {condition : Char → Bool} {cs ds k l : List Char}
    (hcs : ∀ c ∈ cs, condition c = true) (hds : ∀ d ∈ ds, condition d = true)
    (hl : Ends condition l) (h : cs ++ k = ds ++ l) : cs.length ≤ ds.length := by
  -- Whatever of the kind follows behind the first run belongs to the second one.
  have hall : ∀ c ∈ cs ++ k.takeWhile condition, condition c = true := by
    intro c hc
    exact (List.mem_append.1 hc).elim (hcs c) List.mem_takeWhile_imp
  have hsplit : cs ++ k.takeWhile condition ++ k.dropWhile condition = ds ++ l := by
    rw [List.append_assoc, List.takeWhile_append_dropWhile, h]
  obtain ⟨rfl, -⟩ := run_unique hall hds (ends_dropWhile condition k) hl hsplit
  rw [List.length_append]
  exact Nat.le_add_right _ _

/-! ## Readers of single tokens -/

/-- From the front of a text, a reader takes some characters and looks at no more than one behind
them: whatever follows them, they are taken and the result is the same. -/
def Splices {α : Type} (read : Cursor → α × Cursor) (cs : List Char) : Prop :=
  ∃ a used rest, cs = used ++ rest ∧ ∀ rest', Follows rest rest' → ∀ p,
    read ⟨used ++ rest', p⟩ = (a, ⟨rest', p.after used⟩)

namespace Cursor

/-- A word ends at the first character that does not go on with it. -/
theorem splices_takeWord (first : Char) (cs : List Char) :
    Splices (fun cursor => cursor.takeWord first) cs := by
  refine ⟨.ofWord (.ofList (first :: cs.takeWhile continuesWord)), cs.takeWhile continuesWord,
    cs.dropWhile continuesWord, List.takeWhile_append_dropWhile.symm, fun rest' hrest p => ?_⟩
  have hends := (ends_dropWhile continuesWord cs).follows hrest (by decide)
  show takeWord ⟨_, p⟩ first = _
  unfold takeWord takeWhile
  dsimp only
  rw [takeRun_append (fun c => List.mem_takeWhile_imp) hends]

/-- A numeral without a point: no point follows its digits. -/
theorem takeNumeral_whole {first : Char} {whole rest : List Char}
    (hwhole : ∀ c ∈ whole, c.isDigit = true) (hrest : Ends Char.isDigit rest)
    (hpoint : rest.head? ≠ some '.') (p : Position) :
    takeNumeral ⟨whole ++ rest, p⟩ first =
      (.number (Numeral.value (first :: whole) []), ⟨rest, p.after whole⟩) := by
  have hif : takeIf ⟨rest, p.after whole⟩ '.' = (false, ⟨rest, p.after whole⟩) := by
    cases rest with
    | nil => rfl
    | cons c rest =>
      have hc : c ≠ '.' := fun h => hpoint (congrArg some h)
      exact if_neg hc
  unfold takeNumeral takeWhile
  dsimp only
  rw [takeRun_append hwhole hrest, hif]
  rfl

/-- A numeral with a point and the digits behind it. -/
theorem takeNumeral_pointed {first : Char} {whole fraction rest : List Char}
    (hwhole : ∀ c ∈ whole, c.isDigit = true) (hfraction : ∀ c ∈ fraction, c.isDigit = true)
    (hrest : Ends Char.isDigit rest) (p : Position) :
    takeNumeral ⟨whole ++ '.' :: (fraction ++ rest), p⟩ first =
      (.number (Numeral.value (first :: whole) fraction),
        ⟨rest, p.after (whole ++ '.' :: fraction)⟩) := by
  have hif : takeIf ⟨'.' :: (fraction ++ rest), p.after whole⟩ '.' =
      (true, ⟨fraction ++ rest, (p.after whole).advance '.'⟩) := rfl
  unfold takeNumeral takeWhile
  dsimp only
  rw [takeRun_append hwhole (ends_point _), hif]
  dsimp only
  rw [if_pos rfl, takeRun_append hfraction hrest, Position.after_append]
  rfl

/-- The characters behind the first digit of a numeral: more digits, perhaps with a point and the
digits behind it. -/
theorem numeral_cases (cs : List Char) :
    (∃ whole rest, cs = whole ++ rest ∧ (∀ c ∈ whole, c.isDigit = true) ∧
      Ends Char.isDigit rest ∧ rest.head? ≠ some '.') ∨
    ∃ whole fraction rest, cs = whole ++ '.' :: (fraction ++ rest) ∧
      (∀ c ∈ whole, c.isDigit = true) ∧ (∀ c ∈ fraction, c.isDigit = true) ∧
      Ends Char.isDigit rest := by
  have hwhole : ∀ c ∈ cs.takeWhile Char.isDigit, c.isDigit = true :=
    fun c => List.mem_takeWhile_imp
  have hcs : cs.takeWhile Char.isDigit ++ cs.dropWhile Char.isDigit = cs :=
    List.takeWhile_append_dropWhile
  have hends := ends_dropWhile Char.isDigit cs
  generalize cs.takeWhile Char.isDigit = whole at hwhole hcs
  generalize cs.dropWhile Char.isDigit = behind at hcs hends
  by_cases hpoint : behind.head? = some '.'
  · obtain ⟨more, rfl⟩ : ∃ more, behind = '.' :: more := List.head?_eq_some_iff.1 hpoint
    refine .inr ⟨whole, more.takeWhile Char.isDigit, more.dropWhile Char.isDigit, ?_, hwhole,
      fun c => List.mem_takeWhile_imp, ends_dropWhile Char.isDigit more⟩
    rw [List.takeWhile_append_dropWhile, hcs]
  · exact .inl ⟨whole, behind, hcs.symm, hwhole, hends, hpoint⟩

theorem splices_takeNumeral (first : Char) (cs : List Char) :
    Splices (fun cursor => cursor.takeNumeral first) cs := by
  rcases numeral_cases cs with ⟨whole, rest, rfl, hwhole, hends, hpoint⟩ |
    ⟨whole, fraction, rest, rfl, hwhole, hfraction, hends⟩
  · refine ⟨.number (Numeral.value (first :: whole) []), whole, rest, rfl,
      fun rest' hrest p => takeNumeral_whole hwhole (hends.follows hrest (by decide)) ?_ p⟩
    rcases hrest with rfl | ⟨-, hrest | hrest⟩
    · exact nofun
    · rwa [hrest]
    · rw [hrest]
      decide
  · refine ⟨.number (Numeral.value (first :: whole) fraction), whole ++ '.' :: fraction, rest, ?_,
      fun rest' hrest p => ?_⟩
    · rw [List.append_assoc, List.cons_append]
    · rw [List.append_assoc, List.cons_append]
      exact takeNumeral_pointed hwhole hfraction (hends.follows hrest (by decide)) p

/-- No symbol of two characters has a semicolon as its second one. -/
theorem pair?_semicolon (first : Char) : Symbol.pair? first ';' = none := by
  unfold Symbol.pair?
  split <;> simp_all

/-- A symbol that forms no pair with the character behind it. -/
theorem takeSymbol_alone {first : Char} {rest : List Char}
    (h : ∀ second, rest.head? = some second → Symbol.pair? first second = none) (p : Position) :
    takeSymbol ⟨rest, p⟩ first = (takeSymbol.alone first, ⟨rest, p⟩) := by
  cases rest with
  | nil => rfl
  | cons second rest =>
    unfold takeSymbol
    simp only [h second rfl]

/-- A symbol that forms a pair with the character behind it. -/
theorem takeSymbol_pair {first second : Char} {mark : Symbol}
    (h : Symbol.pair? first second = some mark) (rest : List Char) (p : Position) :
    takeSymbol ⟨second :: rest, p⟩ first = (.symbol mark, ⟨rest, p.advance second⟩) := by
  unfold takeSymbol
  simp only [h]

/-- The characters behind the first one of a symbol: it forms a pair with the next of them, or it is
alone. -/
theorem symbol_cases (first : Char) (cs : List Char) :
    (∃ second mark rest, cs = second :: rest ∧ Symbol.pair? first second = some mark) ∨
      ∀ second, cs.head? = some second → Symbol.pair? first second = none := by
  cases cs with
  | nil => exact .inr nofun
  | cons second rest =>
    cases hpair : Symbol.pair? first second with
    | some mark => exact .inl ⟨second, mark, rest, rfl, hpair⟩
    | none =>
      refine .inr ?_
      rintro _ ⟨⟩
      exact hpair

theorem splices_takeSymbol (first : Char) (cs : List Char) :
    Splices (fun cursor => cursor.takeSymbol first) cs := by
  rcases symbol_cases first cs with ⟨second, mark, rest, rfl, hmark⟩ | hnone
  · exact ⟨.symbol mark, [second], rest, rfl, fun rest' _ p => takeSymbol_pair hmark rest' p⟩
  · refine ⟨takeSymbol.alone first, [], cs, rfl, fun rest' hrest p => takeSymbol_alone ?_ p⟩
    intro second hsecond
    rcases hrest with rfl | ⟨-, hrest | hrest⟩
    · cases hsecond
    · exact hnone second (hrest ▸ hsecond)
    · obtain rfl : ';' = second := Option.some.inj (hrest.symm.trans hsecond)
      exact pair?_semicolon first

theorem splices_takeText {mark : Char} (hmark : isQuotationMark mark = true) (cs : List Char) :
    Splices (fun cursor => cursor.takeText mark) cs := by
  have hne := ne_backslash_of_isQuotationMark hmark
  rcases content_cases mark cs with ⟨body, rest, hbody, rfl⟩ | ⟨body, tail, hbody, htail, rfl⟩
  · refine ⟨.text (.ofList (denoted body)), body ++ [mark], rest, ?_, fun rest' _ p => ?_⟩
    · rw [List.append_assoc]
      rfl
    · rw [List.append_assoc]
      exact takeText_closed hbody hne rest' p
  · -- A text that is never closed takes all there is, and then nothing else may follow.
    refine ⟨.text (.ofList (denoted (body ++ tail))), body ++ tail, [],
      (List.append_nil _).symm, fun rest' hrest p => ?_⟩
    rw [hrest.eq_nil, List.append_nil]
    exact takeText_open hbody hne htail p

/-- A token is read by the reader that its first character chooses. -/
theorem takeToken_cons (first : Char) (cs : List Char) (p : Position) :
    takeToken ⟨first :: cs, p⟩ =
      if isQuotationMark first then takeText ⟨cs, p.advance first⟩ first
      else if first.isDigit then takeNumeral ⟨cs, p.advance first⟩ first
      else if startsWord first then takeWord ⟨cs, p.advance first⟩ first
      else takeSymbol ⟨cs, p.advance first⟩ first := rfl

/-- **Tokens.**  Reading a token takes its first character and perhaps more, and looks at no more
than one character behind them. -/
theorem splices_takeToken (first : Char) (cs : List Char) :
    ∃ t used rest, first :: cs = first :: used ++ rest ∧ ∀ rest', Follows rest rest' → ∀ p,
      takeToken ⟨first :: used ++ rest', p⟩ = (t, ⟨rest', p.after (first :: used)⟩) := by
  have hread : ∃ read : Cursor → Token × Cursor, Splices read cs ∧
      ∀ (cs : List Char) (p : Position),
        takeToken ⟨first :: cs, p⟩ = read ⟨cs, p.advance first⟩ := by
    by_cases hquote : isQuotationMark first
    · refine ⟨_, splices_takeText hquote cs, fun cs p => ?_⟩
      rw [takeToken_cons, if_pos hquote]
    by_cases hdigit : first.isDigit
    · refine ⟨_, splices_takeNumeral first cs, fun cs p => ?_⟩
      rw [takeToken_cons, if_neg hquote, if_pos hdigit]
    by_cases hword : startsWord first
    · refine ⟨_, splices_takeWord first cs, fun cs p => ?_⟩
      rw [takeToken_cons, if_neg hquote, if_neg hdigit, if_pos hword]
    · refine ⟨_, splices_takeSymbol first cs, fun cs p => ?_⟩
      rw [takeToken_cons, if_neg hquote, if_neg hdigit, if_neg hword]
  obtain ⟨read, ⟨t, used, rest, rfl, h⟩, heq⟩ := hread
  refine ⟨t, used, rest, rfl, fun rest' hrest p => ?_⟩
  rw [List.cons_append, heq, h rest' hrest]
  rfl

end Cursor

/-! ## White space and a token -/

/-- White space in front of a text that begins with something else is skipped. -/
theorem Lexeme.next_blank_append {blank cs : List Char}
    (hblank : ∀ c ∈ blank, isWhiteSpace c = true) (hcs : Ends isWhiteSpace cs) (p : Position) :
    next ⟨blank ++ cs, p⟩ =
      (⟨(Cursor.takeToken ⟨cs, p.after blank⟩).1,
        ⟨p.after blank, (Cursor.takeToken ⟨cs, p.after blank⟩).2.position⟩⟩,
        (Cursor.takeToken ⟨cs, p.after blank⟩).2) := by
  rw [next_eq, Cursor.takeWhile]
  dsimp only
  rw [Cursor.takeRun_append hblank hcs]

/-- A text that begins with white space and a token: what the token is and takes does not depend on
where the text stands, nor on the rest as long as something follows that may. -/
structure Scans (t : Token) (blank used rest : List Char) : Prop where
  blank : ∀ c ∈ blank, isWhiteSpace c = true
  solid : ∃ c cs, used = c :: cs ∧ isWhiteSpace c = false
  takes : ∀ rest', Follows rest rest' → ∀ p,
    Cursor.takeToken ⟨used ++ rest', p⟩ = (t, ⟨rest', p.after used⟩)

/-- Every text is blank, or begins with white space and a token. -/
theorem scan_cases (cs : List Char) :
    (∀ c ∈ cs, isWhiteSpace c = true) ∨
      ∃ t blank used rest, cs = blank ++ (used ++ rest) ∧ Scans t blank used rest := by
  have hcs : cs.takeWhile isWhiteSpace ++ cs.dropWhile isWhiteSpace = cs :=
    List.takeWhile_append_dropWhile
  have hends := ends_dropWhile isWhiteSpace cs
  cases hsolid : cs.dropWhile isWhiteSpace with
  | nil => exact .inl (List.dropWhile_eq_nil_iff.1 hsolid)
  | cons first more =>
    rw [hsolid] at hcs hends
    obtain ⟨t, used, rest, hmore, htakes⟩ := Cursor.splices_takeToken first more
    refine .inr ⟨t, cs.takeWhile isWhiteSpace, first :: used, rest, ?_, ?_⟩
    · rw [← hmore, hcs]
    · exact ⟨fun c => List.mem_takeWhile_imp, ⟨first, used, rfl, hends first rfl⟩, htakes⟩

namespace Scans

variable {t : Token} {blank used rest : List Char} (h : Scans t blank used rest)
include h

/-- Something else may follow. -/
theorem follows {rest' : List Char} (hrest : Follows rest rest') : Scans t blank used rest' :=
  ⟨h.blank, h.solid, fun rest'' hrest' => h.takes rest'' (hrest.trans hrest')⟩

/-- Other white space may stand in front. -/
theorem indent {blank' : List Char} (hblank : ∀ c ∈ blank', isWhiteSpace c = true) :
    Scans t blank' used rest :=
  ⟨hblank, h.solid, h.takes⟩

theorem used_ne_nil : used ≠ [] := by
  obtain ⟨c, cs, rfl, -⟩ := h.solid
  exact List.cons_ne_nil c cs

/-- The characters of a token are taken, and no more. -/
theorem takeToken (p : Position) :
    Cursor.takeToken ⟨used ++ rest, p⟩ = (t, ⟨rest, p.after used⟩) :=
  h.takes rest (.refl rest) p

/-- The lexeme that is read. -/
theorem next (p : Position) :
    Lexeme.next ⟨blank ++ (used ++ rest), p⟩ =
      (⟨t, ⟨p.after blank, p.after (blank ++ used)⟩⟩, ⟨rest, p.after (blank ++ used)⟩) := by
  obtain ⟨c, cs, rfl, hc⟩ := h.solid
  have hends : Ends isWhiteSpace (c :: cs ++ rest) := by
    rintro _ ⟨⟩
    exact hc
  rw [Lexeme.next_blank_append h.blank hends, h.takeToken, Position.after_append]

/-- What is scanned is a token, not the end of the input. -/
theorem ne_endOfInput : t ≠ .endOfInput := by
  rintro rfl
  have hnil := (Cursor.rest_eq_nil (congrArg Prod.fst (h.takeToken .origin))).1
  obtain ⟨c, cs, rfl, -⟩ := h.solid
  cases hnil

/-- A token that is scanned is the first of all lexemes. -/
theorem all (p : Position) :
    Lexeme.all ⟨blank ++ (used ++ rest), p⟩ =
      ⟨t, ⟨p.after blank, p.after (blank ++ used)⟩⟩ ::
        Lexeme.all ⟨rest, p.after (blank ++ used)⟩ := by
  rw [Lexeme.all, h.next, if_neg h.ne_endOfInput]

/-- Behind a token, less is left to be read. -/
theorem length_lt : rest.length < (blank ++ (used ++ rest)).length := by
  obtain ⟨c, cs, rfl, -⟩ := h.solid
  simp only [List.length_append, List.length_cons]
  omega

end Scans

/-- Behind a blank text, the end of the input is read. -/
theorem next_of_blank {cs : List Char} (h : ∀ c ∈ cs, isWhiteSpace c = true) (p : Position) :
    Lexeme.next ⟨cs, p⟩ = (⟨.endOfInput, ⟨p.after cs, p.after cs⟩⟩, ⟨[], p.after cs⟩) := by
  have hnext := Lexeme.next_blank_append h (nofun : Ends isWhiteSpace []) p
  rw [List.append_nil] at hnext
  exact hnext

/-- Nothing is read from a blank text. -/
theorem all_of_blank {cs : List Char} (h : ∀ c ∈ cs, isWhiteSpace c = true) (p : Position) :
    Lexeme.all ⟨cs, p⟩ = [] := by
  rw [Lexeme.all, next_of_blank h, if_pos rfl]

/-- Induction along the tokens of a text: on the blank text that is left behind the last one, and on
a text that begins with white space and a token, with what is known of the rest behind them. -/
@[elab_as_elim]
theorem scan_induction {motive : List Char → Prop}
    (blank : ∀ cs, (∀ c ∈ cs, isWhiteSpace c = true) → motive cs)
    (token : ∀ t front used rest, Scans t front used rest → motive rest →
      motive (front ++ (used ++ rest)))
    (cs : List Char) : motive cs := by
  induction hn : cs.length using Nat.strong_induction_on generalizing cs with
  | _ n ih =>
    rcases scan_cases cs with hblank | ⟨t, front, used, rest, rfl, hscan⟩
    · exact blank cs hblank
    · exact token t front used rest hscan (ih _ (hn ▸ hscan.length_lt) rest rfl)

/-! ## The tokens of a text -/

/-- The tokens of a text. -/
def tokensOf (cs : List Char) : List Token :=
  tokens (Lexeme.all ⟨cs, .origin⟩)

/-- The tokens of a text are the same wherever it stands. -/
theorem tokens_all (cs : List Char) (p : Position) : tokens (Lexeme.all ⟨cs, p⟩) = tokensOf cs := by
  suffices hany : ∀ q, tokens (Lexeme.all ⟨cs, p⟩) = tokens (Lexeme.all ⟨cs, q⟩) from hany .origin
  intro q
  induction cs using scan_induction generalizing p q with
  | blank cs hblank => rw [all_of_blank hblank, all_of_blank hblank]
  | token t front used rest h ih =>
    rw [h.all, h.all]
    exact congrArg (t :: ·) (ih _ _)

/-- White space holds no token. -/
theorem tokensOf_of_blank {cs : List Char} (h : ∀ c ∈ cs, isWhiteSpace c = true) :
    tokensOf cs = [] := by
  rw [tokensOf, all_of_blank h]
  rfl

/-- A token that is scanned is the first one of its text. -/
theorem Scans.tokensOf {t : Token} {blank used rest : List Char} (h : Scans t blank used rest) :
    tokensOf (blank ++ (used ++ rest)) = t :: FlatScript.tokensOf rest := by
  rw [FlatScript.tokensOf, h.all, ← tokens_all rest]
  rfl

/-- White space in front of a text adds nothing. -/
theorem tokensOf_blank_append {blank : List Char} (hblank : ∀ c ∈ blank, isWhiteSpace c = true)
    (cs : List Char) : tokensOf (blank ++ cs) = tokensOf cs := by
  rcases scan_cases cs with hcs | ⟨t, blank', used, rest, rfl, h⟩
  · rw [tokensOf_of_blank hcs, tokensOf_of_blank]
    intro c hc
    exact (List.mem_append.1 hc).elim (hblank c) (hcs c)
  · have hboth : ∀ c ∈ blank ++ blank', isWhiteSpace c = true :=
      fun c hc => (List.mem_append.1 hc).elim (hblank c) (h.blank c)
    rw [h.tokensOf, ← List.append_assoc, (h.indent hboth).tokensOf]

/-! ## Names -/

/-- No word begins with a digit. -/
theorem not_startsWord_of_isDigit {c : Char} (h : c.isDigit = true) : startsWord c = false := by
  have hdigits : ∀ n < 58, 48 ≤ n → startsWord (Char.ofNat n) = false := by decide +kernel
  have hzero : '0'.toNat = 48 := rfl
  have hnine : '9'.toNat = 57 := rfl
  rw [Char.isDigit_iff_toNat] at h
  have hc := hdigits c.toNat (by omega) (by omega)
  rwa [Char.ofNat_toNat] at hc

/-- A word that can be a name: it is not reserved, begins with a letter or a low line, and goes on
with letters, digits and low lines. -/
structure IsName (x : String) : Prop where
  free : Keyword.ofWord? x = none
  letters : ∃ c cs, x.toList = c :: cs ∧ startsWord c = true ∧ ∀ d ∈ cs, continuesWord d = true

/-- Names are read from the characters of their words. -/
theorem Scans.toList_name {x : String} {blank used rest : List Char}
    (h : Scans (.name x) blank used rest) : x.toList = used ∧ IsName x := by
  have htake := h.takeToken .origin
  obtain ⟨first, cs, rfl, -⟩ := h.solid
  rw [List.cons_append] at htake
  unfold Cursor.takeToken at htake
  dsimp only at htake
  split at htake
  · cases htake
  split at htake
  · cases htake
  split at htake
  · rename_i hword
    rw [Cursor.takeWord, Cursor.takeWhile_eq] at htake
    dsimp only at htake
    obtain ⟨htoken, hcursor⟩ := Prod.mk.inj htake
    have hcs : (cs ++ rest).takeWhile continuesWord = cs := by
      have hrest : (cs ++ rest).dropWhile continuesWord = rest := congrArg Cursor.rest hcursor
      have hall := List.takeWhile_append_dropWhile (p := continuesWord) (l := cs ++ rest)
      rw [hrest] at hall
      exact List.append_cancel_right hall
    rw [hcs, Token.ofWord] at htoken
    split at htoken
    · cases htoken
    · rename_i hfree
      obtain rfl := Token.name.inj htoken
      refine ⟨String.toList_ofList, hfree, first, cs, String.toList_ofList, hword, fun d hd => ?_⟩
      rw [← hcs] at hd
      exact List.mem_takeWhile_imp hd
  · unfold Cursor.takeSymbol Cursor.takeSymbol.alone at htake
    split at htake
    · split at htake
      · cases htake
      · split at htake <;> cases htake
    · split at htake <;> cases htake

/-- All names of a text are names. -/
theorem isName_of_mem_tokensOf {cs : List Char} {x : String} (h : .name x ∈ tokensOf cs) :
    IsName x := by
  induction cs using scan_induction with
  | blank cs hblank =>
    rw [tokensOf_of_blank hblank] at h
    cases h
  | token t front used rest hscan ih =>
    rw [hscan.tokensOf] at h
    rcases List.mem_cons.1 h with rfl | h
    · exact hscan.toList_name.2
    · exact ih h

/-! ## Texts that are closed -/

/-- A semicolon or a closing brace: the tokens that statements end with. -/
inductive Seals : Token → Prop where
  | semicolon : Seals (.symbol .semicolon)
  | rightBrace : Seals (.symbol .rightBrace)

/-- A mark that forms no pair is read wherever its character is the next one, whatever follows. -/
theorem Cursor.takeToken_of_single {c : Char} {mark : Symbol}
    (hmark : takeSymbol.alone c = .symbol mark) (hpair : ∀ second, Symbol.pair? c second = none)
    (hquote : isQuotationMark c = false) (hdigit : c.isDigit = false)
    (hword : startsWord c = false) (cs : List Char) (p : Position) :
    takeToken ⟨c :: cs, p⟩ = (.symbol mark, ⟨cs, p.advance c⟩) := by
  rw [takeToken_cons, hquote, hdigit, hword, if_neg nofun, if_neg nofun, if_neg nofun,
    takeSymbol_alone (fun second _ => hpair second), hmark]

/-- A mark that no pair of characters forms is read from its own character only. -/
theorem Cursor.first_eq_of_takeToken {mark : Symbol} {c first : Char} {cs : List Char}
    {p : Position} (hpair : ∀ d e, Symbol.pair? d e ≠ some mark)
    (hsingle : ∀ d, Symbol.single? d = some mark → d = c)
    (h : (takeToken ⟨first :: cs, p⟩).1 = .symbol mark) : first = c := by
  unfold takeToken at h
  dsimp only at h
  split at h
  · cases h
  split at h
  · cases h
  split at h
  · unfold takeWord Token.ofWord at h
    dsimp only at h
    split at h <;> cases h
  · have halone : takeSymbol.alone first = .symbol mark → first = c := by
      intro h
      unfold takeSymbol.alone at h
      split at h
      · cases h
        exact hsingle _ ‹_›
      · cases h
    unfold takeSymbol at h
    dsimp only at h
    split at h
    · split at h
      · cases h
        exact absurd ‹_› (hpair _ _)
      · exact halone h
    · exact halone h

/-- Such a mark is read from a single character, which stands for it everywhere. -/
theorem Seals.exists_char {t : Token} (h : Seals t) :
    ∃ c, (∀ cs p, Cursor.takeToken ⟨c :: cs, p⟩ = (t, ⟨cs, p.advance c⟩)) ∧
      ∀ first cs p, (Cursor.takeToken ⟨first :: cs, p⟩).1 = t → first = c := by
  have hpair : ∀ {mark : Symbol}, mark = .semicolon ∨ mark = .rightBrace →
      ∀ d e, Symbol.pair? d e ≠ some mark := by
    rintro mark hmark d e h
    unfold Symbol.pair? at h
    split at h <;> cases h <;> rcases hmark with hmark | hmark <;> cases hmark
  cases h with
  | semicolon =>
    refine ⟨';', Cursor.takeToken_of_single rfl (fun _ => rfl) (by decide) (by decide)
      (by decide +kernel), fun _ _ _ => Cursor.first_eq_of_takeToken (hpair (.inl rfl)) ?_⟩
    intro d hd
    unfold Symbol.single? at hd
    split at hd <;> first | rfl | cases hd
  | rightBrace =>
    refine ⟨'}', Cursor.takeToken_of_single rfl (fun _ => rfl) (by decide) (by decide)
      (by decide +kernel), fun _ _ _ => Cursor.first_eq_of_takeToken (hpair (.inr rfl)) ?_⟩
    intro d hd
    unfold Symbol.single? at hd
    split at hd <;> first | rfl | cases hd

/-- Whatever follows such a mark. -/
theorem Scans.of_seals {t : Token} {blank used : List Char} (h : Scans t blank used [])
    (ht : Seals t) (rest : List Char) : Scans t blank used rest := by
  obtain ⟨c, hc, hfirst⟩ := ht.exists_char
  refine ⟨h.blank, h.solid, fun rest' _ p => ?_⟩
  have htake := h.takeToken p
  obtain ⟨first, more, rfl, -⟩ := h.solid
  rw [List.cons_append] at htake
  obtain rfl : first = c := hfirst first (more ++ []) p (congrArg Prod.fst htake)
  -- The mark takes its one character, so there are no others.
  rw [hc] at htake
  obtain rfl : more = [] := by simpa using congrArg (fun r => r.2.rest) htake
  exact hc rest' p

/-- **Concatenation.**  Nothing that stands behind a text becomes a part of its last token, if that
is a semicolon or a closing brace. -/
theorem tokensOf_append {cs : List Char} (h : ∀ t, (tokensOf cs).getLast? = some t → Seals t)
    (ds : List Char) : tokensOf (cs ++ ds) = tokensOf cs ++ tokensOf ds := by
  induction cs using scan_induction with
  | blank cs hblank => rw [tokensOf_blank_append hblank, tokensOf_of_blank hblank, List.nil_append]
  | token t front used rest hscan ih =>
    rw [hscan.tokensOf] at h ⊢
    rw [List.append_assoc, List.append_assoc]
    cases rest with
    | nil =>
      have hnil : tokensOf [] = [] := tokensOf_of_blank nofun
      rw [hnil] at h ⊢
      rw [List.nil_append, (hscan.of_seals (h t rfl) ds).tokensOf]
      rfl
    | cons c rest =>
      have hlast : ∀ t', (tokensOf (c :: rest)).getLast? = some t' → Seals t' := by
        intro t' ht'
        refine h t' ?_
        rw [List.getLast?_cons, ht', Option.getD_some]
      have hscan' := hscan.follows (.append (List.cons_ne_nil c rest) ds)
      rw [hscan'.tokensOf, ih hlast, List.cons_append]

end FlatScript
