/-
# Parsers

A parser reads lexemes from a feed through a window of two: the current lexeme, which it
decides on, and the next one, which tells an assignment from an expression.  The window is
filled one lexeme at a time (`Parser.advance`), so a character that begins no token stops the
reading as soon as it would become the next lexeme, and no sooner.

A parser that fails leaves the window where it stopped: the current lexeme of that window is the
one that did not fit.

The same parser reads a source as it goes (`Parser.parse`) and a list of lexemes that were all
read beforehand (`Parser.parseList`).

Every reader comes in two forms, by what it may fail with.  A `Parser` knows errors in the source
only.  A `Checked` reader does the same steps, and checks on the way what the parser takes for
granted:

* a token that its caller has seen is there when it is taken (`Parser.expect`);
* the window is not moved once the input has ended (`Parser.advance`);
* what has to take a lexeme takes one (`Parser.progressing`, `Parser.movedSince`);
* the bounds of recursions are not used up (`Parser.exhausted`).

Nothing is checked while the window is filled, since both its places hold the end of the input at
first.
-/
import FlatScript.Fault
import FlatScript.Feed
import FlatScript.Tree

namespace FlatScript

/-- The part of the input that a parser sees, and the feed behind it. -/
structure Window (σ : Type) where
  /-- What the lexemes behind the next one are drawn from. -/
  feed : σ
  /-- The span of the lexeme before the current one. -/
  previous : Span
  current : Lexeme
  next : Lexeme
  /-- How many lexemes were drawn from the feed so far, the refused one included. -/
  drawn : Nat

/-- The window in front of a feed: nothing is drawn yet, and both places hold the end of the
input. -/
def Window.start {σ : Type} (feed : σ) : Window σ where
  feed := feed
  previous := {}
  current := ⟨.endOfInput, {}⟩
  next := ⟨.endOfInput, {}⟩
  drawn := 0

/-- A reader of lexemes: it moves the window and returns a result, or fails with an `ε`. -/
abbrev Reader (ε σ : Type) := EStateM ε (Window σ)

/-- A reader that takes for granted what could be checked. -/
abbrev Parser (σ : Type) := Reader ParseError σ

/-- A reader that checks itself. -/
abbrev Checked (σ : Type) := Reader Stop σ

namespace Parser

variable {ε σ : Type} [Failure ε] [Feed σ]

/-! ## The window -/

/-- The lexeme to decide on. -/
def current : Reader ε σ Lexeme := do
  return (← get).current

/-- The lexeme behind the current one. -/
def next : Reader ε σ Lexeme := do
  return (← get).next

/-- The span of the lexeme before the current one. -/
def previous : Reader ε σ Span := do
  return (← get).previous

/-- How many lexemes were drawn so far. -/
def drawn : Reader ε σ Nat := do
  return (← get).drawn

/-- Moves the window by one lexeme, unless the lexeme that would enter it is no token. -/
def shift : Reader ε σ Unit := fun w =>
  let (incoming, feed) := Feed.draw w.feed
  match incoming.error? with
  | some e => .error (Failure.refused (.lexical e)) { w with feed := feed, drawn := w.drawn + 1 }
  | none => .ok () ⟨feed, w.current.span, w.next, incoming, w.drawn + 1⟩

/-- Fails at the current lexeme. -/
def unexpected {α : Type} (expected : Expected) : Reader ε σ α := do
  let here ← current
  throw (Failure.refused (.syntactic ⟨expected, here.token, here.span⟩))

/-! ## Checks -/

/-- Checks that something holds, if faults are looked for. -/
def check (holds : Prop) [Decidable holds] (fault : Fault) : Reader ε σ Unit :=
  match (Failure.failed? fault : Option ε) with
  | some failure => if holds then pure () else throw failure
  | none => pure ()

/-- Moves the window over its current lexeme, which must not be the end of the input. -/
def advance : Reader ε σ Unit := do
  check ((← current).token ≠ .endOfInput) .pastEnd
  shift

/-- Checks that the window has moved since `before` lexemes had been drawn. -/
def movedSince (before : Nat) : Reader ε σ Unit := do
  check (before < (← drawn)) .stalled

/-- Checks that a reader which succeeds takes at least one lexeme. -/
def progressing {α : Type} (reader : Reader ε σ α) : Reader ε σ α := do
  let before ← drawn
  let result ← reader
  movedSince before
  return result

/-- Fails because the bound of a recursion is used up. -/
def exhausted {α : Type} : Reader ε σ α := do
  check False .exhausted
  unexpected .expression

/-! ## Single tokens -/

/-- Reads one given token. -/
def consume (token : Token) : Reader ε σ Unit := do
  if (← current).token = token then advance else unexpected (.token token)

/-- Takes a token that the caller has seen. -/
def expect (token : Token) : Reader ε σ Unit := do
  let here ← current
  check (here.token = token) (.mismatch token here.token)
  consume token

/-- Reads one given token if it is there, and says whether it was. -/
def accept (token : Token) : Reader ε σ Bool := do
  if (← current).token = token then
    advance
    return true
  else return false

/-- Reads the name of a variable. -/
def name : Reader ε σ Name := do
  let here ← current
  match here.token with
  | .name text =>
    advance
    return ⟨text, here.span⟩
  | _ => unexpected .name

/-- Gives what a reader returns the span of everything that it read. -/
def spanned {α : Type} (reader : Reader ε σ (Span → α)) : Reader ε σ α := do
  let start := (← current).span
  let make ← reader
  return make (start.union (← previous))

/-! ## Whole inputs -/

/-- Runs a reader on a feed, from its first lexeme.  The reader is given the bound for its
recursion, which has to be greater than the number of lexemes in front of the end of the input. -/
def runOn {α : Type} (reader : Nat → Reader ε σ α) (feed : σ) (bound : Nat) :
    EStateM.Result ε (Window σ) α :=
  let start : Reader ε σ α := do
    shift
    shift
    reader bound
  start.run (Window.start feed)

/-- The result of a run without the window that it leaves. -/
def outcome {α : Type} : EStateM.Result ε (Window σ) α → Except ε α
  | .ok result _ => .ok result
  | .error e _ => .error e

/-- What a reader makes of a source, which it reads as it goes. -/
def parse {α : Type} (reader : Nat → Reader ε Cursor α) (source : String) : Except ε α :=
  outcome (runOn reader (Cursor.ofString source) (source.length + 1))

/-- What a reader makes of lexemes that were all read beforehand. -/
def parseList {α : Type} (reader : Nat → Reader ε (List Lexeme) α) (lexemes : List Lexeme) :
    Except ε α :=
  outcome (runOn reader lexemes (lexemes.length + 1))

end Parser

end FlatScript
