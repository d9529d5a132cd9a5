/-
# What it means to read a language

A language says which sequences of tokens are its words, and what each word means.  A parser
reads a language from a window if its outcome is the only one that fits the lexemes ahead, given
what may stand behind the word:

* it returns a result only if the lexemes that it took are a word with this meaning, and no other
  word could begin with them and the lexeme behind them (`Accepts`);
* it refuses a token only if no word can go on with it, while words can go on with every token
  that it says it expected (`Refuses`);
* it stops at a character that is no token only if the lexemes that it took are the beginning of
  a word (`Blocks`).

All three are said of the word together with its context, a language for each meaning that the
word may have, so that readings can be put one behind the other: `Reads.bind` is the rule for
that, and `Reads.of_branch` the rule for a decision on the current lexeme.
-/
import FlatScript.Proofs.Grammar
import FlatScript.Parser
import Mathlib.Data.Stream.Init

namespace FlatScript

open Grammar

/-! ## Lexemes ahead -/

section
variable {σ : Type} [Feed σ]

/-- The lexemes that a feed gives out, one after the other. -/
def Feed.stream (feed : σ) : Stream' Lexeme :=
  Stream'.corec' Feed.draw feed

/-- A feed gives out the lexeme that is drawn first, and then what is behind it. -/
theorem Feed.stream_eq (feed : σ) :
    Feed.stream feed = [(Feed.draw feed).1] ++ₛ Feed.stream (Feed.draw feed).2 :=
  Stream'.corec'_eq Feed.draw feed

/-- The lexemes from the current one on. -/
def Window.ahead (w : Window σ) : Stream' Lexeme :=
  [w.current, w.next] ++ₛ Feed.stream w.feed

/-- Both lexemes of a window are tokens or the end of the input. -/
structure Window.Clear (w : Window σ) : Prop where
  current : w.current.error? = none
  next : w.next.error? = none

/-- A lexeme that a reader can take: a token, and not the end of the input. -/
structure Lexeme.Proper (lexeme : Lexeme) : Prop where
  not_end : lexeme.token ≠ .endOfInput
  recognized : lexeme.error? = none

/-- The tokens of some lexemes. -/
abbrev tokens (lexemes : List Lexeme) : List Token :=
  lexemes.map Lexeme.token

theorem tokens_append (ls ms : List Lexeme) : tokens (ls ++ ms) = tokens ls ++ tokens ms :=
  List.map_append

/-- The current lexeme is the first one ahead, whatever was taken up to a later window. -/
theorem Window.append_current {w w' : Window σ} {used : List Lexeme}
    (h : w.ahead = used ++ₛ w'.ahead) : ∃ ls, used ++ [w'.current] = w.current :: ls := by
  cases used with
  | nil =>
    have hhead : w.current = w'.current := congrFun h 0
    exact ⟨[], by rw [hhead]; rfl⟩
  | cons l used =>
    have hhead : w.current = l := congrFun h 0
    exact ⟨used ++ [w'.current], by rw [hhead]; rfl⟩

/-- The same in tokens: what was taken, and the token behind it, begins with the current one. -/
theorem Window.current_prefix {w w' : Window σ} {used : List Lexeme}
    (h : w.ahead = used ++ₛ w'.ahead) :
    [w.current.token] <+: tokens used ++ [w'.current.token] := by
  obtain ⟨ls, hls⟩ := append_current h
  have htokens := congrArg (List.map Lexeme.token) hls
  rw [List.map_append] at htokens
  exact ⟨tokens ls, htokens.symm⟩

/-- If something was taken, it begins with the current lexeme, and the next one follows. -/
theorem Window.next_prefix {w w' : Window σ} {used : List Lexeme}
    (h : w.ahead = used ++ₛ w'.ahead) (hne : used ≠ []) :
    [w.current.token, w.next.token] <+: tokens used ++ [w'.current.token] := by
  match used, hne with
  | [l], _ =>
    have h₀ : w.current = l := congrFun h 0
    have h₁ : w.next = w'.current := congrFun h 1
    exact ⟨[], by rw [h₀, h₁]; rfl⟩
  | l :: m :: used, _ =>
    have h₀ : w.current = l := congrFun h 0
    have h₁ : w.next = m := congrFun h 1
    exact ⟨tokens used ++ [w'.current.token], by rw [h₀, h₁]; rfl⟩

section
variable {ε : Type} [Failure ε] {w : Window σ}

/-- Moving the window fails if the lexeme that would enter it is no token; it has been drawn
then. -/
theorem Parser.shift_of_some {e : LexError} (h : (Feed.draw w.feed).1.error? = some e) :
    (shift : Reader ε σ Unit) w = .error (Failure.refused (.lexical e))
      { w with feed := (Feed.draw w.feed).2, drawn := w.drawn + 1 } := by
  simp only [shift, h]

/-- A token enters the window, and the current lexeme becomes the one before. -/
theorem Parser.shift_of_none (h : (Feed.draw w.feed).1.error? = none) :
    (shift : Reader ε σ Unit) w = .ok () ⟨(Feed.draw w.feed).2, w.current.span, w.next,
      (Feed.draw w.feed).1, w.drawn + 1⟩ := by
  simp only [shift, h]

end

/-- Moving the window by one lexeme fails exactly at a character that is no token. -/
theorem Parser.shift_cases (w : Window σ) :
    (∃ e w' bad rest, (shift : Parser σ Unit) w = .error (.lexical e) w' ∧ bad.error? = some e ∧
      w.ahead = [w.current, w.next, bad] ++ₛ rest) ∨
    (∃ w', (shift : Parser σ Unit) w = .ok () w' ∧ w.ahead = [w.current] ++ₛ w'.ahead ∧
      w'.current = w.next ∧ w'.next.error? = none ∧ w'.previous = w.current.span) := by
  have hahead : w.ahead = [w.current, w.next, (Feed.draw w.feed).1] ++ₛ
      Feed.stream (Feed.draw w.feed).2 := by
    rw [Window.ahead, Feed.stream_eq]
    rfl
  cases h : (Feed.draw w.feed).1.error? with
  | some e => exact .inl ⟨e, _, _, _, shift_of_some h, h, hahead⟩
  | none => exact .inr ⟨_, shift_of_none h, hahead, rfl, h, rfl⟩

end

/-! ## Languages -/

/-- Which sequences of tokens are words, and what each of them means. -/
abbrev Language (β : Type) := List Token → β → Prop

namespace Language

variable {β γ δ : Type}

/-- The empty word, with one meaning. -/
def unit (b : β) : Language β := fun ts c => ts = [] ∧ c = b

/-- The word of one token. -/
def token (t : Token) : Language Unit := fun ts _ => ts = [t]

/-- Words of a language followed by words of another one, which may depend on what the first
words mean. -/
def bind (L : Language β) (M : β → Language γ) : Language γ := fun ts c =>
  ∃ us b vs, L us b ∧ M b vs c ∧ ts = us ++ vs

/-- There is a word. -/
class Inhabited (L : Language β) : Prop where
  exists_word : ∃ ts b, L ts b

/-- Every word is empty or begins with a token of some kind. -/
def Begins (F : Token → Prop) (L : Language β) : Prop := ∀ t ts b, L (t :: ts) b → F t

/-- Three languages one behind the other may be grouped either way. -/
theorem bind_assoc (L : Language β) (M : β → Language γ) (N : γ → Language δ) :
    (L.bind M).bind N = L.bind fun b => (M b).bind N := by
  funext ts d
  apply propext
  constructor
  · rintro ⟨_, c, ws, ⟨us, b, vs, hL, hM, rfl⟩, hN, rfl⟩
    exact ⟨us, b, vs ++ ws, hL, ⟨vs, c, ws, hM, hN, rfl⟩, List.append_assoc ..⟩
  · rintro ⟨us, b, _, hL, ⟨vs, c, ws, hM, hN, rfl⟩, rfl⟩
    exact ⟨us ++ vs, c, ws, ⟨us, b, vs, hL, hM, rfl⟩, hN, (List.append_assoc ..).symm⟩

instance (b : β) : (unit b).Inhabited := ⟨[], b, rfl, rfl⟩

instance (t : Token) : (token t).Inhabited := ⟨[t], (), rfl⟩

instance {L : Language β} {M : β → Language γ} [hL : L.Inhabited] [hM : ∀ b, (M b).Inhabited] :
    (L.bind M).Inhabited := by
  obtain ⟨us, b, hL⟩ := hL
  obtain ⟨vs, c, hM⟩ := hM b
  exact ⟨us ++ vs, c, us, b, vs, hL, hM, rfl⟩

/-- The word of one token begins with it. -/
theorem begins_token {F : Token → Prop} {t : Token} (h : F t) : (token t).Begins F := by
  intro t' ts _ hword
  cases hword
  exact h

theorem begins_unit {F : Token → Prop} (b : β) : (unit b).Begins F := by
  intro t ts c hword
  cases hword.1

/-- What a language begins with may be said less precisely. -/
theorem Begins.mono {F G : Token → Prop} {L : Language β} (hL : L.Begins F)
    (h : ∀ t, F t → G t) : L.Begins G :=
  fun t ts b hword => h t (hL t ts b hword)

/-- Words of two languages that begin with such tokens begin with them when they are put one behind
the other, even if the first one is empty. -/
theorem Begins.bind {F : Token → Prop} {L : Language β} {M : β → Language γ} (hL : L.Begins F)
    (hM : ∀ b, (M b).Begins F) : (L.bind M).Begins F := by
  rintro t ts c ⟨us, b, vs, hus, hvs, h⟩
  cases us with
  | nil => exact hM b t ts c (by rwa [h])
  | cons u us =>
    obtain ⟨rfl, -⟩ := List.cons.inj h
    exact hL t us b hus

/-- A word that is not empty hides what may begin behind it. -/
theorem Begins.bind_of_ne_nil {F : Token → Prop} {L : Language β} {M : β → Language γ}
    (hL : L.Begins F) (hne : ∀ b, ¬ L [] b) : (L.bind M).Begins F := by
  rintro t ts c ⟨us, b, vs, hus, hvs, h⟩
  cases us with
  | nil => exact absurd hus (hne b)
  | cons u us =>
    obtain ⟨rfl, -⟩ := List.cons.inj h
    exact hL t us b hus

/-- The first token of a word that is not empty is the first one of all. -/
theorem Begins.of_prefix {F : Token → Prop} {L : Language β} (hL : L.Begins F)
    (hne : ∀ b, ¬ L [] b) {t : Token} {ts k : List Token} {b : β} (hts : L ts b)
    (hpre : [t] <+: ts ++ k) : F t := by
  cases ts with
  | nil => exact absurd hts (hne b)
  | cons t' ts =>
    rw [(List.cons_prefix_cons.1 hpre).1]
    exact hL t' ts b hts

/-- A token in front decides how the words begin. -/
theorem begins_token_bind {F : Token → Prop} {t : Token} {M : Unit → Language γ} (h : F t) :
    ((token t).bind M).Begins F :=
  (begins_token h).bind_of_ne_nil fun _ hword => List.cons_ne_nil _ _ hword.symm

end Language

/-! ## Outcomes that fit -/

/-- The tokens that fit what a message says was expected. -/
inductive Expected.Fits : Expected → Token → Prop where
  | token (t : Token) : Fits (.token t) t
  | expression {t : Token} (h : StartsExpression t) : Fits .expression t
  | name (x : String) : Fits .name (.name x)
  | text (s : String) : Fits .text (.text s)
  | assign : Fits .updateClause (.symbol .equals)
  | increment : Fits .updateClause (.symbol .plusPlus)
  | decrement : Fits .updateClause (.symbol .minusMinus)

section
variable {σ : Type} [Feed σ] {α β : Type}

/-- A result fits what is ahead: the lexemes taken are a word with this meaning, and the only one
that the lexeme behind them allows. -/
structure Accepts (view : α → β) (L : Language β) (K : β → Language Unit) (w : Window σ)
    (used : List Lexeme) (a : α) (w' : Window σ) : Prop where
  ahead : w.ahead = used ++ₛ w'.ahead
  proper : ∀ l ∈ used, l.Proper
  clear : w'.Clear
  word : L (tokens used) (view a)
  only : ∀ ts b k, L ts b → K b k () → tokens used ++ [w'.current.token] <+: ts ++ k →
    ts = tokens used ∧ b = view a

/-- Refusing a token fits what is ahead: no word can go on with it, but words can go on with all
tokens that were expected. -/
structure Refuses (L : Language β) (K : β → Language Unit) (w : Window σ)
    (used : List Lexeme) (e : Unexpected) (w' : Window σ) : Prop where
  ahead : w.ahead = used ++ₛ w'.ahead
  proper : ∀ l ∈ used, l.Proper
  clear : w'.Clear
  got : e.got = w'.current.token
  span : e.span = w'.current.span
  misfit : ¬ Completable (L.bind K) (tokens used ++ [e.got])
  honest : ∀ t, e.expected.Fits t →
    t ≠ .endOfInput ∧ Completable (L.bind K) (tokens used ++ [t])

/-- Stopping at a character fits what is ahead: the lexemes taken can be completed to a word, and
the character stands behind the one that follows them. -/
structure Blocks (L : Language β) (K : β → Language Unit) (w : Window σ)
    (used : List Lexeme) (e : LexError) : Prop where
  ahead : ∃ next bad rest, w.ahead = (used ++ [next, bad]) ++ₛ rest ∧ next.error? = none ∧
    bad.error? = some e
  proper : ∀ l ∈ used, l.Proper
  fits : Completable (L.bind K) (tokens used)

/-- From this window, the parser reads the language in front of the context. -/
def Reads (view : α → β) (p : Parser σ α) (w : Window σ) (L : Language β)
    (K : β → Language Unit) : Prop :=
  match p w with
  | .ok a w' => ∃ used, Accepts view L K w used a w'
  | .error (.syntactic e) w' => ∃ used, Refuses L K w used e w'
  | .error (.lexical e) _ => ∃ used, Blocks L K w used e

end

end FlatScript
