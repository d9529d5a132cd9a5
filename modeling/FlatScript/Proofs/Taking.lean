/-
# What a parser takes

A parser that succeeds has taken some lexemes from the input, one behind the other, and has moved
the window over them.  Two windows suffice to know the span of what stands between them, since each
one keeps the span of the lexeme before it.

* `Took` : the lexemes between two windows, and `Took.span_eq` : that their hull is the span from
  the current lexeme of the first window to the previous one of the second;
* `Occurs` : some lexemes stand in an input, and `Occurs.isInfix` : if they are tokens, in front of
  its end;
* `Yields` : what a parser that succeeds takes and returns, with one rule for each way in which
  parsers are put together.
-/
import FlatScript.Proofs.Stretches
import FlatScript.Proofs.Words

namespace FlatScript

open Grammar

variable {σ : Type} {α γ : Type}

/-! ## Between two windows -/

section
variable [Feed σ] {w w' w'' : Window σ} {used used' : List Lexeme}

/-- The lexemes taken between two windows: they were ahead, and the last one of them is the one
before the current lexeme. -/
structure Took (w : Window σ) (used : List Lexeme) (w' : Window σ) : Prop where
  ahead : w.ahead = used ++ₛ w'.ahead
  previous : w'.previous = used.getLast?.elim w.previous Lexeme.span

theorem Took.refl (w : Window σ) : Took w [] w :=
  ⟨rfl, rfl⟩

theorem Took.trans (h : Took w used w') (h' : Took w' used' w'') : Took w (used ++ used') w'' := by
  refine ⟨append_ahead h.ahead h'.ahead, ?_⟩
  rw [h'.previous, h.previous, List.getLast?_append]
  cases used'.getLast? <;> rfl

/-- The span from the current lexeme to the last one taken is the hull of all of them. -/
theorem Took.span_eq (h : Took w used w') (hused : used ≠ []) :
    w.current.span.union w'.previous = hull used := by
  obtain ⟨l, ls, rfl⟩ := List.exists_cons_of_ne_nil hused
  obtain rfl : w.current = l := congrFun h.ahead 0
  rw [h.previous, hull, List.getLast?_cons]
  rfl

end

/-! ## In an input -/

/-- Some lexemes stand in an input, one behind the other. -/
def Occurs (input : Stream' Lexeme) (used : List Lexeme) : Prop :=
  ∃ front behind, input = front ++ₛ (used ++ₛ behind)

section
variable {input : Stream' Lexeme} {used used' : List Lexeme}

/-- A front of what stands in an input stands there as well. -/
theorem Occurs.left (h : Occurs input (used ++ used')) : Occurs input used := by
  obtain ⟨front, behind, h⟩ := h
  exact ⟨front, used' ++ₛ behind, by rw [h, Stream'.append_append_stream]⟩

/-- Tokens that stand in an input stand in front of its end. -/
theorem Occurs.isInfix {ls : List Lexeme} {last : Lexeme}
    (h : Occurs (ls ++ₛ Stream'.const last) used) (hlast : last.token = .endOfInput)
    (hproper : ∀ l ∈ used, l.Proper) (hused : used ≠ []) : used <:+: ls := by
  obtain ⟨front, behind, h⟩ := h
  induction front generalizing ls with
  | nil =>
    have hahead : ls ++ₛ Stream'.const last = used ++ₛ behind := h
    rw [(take_of_append hlast hahead hproper).2]
    exact (List.take_prefix ..).isInfix
  | cons l front ih =>
    cases ls with
    | nil =>
      -- Behind the end of the input there is nothing but the end of the input.
      have hconst : Stream'.const last = (l :: front ++ used) ++ₛ behind := by
        rw [Stream'.append_append_stream]
        exact h
      obtain ⟨m, ms, rfl⟩ := List.exists_cons_of_ne_nil hused
      have hget : last = m := by
        have hm := congrFun hconst (l :: front).length
        rw [Stream'.append_append_stream] at hm
        exact hm.trans (Stream'.get_append_right 0 (l :: front) (m :: ms ++ₛ behind))
      exact absurd hlast (hget ▸ hproper m (List.mem_cons_self ..)).not_end
    | cons m ls =>
      exact (ih (funext fun i => congrFun h (i + 1))).trans (List.infix_cons (List.infix_refl ls))

end

/-! ## Rules -/

/-- In an input, what a parser that succeeds takes is related to its result. -/
def Yields [Feed σ] (input : Stream' Lexeme) (p : Parser σ α) (w : Window σ)
    (Q : List Lexeme → α → Prop) : Prop :=
  ∀ front, input = front ++ₛ w.ahead → ∀ a w', p w = .ok a w' → ∃ used, Took w used w' ∧ Q used a

section
variable [Feed σ] {input : Stream' Lexeme} {w : Window σ} {p q : Parser σ α} {f : α → Parser σ γ}
  {Q R : List Lexeme → α → Prop} {S : List Lexeme → γ → Prop}

/-- What is known of a result may be weakened. -/
theorem Yields.mono (h : Yields input p w Q) (hQ : ∀ used a, Q used a → R used a) :
    Yields input p w R := by
  intro front hfront a w' hok
  obtain ⟨used, htook, ha⟩ := h front hfront a w' hok
  exact ⟨used, htook, hQ used a ha⟩

/-- Only what a parser does at this window counts. -/
theorem Yields.congr (hw : q w = p w) (h : Yields input p w Q) : Yields input q w Q := by
  intro front hfront a w' hok
  exact h front hfront a w' (hw ▸ hok)

/-- A parser that returns at once takes nothing. -/
theorem yields_pure {a : α} (h : Q [] a) : Yields input (pure a : Parser σ α) w Q := by
  intro front _ b w' hok
  obtain ⟨rfl, rfl⟩ := EStateM.Result.ok.inj hok
  exact ⟨[], .refl w, h⟩

/-- A parser that fails takes nothing that had to be accounted for. -/
theorem yields_unexpected {expected : Expected} :
    Yields input (Parser.unexpected expected : Parser σ α) w Q :=
  fun _ _ _ _ hok => nomatch hok

/-- One parser behind another takes what both take.  The second one begins at the lexeme that stands
behind what the first one took. -/
theorem Yields.bind (hp : Yields input p w Q)
    (hf : ∀ a w' used, p w = .ok a w' → Occurs input (used ++ [w'.current]) → Q used a →
      Yields input (f a) w' fun used' c => S (used ++ used') c) :
    Yields input (p >>= f) w S := by
  intro front hfront c w'' hok
  rw [Parser.bind_apply] at hok
  split at hok
  · rename_i a w' hpw
    obtain ⟨used, htook, ha⟩ := hp front hfront a w' hpw
    have hfront' : input = (front ++ used) ++ₛ w'.ahead := by
      rw [hfront, htook.ahead, Stream'.append_append_stream]
    have hoccurs : Occurs input (used ++ [w'.current]) := by
      refine ⟨front, [w'.next] ++ₛ Feed.stream w'.feed, ?_⟩
      rw [hfront, htook.ahead, Stream'.append_append_stream used]
      rfl
    obtain ⟨used', htook', hc⟩ := hf a w' used hpw hoccurs ha _ hfront' c w'' hok
    exact ⟨used ++ used', htook.trans htook', hc⟩
  · cases hok

/-- Moving the window takes the current lexeme. -/
theorem yields_advance :
    Yields input (Parser.advance : Parser σ Unit) w fun used _ => used = [w.current] := by
  intro front _ a w' hok
  rcases Parser.shift_cases w with ⟨e, w'', _, _, h, -⟩ | ⟨w'', h, hahead, -, -, hprevious⟩
  · cases h.symm.trans hok
  · obtain ⟨-, rfl⟩ := EStateM.Result.ok.inj (h.symm.trans hok)
    exact ⟨[w.current], ⟨hahead, hprevious⟩, rfl⟩

/-- Of the lexeme that is taken, the token may be all that matters. -/
theorem yields_token {t : Token} (ht : w.current.token = t) :
    Yields input (Parser.advance : Parser σ Unit) w fun used _ => tokens used = [t] := by
  refine yields_advance.mono ?_
  rintro _ _ rfl
  exact congrArg (fun t => [t]) ht

/-- Reading a given token takes the current lexeme. -/
theorem yields_consume_current {t : Token} :
    Yields input (Parser.consume t : Parser σ Unit) w
      fun used _ => used = [w.current] ∧ w.current.token = t := by
  by_cases ht : w.current.token = t
  · refine Yields.congr (p := Parser.advance) ?_ (yields_advance.mono fun _ _ h => ⟨h, ht⟩)
    rw [Parser.consume_apply, if_pos ht]
  · refine Yields.congr (p := Parser.unexpected (.token t)) ?_ yields_unexpected
    rw [Parser.consume_apply, if_neg ht]

/-- Reading a given token takes it, and it was there. -/
theorem yields_consume {t : Token} :
    Yields input (Parser.consume t : Parser σ Unit) w
      fun used _ => tokens used = [t] ∧ w.current.token = t := by
  refine yields_consume_current.mono ?_
  rintro _ _ ⟨rfl, ht⟩
  exact ⟨congrArg (fun t => [t]) ht, ht⟩

/-- The span that a parser adds is the hull of what it took. -/
theorem Yields.spanned {p : Parser σ (Span → α)}
    (h : Yields input p w fun used make => used ≠ [] ∧ Q used (make (hull used))) :
    Yields input (Parser.spanned p) w Q := by
  intro front hfront a w' hok
  rw [Parser.spanned_apply] at hok
  split at hok
  · rename_i make w'' hpw
    obtain ⟨used, htook, hused, hQ⟩ := h front hfront make w'' hpw
    obtain ⟨rfl, rfl⟩ := EStateM.Result.ok.inj hok
    exact ⟨used, htook, htook.span_eq hused ▸ hQ⟩
  · cases hok

end

/-- What a parser took from a source that it accepts, and what it made of it. -/
theorem Yields.of_parse {parser : Nat → Parser Cursor α} {source : String} {a : α}
    {Q : List Lexeme → α → Prop} (ha : Parser.parse parser source = .ok a)
    (h : ∀ w, Yields (Feed.stream (Cursor.ofString source)) (parser (source.length + 1)) w Q) :
    ∃ used behind, Feed.stream (Cursor.ofString source) = used ++ₛ behind ∧ Q used a := by
  unfold Parser.parse at ha
  rcases Parser.runOn_cases parser (Cursor.ofString source) (source.length + 1) with
    ⟨i, e, w, -, hrun, -⟩ | ⟨w, hrun, -, hahead, -⟩
  · rw [hrun] at ha
    cases ha
  · rw [hrun] at ha
    cases hp : parser (source.length + 1) w with
    | error e w' =>
      rw [hp] at ha
      cases ha
    | ok a' w' =>
      rw [hp] at ha
      obtain rfl := Except.ok.inj ha
      obtain ⟨used, htook, hQ⟩ := h w [] hahead.symm a' w' hp
      exact ⟨used, w'.ahead, hahead ▸ htook.ahead, hQ⟩

end FlatScript
