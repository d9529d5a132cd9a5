/-
# Whole inputs

A run of a parser starts by filling the window and ends with a verdict on the whole input.  A
feed in front of lexemes gives them out in order and then repeats the last one, so a cursor and
the list of all lexemes behind it are feeds of the same lexemes.

* `Feed.stream_cursor` : reading lazily or beforehand gives out the same lexemes;
* `Parser.runOn_cases` : a run either stops at one of the first two lexemes, or starts the parser
  in front of all of them;
* `Verdict` : what an outcome says about the lexemes of the input, and `verdict_parse` : that this
  is true of every source, for a parser that reads a language up to the end of the input.
-/
import FlatScript.Proofs.ProgramReading

namespace FlatScript

open Grammar

/-! ## All lexemes of a text -/

namespace Lexeme

/-- The lexeme that ends a text. -/
theorem allWithEnd_eq (cursor : Cursor) :
    ∃ last, last.token = .endOfInput ∧ allWithEnd cursor = all cursor ++ [last] := by
  fun_induction all cursor with
  | case1 cursor h =>
    rw [allWithEnd, if_pos h]
    exact ⟨_, h, rfl⟩
  | case2 cursor h ih =>
    obtain ⟨last, hlast, heq⟩ := ih
    rw [allWithEnd, if_neg h, heq]
    exact ⟨last, hlast, rfl⟩

/-- The end of the input is not one of all lexemes. -/
theorem token_ne_of_mem_all {cursor : Cursor} {l : Lexeme} (h : l ∈ all cursor) :
    l.token ≠ .endOfInput := by
  fun_induction all cursor with
  | case1 => cases h
  | case2 cursor hne ih =>
    rcases List.mem_cons.1 h with rfl | h
    · exact hne
    · exact ih h

/-- There are no more lexemes than characters, since every token has one at least. -/
theorem length_all_le (cursor : Cursor) : (all cursor).length ≤ cursor.rest.length := by
  fun_induction all cursor with
  | case1 => exact Nat.zero_le _
  | case2 cursor h ih =>
    have hlt := length_next_lt h
    rw [List.length_cons]
    omega

end Lexeme

/-! ## Feeds of all lexemes -/

/-- Only the end of a text is read as the end of the input. -/
theorem Cursor.rest_eq_nil {cursor : Cursor} (h : cursor.takeToken.1 = .endOfInput) :
    cursor.rest = [] ∧ cursor.takeToken.2 = cursor := by
  unfold Cursor.takeToken at h ⊢
  split at h
  · rename_i hrest
    rw [hrest]
    exact ⟨rfl, rfl⟩
  · exfalso
    dsimp only at h
    split at h
    · cases h
    split at h
    · cases h
    split at h
    · unfold Cursor.takeWord Token.ofWord at h
      dsimp only at h
      split at h <;> cases h
    · unfold Cursor.takeSymbol Cursor.takeSymbol.alone at h
      split at h
      · split at h
        · cases h
        · dsimp only at h
          split at h <;> cases h
      · dsimp only at h
        split at h <;> cases h

/-- At the end of a text there is nothing to move over. -/
theorem Cursor.takeWhile_of_nil {cursor : Cursor} (h : cursor.rest = [])
    (condition : Char → Bool) : (cursor.takeWhile condition).2 = cursor := by
  obtain ⟨rest, position⟩ := cursor
  subst h
  rfl

namespace Lexeme

/-- A lexeme is what stands behind the white space, and its span is that of the token alone. -/
theorem next_eq (cursor : Cursor) :
    next cursor =
      (⟨(cursor.takeWhile isWhiteSpace).2.takeToken.1, (cursor.takeWhile isWhiteSpace).2.position,
        (cursor.takeWhile isWhiteSpace).2.takeToken.2.position⟩,
        (cursor.takeWhile isWhiteSpace).2.takeToken.2) := rfl

/-- Behind the end of a text, only the end is read again. -/
theorem next_next {cursor : Cursor} (h : (next cursor).1.token = .endOfInput) :
    next (next cursor).2 = next cursor := by
  rw [next_eq cursor] at h ⊢
  obtain ⟨hrest, hstop⟩ := Cursor.rest_eq_nil h
  rw [hstop, next_eq, Cursor.takeWhile_of_nil hrest, hstop]

/-- There is always the end of the input. -/
theorem allWithEnd_ne_nil (cursor : Cursor) : allWithEnd cursor ≠ [] := by
  obtain ⟨last, -, heq⟩ := allWithEnd_eq cursor
  rw [heq]
  exact List.append_ne_nil_of_right_ne_nil _ (List.cons_ne_nil _ _)

end Lexeme

/-- Drawing from a list takes its first lexeme, unless it is the last one. -/
theorem Feed.draw_cons (first : Lexeme) {rest : List Lexeme} (h : rest ≠ []) :
    Feed.draw (first :: rest) = (first, rest) := by
  cases rest with
  | nil => exact absurd rfl h
  | cons => rfl

/-- Drawing from the list of all lexemes behind a cursor is reading a lexeme: at the end, both
stay where they are. -/
theorem Feed.draw_allWithEnd (cursor : Cursor) :
    Feed.draw (Lexeme.allWithEnd cursor) =
      ((Lexeme.next cursor).1, Lexeme.allWithEnd (Lexeme.next cursor).2) := by
  rw [Lexeme.allWithEnd]
  by_cases h : (Lexeme.next cursor).1.token = .endOfInput
  · rw [if_pos h, Lexeme.allWithEnd, Lexeme.next_next h, if_pos h]
    rfl
  · rw [if_neg h, Feed.draw_cons _ (Lexeme.allWithEnd_ne_nil _)]

/-- A cursor and the list of all lexemes behind it give out the same lexemes. -/
theorem Feed.stream_cursor (cursor : Cursor) :
    Feed.stream cursor = Feed.stream (Lexeme.allWithEnd cursor) := by
  funext i
  -- At every place both feeds give out one lexeme and are again a cursor and its list.
  induction i generalizing cursor with
  | zero =>
    rw [Feed.stream_eq, Feed.stream_eq (Lexeme.allWithEnd cursor), Feed.draw_allWithEnd]
    rfl
  | succ i ih =>
    rw [Feed.stream_eq, Feed.stream_eq (Lexeme.allWithEnd cursor), Feed.draw_allWithEnd]
    exact ih (Lexeme.next cursor).2

/-- A list gives out its lexemes in order, and then the last one for ever. -/
theorem Feed.stream_append_last (ls : List Lexeme) (last : Lexeme) :
    Feed.stream (ls ++ [last]) = ls ++ₛ Stream'.const last := by
  induction ls with
  | nil =>
    funext i
    induction i with
    | zero => rfl
    | succ i ih =>
      rw [Feed.stream_eq]
      exact ih
  | cons l ls ih =>
    rw [List.cons_append, Feed.stream_eq, Feed.draw_cons l (by simp), ih]
    rfl

/-- So a cursor gives out all lexemes behind it, and then the end of the input for ever. -/
theorem Feed.stream_all {cursor : Cursor} {last : Lexeme}
    (h : Lexeme.allWithEnd cursor = Lexeme.all cursor ++ [last]) :
    Feed.stream cursor = Lexeme.all cursor ++ₛ Stream'.const last := by
  rw [Feed.stream_cursor, h, Feed.stream_append_last]

/-! ## Filling the window -/

/-- A run stops at one of the first two lexemes, or starts the parser in front of all of them. -/
theorem Parser.runOn_cases {σ α : Type} [Feed σ] (parser : Nat → Parser σ α) (feed : σ)
    (bound : Nat) :
    (∃ (i : Nat) (e : LexError) (w : Window σ), i ≤ 1 ∧
      runOn parser feed bound = .error (.lexical e) w ∧
      ((Feed.stream feed).get i).error? = some e ∧
      ∀ j < i, ((Feed.stream feed).get j).error? = none) ∨
    ∃ w, runOn parser feed bound = parser bound w ∧ w.Clear ∧ w.ahead = Feed.stream feed ∧
      w.previous = {} := by
  have hrun : runOn parser feed bound =
      (shift >>= fun _ => shift >>= fun _ => parser bound) (Window.start feed) := rfl
  rw [hrun, bind_apply]
  rcases shift_cases (Window.start feed) with ⟨e, w, bad, rest, h, hbad, hahead⟩ |
    ⟨w, h, hahead, hcurrent, hnext, -⟩
  · have hfirst : (Feed.stream feed).get 0 = bad := congrFun hahead 2
    rw [h]
    exact .inl ⟨0, e, w, by omega, rfl, hfirst ▸ hbad, by omega⟩
  · have hw : ∀ i, w.ahead i = (Window.start feed).ahead (i + 1) :=
      fun i => (congrFun hahead (i + 1)).symm
    rw [h]
    dsimp only
    rw [bind_apply]
    rcases shift_cases w with ⟨e, w', bad, rest, h', hbad, hahead'⟩ |
      ⟨w', h', hahead', hcurrent', hnext', hprevious⟩
    · have hfirst : (Feed.stream feed).get 0 = w.next := (hw 1).symm
      have hsecond : (Feed.stream feed).get 1 = bad := (hw 2).symm.trans (congrFun hahead' 2)
      rw [h']
      refine .inl ⟨1, e, w', by omega, rfl, hsecond ▸ hbad, fun j hj => ?_⟩
      obtain rfl : j = 0 := by omega
      rw [hfirst]
      exact hnext
    · rw [h']
      refine .inr ⟨w', rfl, ⟨hcurrent' ▸ hnext, hnext'⟩, ?_, ?_⟩
      · funext i
        exact (congrFun hahead' (i + 1)).symm.trans (hw (i + 1))
      · rw [hprevious, hcurrent]
        rfl

/-! ## Verdicts -/

section
variable {α β : Type}

/-- A token can follow: with it, the tokens are still the beginning of a word.  The end of the
input can follow a word only. -/
def Suits (L : Language β) (us : List Token) (t : Token) : Prop :=
  if t = .endOfInput then ∃ b, L us b else Completable L (us ++ [t])

/-- An error names the first lexeme that cannot follow those in front of it, the end of the input
included, and what it says was expected there could follow. -/
structure Objects (L : Language β) (ls : List Lexeme) (e : Unexpected) (k : Nat) : Prop where
  here : ls[k]? = some ⟨e.got, e.span⟩
  recognized : ∀ i ≤ k + 1, ∀ l, ls[i]? = some l → l.error? = none
  begins : Completable L (tokens (ls.take k))
  misfit : ¬ Suits L (tokens (ls.take k)) e.got
  honest : ∀ t, e.expected.Fits t → Suits L (tokens (ls.take k)) t

/-- The lexeme at a place is no token, and is the first one that is not. -/
structure FirstError (ls : List Lexeme) (e : LexError) (u : Nat) : Prop where
  bad : ∃ l, ls[u]? = some l ∧ l.error? = some e
  recognized : ∀ i < u, ∀ l, ls[i]? = some l → l.error? = none

/-- An error names the first lexeme that is no token, and nothing was wrong two lexemes before
it. -/
structure Interrupts (L : Language β) (ls : List Lexeme) (e : LexError) (u : Nat) : Prop
    extends FirstError ls e u where
  begins : Completable L (tokens (ls.take (u - 1)))

/-- An outcome is right for the lexemes `ls` of an input that `last` ends. -/
def Verdict (view : α → β) (L : Language β) (ls : List Lexeme) (last : Lexeme) :
    Except ParseError α → Prop
  | .ok a => (∀ l ∈ ls, l.error? = none) ∧ L (tokens ls) (view a) ∧
      ∀ b, L (tokens ls) b → b = view a
  | .error (.syntactic e) => ∃ k, Objects L (ls ++ [last]) e k
  | .error (.lexical e) => ∃ u, Interrupts L ls e u

variable {σ : Type} [Feed σ] {view : α → β} {L : Language β} {ls used : List Lexeme}
  {last : Lexeme} {w w' : Window σ}

/-- From this window, the parser reads the language up to the end of the input. -/
def ReadsInput (view : α → β) (p : Parser σ α) (w : Window σ) (L : Language β) : Prop :=
  match p w with
  | .ok a w' => ∃ used, w.ahead = used ++ₛ w'.ahead ∧ (∀ l ∈ used, l.Proper) ∧
      w'.current.token = .endOfInput ∧ L (tokens used) (view a) ∧
      ∀ b, L (tokens used) b → b = view a
  | .error (.syntactic e) w' => ∃ used, w.ahead = used ++ₛ w'.ahead ∧ (∀ l ∈ used, l.Proper) ∧
      w'.Clear ∧ w'.current = ⟨e.got, e.span⟩ ∧ ¬ Suits L (tokens used) e.got ∧
      ∀ t, e.expected.Fits t → Suits L (tokens used) t
  | .error (.lexical e) _ => ∃ used next bad rest, w.ahead = (used ++ [next, bad]) ++ₛ rest ∧
      next.error? = none ∧ bad.error? = some e ∧ (∀ l ∈ used, l.Proper) ∧
      Completable L (tokens used)

/-- What was taken from an input are its first lexemes. -/
theorem take_of_append {s : Stream' Lexeme} (hlast : last.token = .endOfInput)
    (h : ls ++ₛ Stream'.const last = used ++ₛ s) (hused : ∀ l ∈ used, l.Proper) :
    used.length ≤ ls.length ∧ used = ls.take used.length := by
  -- Nothing behind the last lexeme can be taken, since it would be the end of the input again.
  induction used generalizing ls with
  | nil => exact ⟨Nat.zero_le _, rfl⟩
  | cons l used ih =>
    cases ls with
    | nil =>
      obtain rfl : last = l := congrFun h 0
      exact absurd hlast (hused last (List.mem_cons_self ..)).not_end
    | cons m ls =>
      obtain rfl : m = l := congrFun h 0
      have htail : ls ++ₛ Stream'.const last = used ++ₛ s := funext fun i => congrFun h (i + 1)
      obtain ⟨hle, heq⟩ := ih htail fun l hl => hused l (List.mem_cons_of_mem _ hl)
      exact ⟨Nat.succ_le_succ hle, congrArg (m :: ·) heq⟩

/-- The lexeme at a place of an input, and the last one behind all of them. -/
theorem get_append_const (ls : List Lexeme) (last : Lexeme) (k : Nat) :
    (ls ++ₛ Stream'.const last).get k = ls[k]?.getD last := by
  by_cases hk : k < ls.length
  · rw [Stream'.get_append_left _ _ _ hk, List.getElem?_eq_getElem hk]
    rfl
  · obtain ⟨j, rfl⟩ := Nat.exists_eq_add_of_le (Nat.le_of_not_lt hk)
    rw [Stream'.get_append_right, List.getElem?_eq_none (by omega)]
    rfl

/-- Among all lexemes with the end as the last one, the end stands behind the others. -/
theorem getElem?_append_last {k : Nat} (hk : k ≤ ls.length) :
    (ls ++ [last])[k]? = some (ls[k]?.getD last) := by
  rcases Nat.lt_or_eq_of_le hk with hlt | rfl
  · rw [List.getElem?_append_left hlt, List.getElem?_eq_getElem hlt, Option.getD_some]
  · simp

/-- What stands ahead is the rest of the lexemes, and then the end for ever. -/
theorem get_of_append {s : Stream' Lexeme} (h : ls ++ₛ Stream'.const last = used ++ₛ s) (i : Nat) :
    s.get i = ls[used.length + i]?.getD last := by
  rw [← get_append_const, h, Stream'.get_append_right]

/-- Lexemes that were read are tokens, wherever they stand. -/
theorem recognized_of_proper {i : Nat} {l : Lexeme} (hused : ∀ l ∈ used, l.Proper)
    (htake : used = ls.take used.length) (hi : i < used.length) (hl : ls[i]? = some l) :
    l.error? = none := by
  have hmem : used[i]? = some l := by
    rw [htake, List.getElem?_take_of_lt hi, hl]
  exact (hused l (List.mem_of_getElem? hmem)).recognized

/-- What stands in front of a token that suits is the beginning of a word. -/
theorem Suits.completable {us : List Token} {t : Token} (h : Suits L us t) : Completable L us := by
  unfold Suits at h
  split at h
  · obtain ⟨b, hb⟩ := h
    exact ⟨[], b, by rwa [List.append_nil]⟩
  · obtain ⟨vs, b, hb⟩ := h
    exact ⟨t :: vs, b, by rwa [List.append_assoc] at hb⟩

/-- Something is always expected. -/
theorem Expected.exists_fits (expected : Expected) : ∃ t, expected.Fits t := by
  cases expected with
  | token t => exact ⟨t, .token t⟩
  | expression => exact ⟨_, .expression (.inl rfl)⟩
  | name => exact ⟨_, .name ""⟩
  | text => exact ⟨_, .text ""⟩
  | updateClause => exact ⟨_, .assign⟩

theorem Lexeme.error?_eq_none {l : Lexeme} (h : l.token = .endOfInput) : l.error? = none := by
  unfold Lexeme.error?
  rw [h]

/-- A lexeme of an input that is no token is not the last one. -/
theorem exists_of_error {i : Nat} {e : LexError} (hlast : last.token = .endOfInput)
    (h : (ls[i]?.getD last).error? = some e) : ∃ l, ls[i]? = some l ∧ l.error? = some e := by
  cases hi : ls[i]? with
  | none =>
    rw [hi, Option.getD_none, Lexeme.error?_eq_none hlast] at h
    cases h
  | some l =>
    rw [hi, Option.getD_some] at h
    exact ⟨l, rfl, h⟩

section
variable (hlast : last.token = .endOfInput) (hused : ∀ l ∈ used, l.Proper)
include hlast hused

/-- A parser that succeeds at the end of the input has read all lexemes, and they are a word. -/
theorem verdict_ok {a : α} (hls : ∀ l ∈ ls, l.token ≠ .endOfInput)
    (hahead : ls ++ₛ Stream'.const last = used ++ₛ w'.ahead)
    (hend : w'.current.token = .endOfInput) (hword : L (tokens used) (view a))
    (honly : ∀ b, L (tokens used) b → b = view a) : Verdict view L ls last (.ok a) := by
  obtain ⟨hle, htake⟩ := take_of_append hlast hahead hused
  have hcurrent : w'.current = ls[used.length]?.getD last := get_of_append hahead 0
  have hlength : ls.length ≤ used.length := by
    by_contra hlt
    rw [List.getElem?_eq_getElem (by omega)] at hcurrent
    exact hls _ (List.getElem_mem (by omega)) (hcurrent ▸ hend)
  obtain rfl : used = ls := by rw [htake, List.take_of_length_le hlength]
  exact ⟨fun l hl => (hused l hl).recognized, hword, honly⟩

/-- A parser that refuses a token has read those in front of it, and this one is the first
misfit. -/
theorem verdict_syntactic {e : Unexpected}
    (hahead : ls ++ₛ Stream'.const last = used ++ₛ w'.ahead) (hw' : w'.Clear)
    (hhere : w'.current = ⟨e.got, e.span⟩) (hmisfit : ¬ Suits L (tokens used) e.got)
    (hhonest : ∀ t, e.expected.Fits t → Suits L (tokens used) t) :
    Verdict view L ls last (.error (.syntactic e)) := by
  obtain ⟨hle, htake⟩ := take_of_append hlast hahead hused
  have hcurrent : w'.current = ls[used.length]?.getD last := get_of_append hahead 0
  have hnext : w'.next = ls[used.length + 1]?.getD last := get_of_append hahead 1
  have htake' : (ls ++ [last]).take used.length = used := by
    rw [List.take_append_of_le_length hle, ← htake]
  refine ⟨used.length, ?_, fun i hi l hl => ?_, ?_, ?_, ?_⟩
  · rw [getElem?_append_last hle, ← hcurrent, hhere]
  · have hi' : i ≤ ls.length := by
      have hlt := (List.getElem?_eq_some_iff.1 hl).1
      simp only [List.length_append, List.length_singleton] at hlt
      omega
    rw [getElem?_append_last hi', Option.some.injEq] at hl
    subst hl
    -- What was taken is recognized, and so are the two lexemes of the window behind it.
    rcases Nat.lt_or_ge i used.length with hlt | hge
    · rw [List.getElem?_eq_getElem (by omega), Option.getD_some]
      exact recognized_of_proper hused htake hlt (List.getElem?_eq_getElem _)
    · rcases (by omega : i = used.length ∨ i = used.length + 1) with rfl | rfl
      · exact hcurrent ▸ hw'.current
      · exact hnext ▸ hw'.next
  · obtain ⟨t, ht⟩ := e.expected.exists_fits
    rw [htake']
    exact (hhonest t ht).completable
  · rwa [htake']
  · rwa [htake']

/-- A parser that is stopped by a bad character has read everything in front of it but the last
lexeme. -/
theorem verdict_lexical {e : LexError} {next bad : Lexeme} {rest : Stream' Lexeme}
    (hahead : ls ++ₛ Stream'.const last = (used ++ [next, bad]) ++ₛ rest)
    (hnext : next.error? = none) (hbad : bad.error? = some e)
    (hfits : Completable L (tokens used)) : Verdict view L ls last (.error (.lexical e)) := by
  rw [Stream'.append_append_stream] at hahead
  obtain ⟨hle, htake⟩ := take_of_append hlast hahead hused
  have hfirst : next = ls[used.length]?.getD last := get_of_append hahead 0
  have hsecond : bad = ls[used.length + 1]?.getD last := get_of_append hahead 1
  refine ⟨used.length + 1, ⟨exists_of_error hlast (hsecond ▸ hbad), fun i hi l hl => ?_⟩, ?_⟩
  · rcases Nat.lt_succ_iff_lt_or_eq.1 hi with hi | rfl
    · exact recognized_of_proper hused htake hi hl
    · rw [hl, Option.getD_some] at hfirst
      rwa [← hfirst]
  · rwa [Nat.add_sub_cancel, ← htake]

end

/-- In front of all lexemes of an input, a window is within every greater bound. -/
theorem Window.within_of_ahead {bound : Nat} (hlast : last.token = .endOfInput)
    (hahead : w.ahead = ls ++ₛ Stream'.const last) (hbound : ls.length < bound) :
    w.Within bound := by
  refine ⟨ls.length, hbound, ?_⟩
  rw [hahead, get_append_const, List.getElem?_eq_none (Nat.le_refl _)]
  exact hlast

/-- **Outcomes are right.**  If a parser reads a language up to the end of the input from every
window, then so does its run on all lexemes of an input. -/
theorem verdict_of_readsInput {parser : Nat → Parser σ α} {feed : σ} {bound : Nat}
    (hfeed : Feed.stream feed = ls ++ₛ Stream'.const last) (hlast : last.token = .endOfInput)
    (hls : ∀ l ∈ ls, l.token ≠ .endOfInput) (hbound : ls.length < bound) (hL : L.Inhabited)
    (hreads : ∀ w : Window σ, w.Clear → w.Within bound → ReadsInput view (parser bound) w L) :
    Verdict view L ls last (Parser.outcome (Parser.runOn parser feed bound)) := by
  rcases Parser.runOn_cases parser feed bound with ⟨i, e, w, hi, hrun, hbad, hgood⟩ |
    ⟨w, hrun, hw, hahead, -⟩
  · rw [hrun]
    rw [hfeed, get_append_const] at hbad
    refine ⟨i, ⟨exists_of_error hlast hbad, fun j hj l hl => ?_⟩, ?_⟩
    · have h := hgood j hj
      rwa [hfeed, get_append_const, hl] at h
    · obtain ⟨ts, b, hts⟩ := hL
      refine ⟨ts, b, ?_⟩
      have hzero : i - 1 = 0 := by omega
      rwa [hzero]
  · have hn : w.Within bound := Window.within_of_ahead hlast (hahead.trans hfeed) hbound
    have h := hreads w hw hn
    unfold ReadsInput at h
    rw [hahead, hfeed] at h
    rw [hrun]
    match hp : parser bound w with
    | .ok a w' =>
      rw [hp] at h
      obtain ⟨used, hused', hproper, hend, hword, honly⟩ := h
      exact verdict_ok hlast hproper hls hused' hend hword honly
    | .error (.syntactic e) w' =>
      rw [hp] at h
      obtain ⟨used, hused', hproper, hw', hhere, hmisfit, hhonest⟩ := h
      exact verdict_syntactic hlast hproper hused' hw' hhere hmisfit hhonest
    | .error (.lexical e) w' =>
      rw [hp] at h
      obtain ⟨used, next, bad, rest, hused', hnext, hbad, hproper, hfits⟩ := h
      exact verdict_lexical hlast hproper hused' hnext hbad hfits

/-! ## Reading up to the end of the input -/

/-- What can be completed to a whole input can be completed to a word. -/
theorem completable_of_input {us : List Token} (hus : .endOfInput ∉ us)
    (h : Completable (L.bind fun _ => Language.token .endOfInput) us) : Completable L us := by
  obtain ⟨ws, _, ts, b, _, hts, rfl, heq⟩ := h
  rcases ws.eq_nil_or_concat with rfl | ⟨ws, t, rfl⟩
  · rw [List.append_nil] at heq
    exact absurd (heq ▸ List.mem_append_right ts (List.mem_singleton_self _)) hus
  · rw [List.concat_eq_append, ← List.append_assoc] at heq
    obtain ⟨rfl, -⟩ := List.append_inj' heq rfl
    exact ⟨ws, b, hts⟩

/-- Lexemes that were read are not the end of the input. -/
theorem endOfInput_notMem (hused : ∀ l ∈ used, l.Proper) : .endOfInput ∉ tokens used := by
  intro hmem
  obtain ⟨l, hl, ht⟩ := List.mem_map.1 hmem
  exact (hused l hl).not_end ht

/-- A token that suits a language suits it with the end of the input behind. -/
theorem Suits.input {us : List Token} {t : Token} (h : Suits L us t) :
    Completable (L.bind fun _ => Language.token .endOfInput) (us ++ [t]) := by
  unfold Suits at h
  split at h
  · rename_i ht
    obtain ⟨b, hb⟩ := h
    exact ⟨[], (), us, b, [.endOfInput], hb, rfl, by rw [ht, List.append_nil]⟩
  · obtain ⟨ws, b, hb⟩ := h
    exact ⟨ws ++ [.endOfInput], (), _, b, [.endOfInput], hb, rfl, (List.append_assoc ..).symm⟩

section
variable {p : Parser σ α}

/-- A reading up to the end of the input is one of a language that the end of the input stands
behind, and stops there. -/
theorem ReadsInput.of_reads (h : Reads view p w L fun _ => Language.token .endOfInput)
    (hend : ∀ a w', p w = .ok a w' → w'.current.token = .endOfInput) : ReadsInput view p w L := by
  unfold Reads at h
  unfold ReadsInput
  match hp : p w with
  | .ok a w' =>
    rw [hp] at h
    obtain ⟨used, h⟩ := h
    refine ⟨used, h.ahead, h.proper, hend a w' hp, h.word, fun b hb => ?_⟩
    exact (h.only _ b _ hb rfl ⟨[], by rw [hend a w' hp, List.append_nil]⟩).2
  | .error (.syntactic e) w' =>
    rw [hp] at h
    obtain ⟨used, h⟩ := h
    refine ⟨used, h.ahead, h.proper, h.clear, ?_, fun hsuits => h.misfit hsuits.input,
      fun t ht => ?_⟩
    · rw [h.got, h.span]
    · obtain ⟨hne, hfit⟩ := h.honest t ht
      rw [Suits, if_neg hne]
      refine completable_of_input (fun hmem => ?_) hfit
      rcases List.mem_append.1 hmem with hmem | hmem
      · exact endOfInput_notMem h.proper hmem
      · exact hne (List.mem_singleton.1 hmem).symm
  | .error (.lexical e) w' =>
    rw [hp] at h
    obtain ⟨used, h⟩ := h
    obtain ⟨next, bad, rest, hahead, hnext, hbad⟩ := h.ahead
    exact ⟨used, next, bad, rest, hahead, hnext, hbad, h.proper,
      completable_of_input (endOfInput_notMem h.proper) h.fits⟩

end

/-- A program is read up to the end of the input. -/
theorem readsInput_program {n : Nat} (hw : w.Clear) (hn : w.Within n) :
    ReadsInput (List.map Stmt.bare) (Parser.program n) w Statements :=
  .of_reads (reads_program n hw hn) fun _ _ => statements_closing

/-- Behind a single expression has to be the end of the input. -/
theorem Parser.soleExpression_apply (n : Nat) (w : Window σ) :
    (soleExpression n : Parser σ Expr) w =
      match (expression n .lowest : Parser σ Expr) w with
      | .ok value w' => if w'.current.token = .endOfInput then .ok value w' else
          .error (.syntactic ⟨.token .endOfInput, w'.current.token, w'.current.span⟩) w'
      | .error e w' => .error e w' := by
  unfold soleExpression
  rw [bind_apply]
  cases (expression n .lowest : Parser σ Expr) w with
  | error e w' => rfl
  | ok value w' =>
    dsimp only
    rw [current_bind_apply]
    by_cases hend : w'.current.token = .endOfInput
    · rw [if_pos hend, if_pos hend]
      rfl
    · rw [if_neg hend, if_neg hend]
      rfl

/-- So nothing is left when one is accepted. -/
theorem soleExpression_closing {n : Nat} {e : Expr} {w w' : Window σ}
    (h : (Parser.soleExpression n : Parser σ Expr) w = .ok e w') :
    w'.current.token = .endOfInput := by
  rw [Parser.soleExpression_apply] at h
  split at h
  · split at h
    · obtain ⟨-, rfl⟩ := EStateM.Result.ok.inj h
      assumption
    · cases h
  · cases h

/-- An expression is read like the statements of a program, but then the end of the input has to
be there: what stands in its place is refused if an expression could not go on with it. -/
theorem readsInput_soleExpression {n : Nat} (hw : w.Clear) (hn : w.Within n) :
    ReadsInput Expr.bare (Parser.soleExpression n) w AnyExpression := by
  have hstop : ∀ e : Expr, ((fun _ => Language.token .endOfInput : Expr → Language Unit) e).Begins
      (Stops .lowest) := fun _ => Language.begins_token (.of_none rfl)
  have hreads : Reads Expr.bare (Parser.expression n .lowest) w AnyExpression
      fun _ => Language.token .endOfInput := reads_expression n .lowest w _ hw hn hstop
  have hsole := Parser.soleExpression_apply n w
  match hp : (Parser.expression n .lowest : Parser σ Expr) w with
  | .error e w' =>
    rw [hp] at hsole
    exact .of_reads (hreads.congr (hsole.trans hp.symm)) fun _ _ => soleExpression_closing
  | .ok value w' =>
    rw [hp] at hsole
    dsimp only at hsole
    by_cases hend : w'.current.token = .endOfInput
    · rw [if_pos hend] at hsole
      exact .of_reads (hreads.congr (hsole.trans hp.symm)) fun _ _ => soleExpression_closing
    · -- The expression was accepted, so it is the only one that this lexeme may stand behind.
      rw [if_neg hend] at hsole
      unfold Reads at hreads
      rw [hp] at hreads
      obtain ⟨used, h⟩ := hreads
      unfold ReadsInput
      rw [hsole]
      refine ⟨used, h.ahead, h.proper, h.clear, rfl, ?_, ?_⟩
      · rw [Suits, if_neg hend]
        rintro ⟨ws, e, he⟩
        have hword := (h.only _ e [.endOfInput] he rfl
          ⟨ws ++ [.endOfInput], by rw [← List.append_assoc]⟩).1
        simp at hword
      · rintro _ ⟨⟩
        rw [Suits, if_pos rfl]
        exact ⟨_, h.word⟩

end

/-! ## Sources -/

/-- A parser that reads a language up to the end of the input gives the right outcome for every
source. -/
theorem verdict_parse {α β : Type} {view : α → β} {L : Language β} [hL : L.Inhabited]
    {parser : Nat → Parser Cursor α}
    (hreads : ∀ (n : Nat) (w : Window Cursor), w.Clear → w.Within n →
      ReadsInput view (parser n) w L) (source : String) :
    ∃ last, last.token = .endOfInput ∧
      Lexeme.allWithEnd (.ofString source) = Lexeme.all (.ofString source) ++ [last] ∧
      Verdict view L (Lexeme.all (.ofString source)) last (Parser.parse parser source) := by
  obtain ⟨last, hlast, heq⟩ := Lexeme.allWithEnd_eq (.ofString source)
  refine ⟨last, hlast, heq,
    verdict_of_readsInput (Feed.stream_all heq) hlast ?_ ?_ hL (hreads _)⟩
  · exact fun l => Lexeme.token_ne_of_mem_all
  · exact Nat.lt_succ_of_le (Lexeme.length_all_le _)

end FlatScript
