/-
# The order of lexemes

The lexemes of a source stand one behind the other, and so do those that a parser takes.  So what
stands over the first ones of them ends before what stands over the others begins, and their hull
reaches from the first one to the last one.

* `Span.Within`, `Span.Before` : a span in another one, and one in front of another one;
* `InOrder` : lexemes that stand one behind the other;
* `Span.Over` : a span that begins and ends where some lexemes do, and `InOrder.hull` : that it lies
  in their hull;
* `inOrder_source` : whatever is taken from the front of a source is in order.
-/
import FlatScript.Proofs.Places
import FlatScript.Proofs.Tiling

namespace FlatScript

/-! ## Spans side by side -/

/-- A span lies in another one. -/
def Span.Within (a b : Span) : Prop :=
  b.start ≤ a.start ∧ a.stop ≤ b.stop

/-- A span ends where another one begins, or in front of it. -/
def Span.Before (a b : Span) : Prop :=
  a.stop ≤ b.start

/-- Two spans, one in front of the other, lie in their union: it reaches from the start of the first
one to the end of the second one. -/
theorem Span.Before.union {a b : Span} (h : a.Before b) (ha : a.start ≤ a.stop)
    (hb : b.start ≤ b.stop) :
    a.union b = ⟨a.start, b.stop⟩ ∧ a.Within (a.union b) ∧ b.Within (a.union b) := by
  have hstart : a.start ≤ b.start := Position.le_trans ha h
  have hstop : a.stop ≤ b.stop := Position.le_trans h hb
  have hunion : a.union b = ⟨a.start, b.stop⟩ :=
    congrArg₂ mk (Position.min_eq_of_le hstart) (Position.max_eq_of_le hstop)
  rw [hunion]
  exact ⟨rfl, ⟨Position.le_refl _, hstop⟩, ⟨hstart, Position.le_refl _⟩⟩

/-! ## Lexemes in order -/

/-- Some lexemes stand one behind the other, and those of them that are tokens are among the lexemes
`ls` of a text. -/
structure InOrder (ls used : List Lexeme) : Prop where
  mem : ∀ l ∈ used, l.token ≠ .endOfInput → l ∈ ls
  ordered : ∀ l ∈ used, l.span.start ≤ l.span.stop
  increasing : used.Pairwise fun a b => a.span.Before b.span

/-- A span begins where one of some lexemes begins, and ends where one of them ends. -/
structure Span.Over (span : Span) (used : List Lexeme) : Prop where
  start : ∃ l ∈ used, span.start = l.span.start
  stop : ∃ l ∈ used, span.stop = l.span.stop

section
variable {ls used used' : List Lexeme} {a b : Span} {first last l : Lexeme}

/-- One more lexeme in front of all others. -/
theorem InOrder.cons (h : InOrder ls used) (hmem : l ∈ ls) (hordered : l.span.start ≤ l.span.stop)
    (hbefore : ∀ m ∈ used, l.span.stop ≤ m.span.start) : InOrder ls (l :: used) :=
  ⟨List.forall_mem_cons.2 ⟨fun _ => hmem, h.mem⟩, List.forall_mem_cons.2 ⟨hordered, h.ordered⟩,
    List.pairwise_cons.2 ⟨hbefore, h.increasing⟩⟩

theorem InOrder.left (h : InOrder ls (used ++ used')) : InOrder ls used :=
  ⟨fun l hl => h.mem l (List.mem_append_left _ hl),
    fun l hl => h.ordered l (List.mem_append_left _ hl),
    (List.pairwise_append.1 h.increasing).1⟩

theorem InOrder.right (h : InOrder ls (used ++ used')) : InOrder ls used' :=
  ⟨fun l hl => h.mem l (List.mem_append_right _ hl),
    fun l hl => h.ordered l (List.mem_append_right _ hl),
    (List.pairwise_append.1 h.increasing).2.1⟩

/-- The span of a lexeme stands over it. -/
theorem Span.over_single (l : Lexeme) : l.span.Over [l] :=
  ⟨⟨l, List.mem_singleton_self l, rfl⟩, l, List.mem_singleton_self l, rfl⟩

/-- What stands over some lexemes stands over more. -/
theorem Span.Over.mono (h : a.Over used) (hsub : ∀ l ∈ used, l ∈ used') : a.Over used' := by
  obtain ⟨⟨first, hfirst, hstart⟩, last, hlast, hstop⟩ := h
  exact ⟨⟨first, hsub first hfirst, hstart⟩, last, hsub last hlast, hstop⟩

/-- What stands over the first lexemes stands before what stands over the others. -/
theorem InOrder.before (h : InOrder ls (used ++ used')) (ha : a.Over used) (hb : b.Over used') :
    a.Before b := by
  obtain ⟨last, hlast, hstop⟩ := ha.stop
  obtain ⟨first, hfirst, hstart⟩ := hb.start
  unfold Span.Before
  rw [hstop, hstart]
  exact (List.pairwise_append.1 h.increasing).2.2 last hlast first hfirst

/-- No lexeme starts before the first one. -/
theorem InOrder.start_le (h : InOrder ls used) (hfirst : used.head? = some first) (hl : l ∈ used) :
    first.span.start ≤ l.span.start := by
  obtain ⟨rest, rfl⟩ := List.head?_eq_some_iff.1 hfirst
  rcases List.mem_cons.1 hl with rfl | hrest
  · exact Position.le_refl _
  · have hbefore : first.span.stop ≤ l.span.start := List.rel_of_pairwise_cons h.increasing hrest
    exact Position.le_trans (h.ordered first List.mem_cons_self) hbefore

/-- No lexeme stops behind the last one. -/
theorem InOrder.le_stop (h : InOrder ls used) (hlast : used.getLast? = some last) (hl : l ∈ used) :
    l.span.stop ≤ last.span.stop := by
  obtain ⟨front, rfl⟩ := List.getLast?_eq_some_iff.1 hlast
  have hmem : last ∈ front ++ [last] := List.mem_append_right _ (List.mem_singleton_self last)
  rcases List.mem_append.1 hl with hfront | hl
  · have hbefore : l.span.stop ≤ last.span.start :=
      (List.pairwise_append.1 h.increasing).2.2 l hfront last (List.mem_singleton_self last)
    exact Position.le_trans hbefore (h.ordered last hmem)
  · rw [List.mem_singleton.1 hl]
    exact Position.le_refl _

/-- The hull of lexemes in order begins where the first one begins and ends where the last one
ends. -/
theorem InOrder.hull_eq (h : InOrder ls used) (hfirst : used.head? = some first)
    (hlast : used.getLast? = some last) : hull used = ⟨first.span.start, last.span.stop⟩ := by
  unfold hull
  rw [hfirst, hlast]
  show Span.mk (min _ _) (max _ _) = _
  rw [Position.min_eq_of_le (h.start_le hfirst (List.mem_of_getLast? hlast)),
    Position.max_eq_of_le (h.le_stop hlast (List.mem_of_head? hfirst))]

/-- The hull stands over all lexemes, and what stands over some of them lies in it. -/
theorem InOrder.hull (h : InOrder ls used) (hused : used ≠ []) :
    (hull used).Over used ∧ ∀ a : Span, a.Over used → a.Within (hull used) := by
  have hfirst := List.head?_eq_some_head hused
  have hlast := List.getLast?_eq_some_getLast hused
  rw [h.hull_eq hfirst hlast]
  refine ⟨⟨⟨_, List.head_mem hused, rfl⟩, _, List.getLast_mem hused, rfl⟩, ?_⟩
  rintro a ⟨⟨l, hl, hstart⟩, m, hm, hstop⟩
  exact ⟨hstart ▸ h.start_le hfirst hl, hstop ▸ h.le_stop hlast hm⟩

end

/-! ## The lexemes of a source -/

/-- All lexemes of a text that begins at some place, and the end of the input `k` times. -/
def drawn (k : ℕ) (cs : List Char) (p : Position) : List Lexeme :=
  Lexeme.all ⟨cs, p⟩ ++ List.replicate k ⟨.endOfInput, ⟨p.after cs, p.after cs⟩⟩

/-- Behind the last token only the end of the input is drawn. -/
theorem drawn_of_blank {cs : List Char} (h : ∀ c ∈ cs, isWhiteSpace c = true) (k : ℕ)
    (p : Position) :
    drawn k cs p = List.replicate k ⟨.endOfInput, ⟨p.after cs, p.after cs⟩⟩ := by
  rw [drawn, all_of_blank h, List.nil_append]

/-- A token that stands in front is drawn first. -/
theorem Scans.drawn {t : Token} {blank used rest : List Char} (h : Scans t blank used rest) (k : ℕ)
    (p : Position) :
    drawn k (blank ++ (used ++ rest)) p =
      ⟨t, ⟨p.after blank, p.after (blank ++ used)⟩⟩ ::
        FlatScript.drawn k rest (p.after (blank ++ used)) := by
  rw [FlatScript.drawn, h.all, ← List.append_assoc, Position.after_append p (blank ++ used)]
  rfl

/-- The lexemes of a text are in order, and none of them stands in front of the text. -/
theorem inOrder_drawn {ls : List Lexeme} {cs : List Char} {p : Position}
    (hls : ∀ l ∈ Lexeme.all ⟨cs, p⟩, l ∈ ls) (k : ℕ) :
    InOrder ls (drawn k cs p) ∧ ∀ l ∈ drawn k cs p, p ≤ l.span.start := by
  induction cs using scan_induction generalizing p with
  | blank cs hblank =>
    rw [drawn_of_blank hblank]
    refine ⟨⟨?_, ?_, List.pairwise_replicate.2 (.inr (Position.le_refl _))⟩, ?_⟩
    · intro l hl ht
      obtain rfl := List.eq_of_mem_replicate hl
      exact absurd rfl ht
    · intro l hl
      obtain rfl := List.eq_of_mem_replicate hl
      exact Position.le_refl _
    · intro l hl
      obtain rfl := List.eq_of_mem_replicate hl
      exact (Position.Reaches.after p cs).le
  | token t blank used rest hscan ih =>
    -- All that is left stands behind the place where the token ends.
    rw [hscan.all] at hls
    obtain ⟨hmem, hrest⟩ := List.forall_mem_cons.1 hls
    obtain ⟨horder, hbehind⟩ := ih hrest
    have hstart : p ≤ p.after blank := (Position.Reaches.after p blank).le
    have hstop : p.after blank ≤ p.after (blank ++ used) := by
      rw [Position.after_append]
      exact (Position.Reaches.after _ used).le
    rw [hscan.drawn]
    refine ⟨horder.cons hmem hstop hbehind, List.forall_mem_cons.2 ⟨hstart, ?_⟩⟩
    intro l hl
    exact Position.le_trans (Position.le_trans hstart hstop) (hbehind l hl)

/-- What is taken from the front of some lexemes and one more that is repeated behind them. -/
theorem isPrefix_append_replicate {ls used : List Lexeme} {last : Lexeme} {behind : Stream' Lexeme}
    (h : ls ++ₛ Stream'.const last = used ++ₛ behind) :
    ∃ k, used <+: ls ++ List.replicate k last := by
  induction used generalizing ls with
  | nil => exact ⟨0, List.nil_prefix⟩
  | cons l used ih =>
    cases ls with
    | nil =>
      obtain rfl : last = l := congrFun h 0
      have hrest : [] ++ₛ Stream'.const last = used ++ₛ behind := funext fun i => congrFun h (i + 1)
      obtain ⟨k, hk⟩ := ih hrest
      exact ⟨k + 1, List.cons_prefix_cons.2 ⟨rfl, hk⟩⟩
    | cons m ls =>
      obtain rfl : m = l := congrFun h 0
      have hrest : ls ++ₛ Stream'.const last = used ++ₛ behind := funext fun i => congrFun h (i + 1)
      obtain ⟨k, hk⟩ := ih hrest
      exact ⟨k, List.cons_prefix_cons.2 ⟨rfl, hk⟩⟩

/-- Whatever is taken from the front of a source is in order. -/
theorem inOrder_source {source : String} {used : List Lexeme} {behind : Stream' Lexeme}
    (h : Feed.stream (Cursor.ofString source) = used ++ₛ behind) :
    InOrder (Lexeme.all (.ofString source)) used := by
  obtain ⟨k, rest, hrest⟩ := isPrefix_append_replicate
    ((Feed.stream_all (allWithEnd_eq_append source.toList .origin)).symm.trans h)
  have horder : InOrder (Lexeme.all (.ofString source)) (drawn k source.toList .origin) :=
    (inOrder_drawn (fun _ hl => hl) k).1
  rw [drawn, ← hrest] at horder
  exact horder.left

end FlatScript
