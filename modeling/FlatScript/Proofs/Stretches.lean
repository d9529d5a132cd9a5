/-
# Stretches of a source

Some lexemes of a source that stand one behind the other cover a stretch of its text: from the
first character of the first one to the last character of the last one.  The span of the stretch
cuts out exactly these characters, and read alone they give the same tokens, since reading a token
looks at no more than one character behind it.

* `hull` : the span of the stretch that some lexemes cover;
* `text?_of_span` : what the span between two places of a text cuts out of it;
* `BeginsAt`, `ReadAt` : a place in a source where a token begins, and what is read there;
* `Stretch`, `exists_stretch` : the characters that lexemes stand on;
* `text?_hull`, `text?_name` : what the text under a hull is read as, and the text under a name.
-/
import FlatScript.Proofs.Scanning

namespace FlatScript

/-! ## Places in a text -/

/-- The bytes of some characters. -/
def bytes : List Char → ℕ
  | [] => 0
  | c :: cs => c.utf8Size + bytes cs

/-- Moving over characters moves the byte offset by their length in UTF-8. -/
theorem Position.byte_after (p : Position) (cs : List Char) :
    (p.after cs).byte = p.byte + bytes cs := by
  induction cs generalizing p with
  | nil => rfl
  | cons c cs ih =>
    rw [after_cons, ih, byte_advance, bytes]
    omega

/-- Characters have a positive length in UTF-8. -/
theorem bytes_pos {cs : List Char} (h : cs ≠ []) : 0 < bytes cs := by
  cases cs with
  | nil => exact absurd rfl h
  | cons c cs =>
    have hc := c.utf8Size_pos
    rw [bytes]
    omega

/-- One place is not behind another one of the same text. -/
def Position.Reaches (p q : Position) : Prop :=
  ∃ cs, q = p.after cs

namespace Position.Reaches

variable {p q r : Position}

theorem refl (p : Position) : p.Reaches p :=
  ⟨[], rfl⟩

theorem after (p : Position) (cs : List Char) : p.Reaches (p.after cs) :=
  ⟨cs, rfl⟩

theorem trans (h : p.Reaches q) (h' : q.Reaches r) : p.Reaches r := by
  obtain ⟨cs, rfl⟩ := h
  obtain ⟨ds, rfl⟩ := h'
  exact ⟨cs ++ ds, (Position.after_append p cs ds).symm⟩

/-- A position that is reached is not smaller, as positions are compared. -/
theorem isLE_compare (h : p.Reaches q) : (compare p q).isLE = true := by
  obtain ⟨cs, rfl⟩ := h
  by_cases hcs : cs = []
  · subst hcs
    show ((compare p.byte p.byte).then
      ((compare p.line p.line).then (compare p.column p.column))).isLE = true
    simp only [Std.compare_self]
    rfl
  · have hlt : compare p.byte (p.after cs).byte = .lt := by
      rw [Nat.compare_eq_lt, byte_after]
      have := bytes_pos hcs
      omega
    show ((compare p.byte (p.after cs).byte).then _).isLE = true
    rw [hlt]
    rfl

/-- The union of spans starts at the first of two positions that reach each other. -/
theorem min_eq (h : p.Reaches q) : min p q = p :=
  if_pos h.isLE_compare

theorem max_eq (h : p.Reaches q) : max p q = q :=
  if_pos h.isLE_compare

end Position.Reaches

/-! ## Cutting text -/

/-- Cutting a text at the byte offset of a character boundary leaves what is behind it. -/
theorem dropBytes?_append (cs ds : List Char) : dropBytes? (cs ++ ds) (bytes cs) = some ds := by
  induction cs with
  | nil => cases ds <;> rfl
  | cons c cs ih =>
    obtain ⟨n, hn⟩ := Nat.exists_eq_add_one_of_ne_zero (bytes_pos (List.cons_ne_nil c cs)).ne'
    have hsum : bytes (c :: cs) = c.utf8Size + bytes cs := rfl
    rw [hn, List.cons_append, dropBytes?, if_pos (by omega), ← hn, hsum, Nat.add_sub_cancel_left,
      ih]

theorem takeBytes?_append (cs ds : List Char) : takeBytes? (cs ++ ds) (bytes cs) = some cs := by
  induction cs with
  | nil => cases ds <;> rfl
  | cons c cs ih =>
    obtain ⟨n, hn⟩ := Nat.exists_eq_add_one_of_ne_zero (bytes_pos (List.cons_ne_nil c cs)).ne'
    have hsum : bytes (c :: cs) = c.utf8Size + bytes cs := rfl
    rw [hn, List.cons_append, takeBytes?, if_pos (by omega), ← hn, hsum, Nat.add_sub_cancel_left,
      ih, Option.map_some]

/-- The span between two places of a text cuts out the characters between them. -/
theorem text?_of_span {source : String} {front body rest : List Char}
    (h : source.toList = front ++ (body ++ rest)) :
    Span.text? ⟨Position.origin.after front, Position.origin.after (front ++ body)⟩ source =
      some (String.ofList body) := by
  have hstart : (Position.origin.after front).byte = bytes front := by
    rw [Position.byte_after]
    exact Nat.zero_add _
  have hstop : (Position.origin.after (front ++ body)).byte = bytes front + bytes body := by
    rw [Position.after_append, Position.byte_after, hstart]
  unfold Span.text?
  dsimp only
  rw [hstart, hstop, if_pos (Nat.le_add_right _ _), h, dropBytes?_append, Nat.add_sub_cancel_left]
  show (takeBytes? (body ++ rest) (bytes body)).bind _ = _
  rw [takeBytes?_append]
  rfl

/-! ## Where a token begins -/

/-- A place in a source where a token begins: behind `front` and white space, which is skipped, with
something else in front of it. -/
structure BeginsAt (source : String) (front blank cs : List Char) : Prop where
  source_eq : source.toList = front ++ (blank ++ cs)
  blank : ∀ c ∈ blank, isWhiteSpace c = true
  solid : Ends isWhiteSpace cs

/-- Behind `front` and white space, the characters `used` of a source are read as a token: its span
is theirs and cuts them out of the source, and reading goes on right behind them. -/
structure ReadAt (source : String) (front blank used rest : List Char) (t : Token) : Prop where
  source_eq : source.toList = front ++ (blank ++ (used ++ rest))
  next_eq : Lexeme.next ⟨blank ++ (used ++ rest), Position.origin.after front⟩ =
    (⟨t, ⟨Position.origin.after (front ++ blank), Position.origin.after (front ++ blank ++ used)⟩⟩,
      ⟨rest, Position.origin.after (front ++ blank ++ used)⟩)
  text_eq :
    Span.text? ⟨Position.origin.after (front ++ blank),
      Position.origin.after (front ++ blank ++ used)⟩ source = some (.ofList used)

/-- What is read at a place is the first of all lexemes from there. -/
theorem ReadAt.all {source : String} {front blank used rest : List Char} {t : Token}
    (h : ReadAt source front blank used rest t) (ht : t ≠ .endOfInput) :
    Lexeme.all ⟨blank ++ (used ++ rest), Position.origin.after front⟩ =
      ⟨t, ⟨Position.origin.after (front ++ blank),
          Position.origin.after (front ++ blank ++ used)⟩⟩ ::
        Lexeme.all ⟨rest, Position.origin.after (front ++ blank ++ used)⟩ := by
  rw [Lexeme.all, h.next_eq, if_neg ht]

/-- What is taken from the front of a text is read where the text stands in a source. -/
theorem BeginsAt.readAt {source : String} {front blank used rest : List Char} {t : Token}
    (h : BeginsAt source front blank (used ++ rest))
    (htake : ∀ p, Cursor.takeToken ⟨used ++ rest, p⟩ = (t, ⟨rest, p.after used⟩)) :
    ReadAt source front blank used rest t where
  source_eq := h.source_eq
  next_eq := by
    rw [Lexeme.next_blank_append h.blank h.solid, htake]
    simp only [Position.after_append]
  text_eq := by
    have hsource : source.toList = front ++ blank ++ (used ++ rest) := by
      rw [h.source_eq, List.append_assoc]
    exact text?_of_span hsource

/-! ## Lexemes one behind the other -/

/-- The least span that covers the first and the last one of some lexemes. -/
def hull (ls : List Lexeme) : Span :=
  match ls.head?, ls.getLast? with
  | some first, some last => first.span.union last.span
  | _, _ => {}

/-- Behind the characters `front`, the characters `body` are those that some lexemes stand on, and
they are read as these lexemes in front of everything that may take the place of `rest`. -/
structure Stretch (p : Position) (ls : List Lexeme) (front body rest : List Char) : Prop where
  solid : body ≠ []
  first : ∃ l, ls.head? = some l ∧ l.span.start = p.after front ∧
    l.span.stop.Reaches (p.after (front ++ body))
  last : ∃ l, ls.getLast? = some l ∧ (p.after front).Reaches l.span.start ∧
    l.span.stop = p.after (front ++ body)
  reads : ∀ rest', Follows rest rest' → tokensOf (body ++ rest') = tokens ls ++ tokensOf rest'

namespace Stretch

variable {p : Position} {ls : List Lexeme} {front body rest : List Char}

/-- The hull of lexemes reaches from the first to the last one of their characters. -/
theorem hull_eq (h : Stretch p ls front body rest) :
    hull ls = ⟨p.after front, p.after (front ++ body)⟩ := by
  obtain ⟨first, hfirst, hstart, hstop⟩ := h.first
  obtain ⟨last, hlast, hstart', hstop'⟩ := h.last
  unfold hull
  rw [hfirst, hlast]
  show Span.mk (min _ _) (max _ _) = _
  rw [hstart, hstop', hstart'.min_eq, hstop.max_eq]

/-- One lexeme is a stretch, with the white space in front of it left out. -/
theorem single {t : Token} {blank used : List Char} (h : Scans t blank used rest) :
    Stretch p [⟨t, ⟨p.after blank, p.after (blank ++ used)⟩⟩] blank used rest where
  solid := h.used_ne_nil
  first := ⟨_, rfl, rfl, .refl _⟩
  last := ⟨_, rfl, .refl _, rfl⟩
  reads _ hrest := ((h.follows hrest).indent (List.forall_mem_nil _)).tokensOf

/-- One more lexeme in front, and the white space behind it. -/
theorem cons {t : Token} {blank used : List Char}
    (h : Scans t blank used (front ++ (body ++ rest)))
    (hfront : ∀ c ∈ front, isWhiteSpace c = true)
    (hs : Stretch (p.after (blank ++ used)) ls front body rest) :
    Stretch p (⟨t, ⟨p.after blank, p.after (blank ++ used)⟩⟩ :: ls) blank
      (used ++ (front ++ body)) rest where
  solid := List.append_ne_nil_of_right_ne_nil _ (List.append_ne_nil_of_right_ne_nil _ hs.solid)
  first := by
    refine ⟨_, rfl, rfl, ?_⟩
    rw [← List.append_assoc, Position.after_append p (blank ++ used)]
    exact .after _ _
  last := by
    obtain ⟨last, hlast, hstart, hstop⟩ := hs.last
    refine ⟨last, ?_, .trans ?_ hstart, ?_⟩
    · rw [List.getLast?_cons, hlast, Option.getD_some]
    · rw [Position.after_append, ← Position.after_append]
      exact .after _ _
    · rw [hstop, ← Position.after_append, List.append_assoc]
  reads rest' hrest := by
    -- The token in front sees the same next character, since that belongs to the stretch.
    have hnext : Follows (front ++ (body ++ rest)) (front ++ (body ++ rest')) := by
      obtain ⟨c, cs, hcs⟩ := List.exists_cons_of_ne_nil
        (List.append_ne_nil_of_right_ne_nil front hs.solid)
      rw [← List.append_assoc, ← List.append_assoc, hcs]
      exact .inr ⟨List.cons_ne_nil _ _, .inl rfl⟩
    have hscan := (h.follows hnext).indent (List.forall_mem_nil _)
    rw [List.append_assoc, List.append_assoc]
    refine hscan.tokensOf.trans ?_
    rw [tokensOf_blank_append hfront, hs.reads rest' hrest]
    rfl

end Stretch

/-- The lexemes behind some others are those of the rest of the text. -/
theorem exists_rest {cs : List Char} {p : Position} {front ls : List Lexeme}
    (h : Lexeme.all ⟨cs, p⟩ = front ++ ls) :
    ∃ used rest, cs = used ++ rest ∧ Lexeme.all ⟨rest, p.after used⟩ = ls := by
  induction front generalizing cs p with
  | nil => exact ⟨[], cs, rfl, h⟩
  | cons l front ih =>
    rcases scan_cases cs with hblank | ⟨t, blank, used, rest, rfl, hscan⟩
    · rw [all_of_blank hblank] at h
      cases h
    · rw [hscan.all] at h
      obtain ⟨used', rest', rfl, hall⟩ := ih (List.cons.inj h).2
      refine ⟨blank ++ used ++ used', rest', by simp only [List.append_assoc], ?_⟩
      rw [Position.after_append]
      exact hall

/-- The first lexemes of a text stand on a stretch of it. -/
theorem exists_stretch {cs : List Char} {p : Position} {ls behind : List Lexeme}
    (h : Lexeme.all ⟨cs, p⟩ = ls ++ behind) (hls : ls ≠ []) :
    ∃ blank body rest, cs = blank ++ (body ++ rest) ∧ (∀ c ∈ blank, isWhiteSpace c = true) ∧
      Stretch p ls blank body rest ∧
      Lexeme.all ⟨rest, p.after (blank ++ body)⟩ = behind := by
  induction ls generalizing cs p with
  | nil => exact absurd rfl hls
  | cons l ls ih =>
    rcases scan_cases cs with hblank | ⟨t, blank, used, rest, rfl, hscan⟩
    · rw [all_of_blank hblank] at h
      cases h
    rw [hscan.all] at h
    obtain ⟨rfl, hrest⟩ := List.cons.inj h
    by_cases hnil : ls = []
    · subst hnil
      exact ⟨blank, used, rest, rfl, hscan.blank, .single hscan, hrest⟩
    · obtain ⟨blank', body, rest', rfl, hblank', hstretch, hbehind⟩ := ih hrest hnil
      refine ⟨blank, used ++ (blank' ++ body), rest', ?_, hscan.blank,
        .cons hscan hblank' hstretch, ?_⟩
      · simp only [List.append_assoc]
      · rw [← hbehind, ← Position.after_append]
        simp only [List.append_assoc]

/-! ## Excerpts of a source -/

section
variable {source : String} {ls behind : List Lexeme}

/-- Lexemes of a source that stand one behind the other cover a stretch of it, and it goes on if
there are more of them. -/
theorem exists_stretch_of_infix (h : ls ++ behind <:+: Lexeme.all (.ofString source))
    (hls : ls ≠ []) :
    ∃ front body rest, source.toList = front ++ (body ++ rest) ∧ (behind ≠ [] → rest ≠ []) ∧
      hull ls = ⟨Position.origin.after front, Position.origin.after (front ++ body)⟩ ∧
      ∀ rest', Follows rest rest' → tokensOf (body ++ rest') = tokens ls ++ tokensOf rest' := by
  obtain ⟨before, after, h⟩ := h
  rw [List.append_assoc, List.append_assoc] at h
  obtain ⟨used, cs, hcs, hall⟩ := exists_rest h.symm
  obtain ⟨blank, body, rest, rfl, -, hstretch, hrest⟩ := exists_stretch hall hls
  refine ⟨used ++ blank, body, rest, ?_, ?_, ?_, hstretch.reads⟩
  · rw [List.append_assoc]
    exact hcs
  · rintro hbehind rfl
    rw [all_of_blank (List.forall_mem_nil _)] at hrest
    exact List.append_ne_nil_of_left_ne_nil hbehind _ hrest.symm
  · simp only [hstretch.hull_eq, Position.after_append]

/-- **Excerpts.**  The text that some lexemes of a source cover is read as these lexemes. -/
theorem text?_hull (h : ls <:+: Lexeme.all (.ofString source)) (hls : ls ≠ []) :
    ∃ text, (hull ls).text? source = some text ∧ tokensOf text.toList = tokens ls := by
  rw [← List.append_nil ls] at h
  obtain ⟨front, body, rest, hsource, -, hhull, hreads⟩ := exists_stretch_of_infix h hls
  refine ⟨.ofList body, hhull ▸ text?_of_span hsource, ?_⟩
  have hbody := hreads [] (.inl rfl)
  rw [List.append_nil, tokensOf_of_blank (List.forall_mem_nil _), List.append_nil] at hbody
  rw [String.toList_ofList, hbody]

/-- A semicolon can be put behind it, if it is not the end of the source: otherwise it could end
with a text that was never closed. -/
theorem text?_hull_semicolon (h : ls ++ behind <:+: Lexeme.all (.ofString source)) (hls : ls ≠ [])
    (hbehind : behind ≠ []) :
    ∃ text, (hull ls).text? source = some text ∧
      tokensOf (text ++ ";").toList = tokens ls ++ [.symbol .semicolon] := by
  obtain ⟨front, body, rest, hsource, hrest, hhull, hreads⟩ := exists_stretch_of_infix h hls
  refine ⟨.ofList body, hhull ▸ text?_of_span hsource, ?_⟩
  have hsemicolon : tokensOf [';'] = [.symbol .semicolon] := by decide +kernel
  rw [String.toList_append, String.toList_ofList, ← hsemicolon]
  exact hreads [';'] (.inr ⟨hrest hbehind, .inr rfl⟩)

/-- The text that a name covers is the name. -/
theorem text?_name {l : Lexeme} (h : l ∈ Lexeme.all (.ofString source)) {x : String}
    (hl : l.token = .name x) : l.span.text? source = some x := by
  obtain ⟨before, behind, h⟩ := List.append_of_mem h
  obtain ⟨front, cs, hcs, hall⟩ := exists_rest h
  rcases scan_cases cs with hblank | ⟨t, blank, used, rest, rfl, hscan⟩
  · rw [all_of_blank hblank] at hall
    cases hall
  rw [hscan.all] at hall
  obtain ⟨rfl, -⟩ := List.cons.inj hall
  obtain rfl : t = .name x := hl
  have hsource : source.toList = front ++ blank ++ (used ++ rest) := by
    rw [List.append_assoc]
    exact hcs
  rw [← Position.after_append, ← Position.after_append, ← List.append_assoc, text?_of_span hsource,
    ← hscan.toList_name.1, String.ofList_toList]

end

end FlatScript
