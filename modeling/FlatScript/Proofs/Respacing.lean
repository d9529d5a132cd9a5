/-
# White space between tokens does not matter

A token is read from its own characters, whatever stands in front of them, and behind them white
space stops every token that can be stopped.  So the texts of the tokens of a source can be put down
again with other white space between them, and the same tokens are read, each from its own text.
Only a text that was never closed cannot be stopped: it is the last token, and all that follows
belongs to it.

* `LeftOpen` : texts that were never closed;
* `Scans.before` : a token that is not left open is the same one in front of white space;
* `ReadAs` : the tokens of a text, each with its own characters, and `ReadAs.respace` : other white
  space between them;
* `respacing_keeps_tokens` : the law, for every source.
-/
import FlatScript.Proofs.Stretches

namespace FlatScript

/-! ## Texts that were never closed -/

/-- A token begins with a mark that no later one closes. -/
def LeftOpen (cs : List Char) : Prop :=
  ∃ mark more, cs = mark :: more ∧ isQuotationMark mark = true ∧
    ∀ body, Content mark body → more ≠ body ++ [mark]

namespace Cursor

/-- If anything is left behind a text, it was closed. -/
theorem exists_content {mark : Char} (hmark : isQuotationMark mark = true) {cs : List Char}
    {p : Position} (h : (takeText ⟨cs, p⟩ mark).2.rest ≠ []) :
    ∃ body, Content mark body ∧ cs = body ++ mark :: (takeText ⟨cs, p⟩ mark).2.rest := by
  have hne := ne_backslash_of_isQuotationMark hmark
  rcases content_cases mark cs with ⟨body, rest, hbody, rfl⟩ | ⟨body, tail, hbody, htail, rfl⟩
  · refine ⟨body, hbody, ?_⟩
    rw [takeText_closed hbody hne]
  · rw [takeText_open hbody hne htail] at h
    exact absurd rfl h

end Cursor

/-! ## Characters that stop every token -/

/-- A character that goes on with no word, no numeral and no pair. -/
structure Halts (c : Char) : Prop where
  word : continuesWord c = false
  digit : c.isDigit = false
  point : c ≠ '.'
  pair : ∀ first, Symbol.pair? first c = none

/-- The second characters of pairs. -/
theorem mem_of_pair? {first second : Char} {mark : Symbol}
    (h : Symbol.pair? first second = some mark) : second ∈ ['+', '-', '='] := by
  unfold Symbol.pair? at h
  split at h <;> simp_all

/-- A character halts all tokens if no word, no numeral and no symbol goes on with it. -/
theorem Halts.of_class {c : Char} (hword : continuesWord c = false) (hdigit : c.isDigit = false)
    (hsign : c ∉ ['.', '+', '-', '=']) : Halts c where
  word := hword
  digit := hdigit
  point := by
    rintro rfl
    exact hsign (by decide)
  pair first := by
    by_contra hpair
    obtain ⟨mark, hmark⟩ := Option.ne_none_iff_exists'.1 hpair
    exact hsign (List.mem_cons_of_mem _ (mem_of_pair? hmark))

/-- A semicolon halts all tokens. -/
theorem halts_semicolon : Halts ';' :=
  .of_class (by decide +kernel) (by decide) (by decide)

/-- The code points of a character class, one by one. -/
def CodeRanges.points (ranges : CodeRanges) : List ℕ :=
  ranges.flatMap fun r => List.range' r.1 (r.2 + 1 - r.1)

/-- A code that a table holds is one of its codes, so that a fact about all of them can be
checked. -/
theorem CodeRanges.mem_points {ranges : CodeRanges} {n : ℕ} (h : ranges.holds n = true) :
    n ∈ ranges.points := by
  induction ranges with
  | nil => cases h
  | cons r ranges ih =>
    obtain ⟨first, last⟩ := r
    rw [points, List.flatMap_cons, List.mem_append]
    rw [holds] at h
    split at h
    · cases h
    · split at h
      · left
        rw [List.mem_range'_1]
        dsimp only
        omega
      · exact Or.inr (ih h)

/-- **White space** belongs to no word, no numeral and no pair. -/
theorem halts_of_isWhiteSpace {c : Char} (h : isWhiteSpace c = true) : Halts c := by
  have hpoints : ∀ n ∈ whiteSpaceRanges.points, continuesWord (Char.ofNat n) = false ∧
      (Char.ofNat n).isDigit = false ∧ Char.ofNat n ∉ ['.', '+', '-', '='] := by decide +kernel
  have hc := hpoints c.toNat (CodeRanges.mem_points h)
  rw [Char.ofNat_toNat] at hc
  exact .of_class hc.1 hc.2.1 hc.2.2

/-- A text stops every token in front of it: it is empty, or its first character does. -/
def Halting (rest : List Char) : Prop :=
  ∀ c, rest.head? = some c → Halts c

namespace Halting

variable {rest : List Char}

/-- White space in front halts what stands before it, and so does the end of a text. -/
theorem of_blank {blank : List Char} (h : ∀ c ∈ blank, isWhiteSpace c = true)
    (hrest : blank = [] → rest = []) : Halting (blank ++ rest) := by
  intro c hc
  cases blank with
  | nil =>
    rw [hrest rfl] at hc
    cases hc
  | cons d blank =>
    obtain rfl : d = c := Option.some.inj hc
    exact halts_of_isWhiteSpace (h d List.mem_cons_self)

/-- What may follow a text that halts a token halts it as well. -/
theorem follows {rest' : List Char} (h : Halting rest) (hrest : Follows rest rest') :
    Halting rest' := by
  intro c hc
  rcases hrest with rfl | ⟨-, hrest | hrest⟩
  · cases hc
  · exact h c (hrest ▸ hc)
  · obtain rfl : ';' = c := Option.some.inj (hrest.symm.trans hc)
    exact halts_semicolon

end Halting

/-! ## Tokens in front of white space -/

namespace Cursor

section
variable {first : Char} {cs rest : List Char} {t : Token} {p q : Position}

/-- A word that was read up to the end of a text is read up to what halts it. -/
theorem takeWord_before (h : takeWord ⟨cs, p⟩ first = (t, ⟨[], q⟩)) (hrest : Halting rest)
    (p' : Position) : takeWord ⟨cs ++ rest, p'⟩ first = (t, ⟨rest, p'.after cs⟩) := by
  rw [takeWord, takeWhile_eq] at h
  obtain ⟨htoken, hcursor⟩ := Prod.mk.inj h
  have hdrop : cs.dropWhile continuesWord = [] := congrArg Cursor.rest hcursor
  have hcs : cs.takeWhile continuesWord = cs := by
    have happend := List.takeWhile_append_dropWhile (p := continuesWord) (l := cs)
    rwa [hdrop, List.append_nil] at happend
  have hrun := takeRun_append (List.dropWhile_eq_nil_iff.1 hdrop) (fun c hc => (hrest c hc).word) p'
  rw [takeWord, takeWhile]
  dsimp only
  rw [hrun]
  dsimp only at htoken ⊢
  rw [hcs] at htoken
  rw [htoken]

theorem takeNumeral_before (h : takeNumeral ⟨cs, p⟩ first = (t, ⟨[], q⟩)) (hrest : Halting rest)
    (p' : Position) : takeNumeral ⟨cs ++ rest, p'⟩ first = (t, ⟨rest, p'.after cs⟩) := by
  have hends : Ends Char.isDigit rest := fun c hc => (hrest c hc).digit
  rcases numeral_cases cs with ⟨whole, behind, rfl, hwhole, hbehind, hpoint⟩ |
    ⟨whole, fraction, behind, rfl, hwhole, hfraction, hbehind⟩
  · rw [takeNumeral_whole hwhole hbehind hpoint] at h
    obtain ⟨rfl, hcursor⟩ := Prod.mk.inj h
    obtain rfl : behind = [] := congrArg Cursor.rest hcursor
    rw [List.append_nil]
    exact takeNumeral_whole hwhole hends (fun hc => (hrest _ hc).point rfl) p'
  · rw [takeNumeral_pointed hwhole hfraction hbehind] at h
    obtain ⟨rfl, hcursor⟩ := Prod.mk.inj h
    obtain rfl : behind = [] := congrArg Cursor.rest hcursor
    rw [List.append_nil, List.append_assoc]
    exact takeNumeral_pointed hwhole hfraction hends p'

theorem takeSymbol_before (h : takeSymbol ⟨cs, p⟩ first = (t, ⟨[], q⟩)) (hrest : Halting rest)
    (p' : Position) : takeSymbol ⟨cs ++ rest, p'⟩ first = (t, ⟨rest, p'.after cs⟩) := by
  cases cs with
  | nil =>
    obtain ⟨rfl, -⟩ := Prod.mk.inj h
    exact takeSymbol_alone (fun second hsecond => (hrest second hsecond).pair first) p'
  | cons second more =>
    cases hpair : Symbol.pair? first second with
    | none =>
      -- Two characters that form no pair are two tokens, so the second one would be left.
      rw [takeSymbol_alone (by rintro _ ⟨⟩; exact hpair)] at h
      cases congrArg (fun r => r.2.rest) h
    | some mark =>
      rw [takeSymbol_pair hpair] at h
      obtain ⟨rfl, hcursor⟩ := Prod.mk.inj h
      obtain rfl : more = [] := congrArg Cursor.rest hcursor
      exact takeSymbol_pair hpair rest p'

/-- A text literal that is closed is read alike, whatever stands behind it. -/
theorem takeText_before {mark : Char} (hmark : isQuotationMark mark = true)
    (hclosed : ¬ LeftOpen (mark :: cs)) (h : takeText ⟨cs, p⟩ mark = (t, ⟨[], q⟩)) (p' : Position) :
    takeText ⟨cs ++ rest, p'⟩ mark = (t, ⟨rest, p'.after cs⟩) := by
  obtain ⟨body, hbody, rfl⟩ : ∃ body, Content mark body ∧ cs = body ++ [mark] := by
    by_contra hno
    exact hclosed ⟨mark, cs, rfl, hmark, fun body hbody hcs => hno ⟨body, hbody, hcs⟩⟩
  have hne := ne_backslash_of_isQuotationMark hmark
  rw [takeText_closed hbody hne] at h
  obtain ⟨rfl, -⟩ := Prod.mk.inj h
  rw [List.append_assoc, List.singleton_append]
  exact takeText_closed hbody hne rest p'

/-- A token that takes all of a text takes the same characters in front of everything that stops
it, unless it was left open. -/
theorem takeToken_before (hclosed : ¬ LeftOpen (first :: cs))
    (h : takeToken ⟨first :: cs, p⟩ = (t, ⟨[], q⟩)) (hrest : Halting rest) (p' : Position) :
    takeToken ⟨first :: cs ++ rest, p'⟩ = (t, ⟨rest, p'.after (first :: cs)⟩) := by
  rw [List.cons_append]
  rw [takeToken_cons] at h ⊢
  split at h
  · rename_i hquote
    rw [if_pos hquote]
    exact takeText_before hquote hclosed h _
  rename_i hquote
  rw [if_neg hquote]
  split at h
  · rename_i hdigit
    rw [if_pos hdigit]
    exact takeNumeral_before h hrest _
  rename_i hdigit
  rw [if_neg hdigit]
  split at h
  · rename_i hword
    rw [if_pos hword]
    exact takeWord_before h hrest _
  · rename_i hword
    rw [if_neg hword]
    exact takeSymbol_before h hrest _

end

end Cursor

namespace Scans

variable {t : Token} {blank used rest : List Char}

/-- **Tokens in front of white space.**  A token that is not left open is read from the same
characters in front of everything that stops it. -/
theorem before (h : Scans t blank used rest) (hclosed : ¬ LeftOpen used) {rest' : List Char}
    (hrest : Halting rest') : Scans t blank used rest' := by
  refine ⟨h.blank, h.solid, fun rest'' hfollows p => ?_⟩
  have hall := h.takes [] (.inl rfl) .origin
  obtain ⟨first, cs, rfl, -⟩ := h.solid
  rw [List.append_nil] at hall
  exact Cursor.takeToken_before hclosed hall (hrest.follows hfollows) p

/-- A token with something behind it was not left open. -/
theorem not_leftOpen (h : Scans t blank used rest) (hrest : rest ≠ []) : ¬ LeftOpen used := by
  rintro ⟨mark, more, rfl, hmark, hopen⟩
  have htake := h.takeToken .origin
  rw [List.cons_append, Cursor.takeToken_cons, if_pos hmark] at htake
  have hleft : (Cursor.takeText ⟨more ++ rest, Position.origin.advance mark⟩ mark).2.rest ≠ [] := by
    rwa [htake]
  obtain ⟨body, hbody, hmore⟩ := Cursor.exists_content hmark hleft
  rw [htake] at hmore
  have hclosed : more ++ rest = body ++ [mark] ++ rest := by
    rw [hmore, List.append_assoc]
    rfl
  exact hopen body hbody (List.append_cancel_right hclosed)

end Scans

/-! ## The tokens of a text, each with its own characters -/

/-- A text is read as some tokens, each from these characters, with white space between them. -/
inductive ReadAs : List Char → List (Token × List Char) → Prop where
  | blank {cs : List Char} (h : ∀ c ∈ cs, isWhiteSpace c = true) : ReadAs cs []
  | token {t : Token} {blank used rest : List Char} {words : List (Token × List Char)}
      (h : Scans t blank used rest) (hrest : ReadAs rest words) :
      ReadAs (blank ++ (used ++ rest)) ((t, used) :: words)

/-- Every text is read as some words, each of them a token with its characters. -/
theorem exists_readAs (cs : List Char) : ∃ words, ReadAs cs words := by
  induction cs using scan_induction with
  | blank cs hblank => exact ⟨[], .blank hblank⟩
  | token t blank used rest h ih =>
    obtain ⟨words, hwords⟩ := ih
    exact ⟨(t, used) :: words, .token h hwords⟩

namespace ReadAs

variable {cs : List Char} {words : List (Token × List Char)}

/-- The lexemes of a source have these tokens, and these characters for their texts. -/
theorem lexemes (h : ReadAs cs words) {source : String} {front : List Char}
    (hsource : source.toList = front ++ cs) :
    tokens (Lexeme.all ⟨cs, Position.origin.after front⟩) = words.map Prod.fst ∧
    (Lexeme.all ⟨cs, Position.origin.after front⟩).map (·.span.text? source) =
      words.map fun word => some (.ofList word.2) := by
  induction h generalizing front with
  | blank hblank =>
    rw [all_of_blank hblank]
    exact ⟨rfl, rfl⟩
  | @token t blank used rest words h hrest ih =>
    have hbehind : source.toList = front ++ (blank ++ used) ++ rest := by
      rw [hsource]
      simp only [List.append_assoc]
    have htext : source.toList = front ++ blank ++ (used ++ rest) := by
      rw [hsource, List.append_assoc]
    obtain ⟨htokens, htexts⟩ := ih hbehind
    rw [h.all, ← Position.after_append, ← Position.after_append]
    constructor
    · exact congrArg (t :: ·) htokens
    · rw [List.map_cons, List.map_cons, htexts, ← List.append_assoc, text?_of_span htext]

theorem ne_nil {word : Token × List Char} (h : ReadAs cs (word :: words)) : cs ≠ [] := by
  cases h with
  | token h hrest =>
    intro hnil
    exact h.used_ne_nil (List.append_eq_nil_iff.1 (List.append_eq_nil_iff.1 hnil).2).1

/-- **Other white space.**  The characters of the tokens of a text, put down again with white space
in front of them and between them, are read as the same tokens. -/
theorem respace (h : ReadAs cs words) {indent : List Char} {blanks : List (List Char)}
    (hlength : blanks.length = words.length)
    (hwhite : ∀ blank ∈ indent :: blanks, ∀ c ∈ blank, isWhiteSpace c = true)
    (hapart : ∀ blank ∈ blanks.dropLast, blank ≠ [])
    (hopen : ∀ word ∈ words.getLast?, LeftOpen word.2 → blanks.getLast? = some []) :
    ReadAs (indent ++ (List.zipWith (fun word blank => word.2 ++ blank) words blanks).flatten)
      words := by
  induction h generalizing indent blanks with
  | blank hblank =>
    rw [List.zipWith_nil_left, List.flatten_nil, List.append_nil]
    exact .blank (hwhite indent List.mem_cons_self)
  | @token t front used rest words h hrest ih =>
    obtain ⟨blank, blanks, rfl⟩ : ∃ b bs, blanks = b :: bs :=
      List.exists_cons_of_length_eq_add_one hlength
    have hwhite' : ∀ b ∈ blank :: blanks, ∀ c ∈ b, isWhiteSpace c = true :=
      fun b hb => hwhite b (List.mem_cons_of_mem _ hb)
    rw [List.zipWith_cons_cons, List.flatten_cons, List.append_assoc]
    cases words with
    | nil =>
      obtain rfl : blanks = [] := List.eq_nil_of_length_eq_zero (Nat.succ.inj hlength)
      have hbehind : Scans t front used (blank ++ []) := by
        by_cases hleft : LeftOpen used
        · obtain rfl : blank = [] := Option.some.inj (hopen (t, used) rfl hleft)
          exact h.follows (.inl rfl)
        · exact h.before hleft (.of_blank (hwhite' blank List.mem_cons_self) fun _ => rfl)
      exact .token (hbehind.indent (hwhite indent List.mem_cons_self))
        (ih rfl hwhite' nofun nofun)
    | cons word words =>
      obtain ⟨next, blanks, rfl⟩ : ∃ b bs, blanks = b :: bs :=
        List.exists_cons_of_length_eq_add_one (Nat.succ.inj hlength)
      -- Something stands behind the token in the text, so it can be stopped by the white space.
      have hblank : blank ≠ [] := hapart blank List.mem_cons_self
      have hclosed := h.not_leftOpen hrest.ne_nil
      have hstops : ∀ behind, Halting (blank ++ behind) := fun behind =>
        .of_blank (hwhite' blank List.mem_cons_self) fun hnil => absurd hnil hblank
      exact .token ((h.before hclosed (hstops _)).indent (hwhite indent List.mem_cons_self))
        (ih (Nat.succ.inj hlength) hwhite' (fun b hb => hapart b (List.mem_cons_of_mem _ hb))
          hopen)

end ReadAs

/-! ## Respacing a source -/

/-- The texts of the tokens of a source. -/
def textsOf (source : String) : List String :=
  (Lexeme.all (.ofString source)).filterMap (·.span.text? source)

/-- The tokens of a source and their texts, as they are read. -/
theorem ReadAs.textsOf {source : String} {words : List (Token × List Char)}
    (h : ReadAs source.toList words) :
    tokens (Lexeme.all (.ofString source)) = words.map Prod.fst ∧
    (Lexeme.all (.ofString source)).map (·.span.text? source) =
      (FlatScript.textsOf source).map some ∧
    FlatScript.textsOf source = words.map fun word => .ofList word.2 := by
  obtain ⟨htokens, htexts⟩ := h.lexemes (List.nil_append _).symm
  have hwords : FlatScript.textsOf source = words.map fun word => .ofList word.2 := by
    have hfilter : FlatScript.textsOf source =
        ((Lexeme.all (.ofString source)).map (·.span.text? source)).filterMap id := by
      rw [List.filterMap_map]
      rfl
    rw [hfilter]
    refine (congrArg (List.filterMap id) htexts).trans ?_
    rw [List.filterMap_map]
    exact congrFun List.filterMap_eq_map words
  refine ⟨htokens, ?_, hwords⟩
  rw [hwords, List.map_map]
  exact htexts

/-- Texts with white space behind each of them, as characters. -/
theorem toList_join_zipWith (words : List (Token × List Char)) (blanks : List String) :
    (String.join (List.zipWith (· ++ ·) (words.map fun word => .ofList word.2) blanks)).toList =
      (List.zipWith (fun word blank => word.2 ++ blank) words
        (blanks.map String.toList)).flatten := by
  rw [String.toList_join, List.flatMap, List.map_zipWith, List.zipWith_map_left,
    List.zipWith_map_right]
  simp only [String.toList_append, String.toList_ofList]

/-- **Respacing.**  The texts of the tokens of a source are put down again, with white space in
front of the first, between neighbours, where it must not be empty, and behind the last, unless that
is a text that was left open.  Then the same tokens are read, each from its own text. -/
theorem respacing_keeps_tokens {source indent : String} {blanks : List String}
    (hlength : blanks.length = (textsOf source).length)
    (hwhite : ∀ blank ∈ indent :: blanks, ∀ c ∈ blank.toList, isWhiteSpace c = true)
    (hapart : ∀ blank ∈ blanks.dropLast, blank ≠ "")
    (hopen : ∀ text ∈ (textsOf source).getLast?, LeftOpen text.toList →
      blanks.getLast? = some "") :
    let respaced := indent ++ String.join (List.zipWith (· ++ ·) (textsOf source) blanks)
    tokens (Lexeme.all (.ofString respaced)) = tokens (Lexeme.all (.ofString source)) ∧
    (Lexeme.all (.ofString source)).map (·.span.text? source) = (textsOf source).map some ∧
    (Lexeme.all (.ofString respaced)).map (·.span.text? respaced) =
      (textsOf source).map some := by
  intro respaced
  obtain ⟨words, hwords⟩ := exists_readAs source.toList
  obtain ⟨htokens, htexts, hsource⟩ := hwords.textsOf
  have hrespaced : respaced.toList = indent.toList ++
      (List.zipWith (fun word blank => word.2 ++ blank) words
        (blanks.map String.toList)).flatten := by
    show (indent ++ String.join _).toList = _
    rw [String.toList_append, hsource, toList_join_zipWith]
  have hread : ReadAs respaced.toList words := by
    rw [hrespaced]
    apply hwords.respace
    · rw [List.length_map, hlength, hsource, List.length_map]
    · rw [← List.map_cons]
      intro blank hblank
      obtain ⟨b, hb, rfl⟩ := List.mem_map.1 hblank
      exact hwhite b hb
    · rw [← List.map_dropLast]
      intro blank hblank
      obtain ⟨b, hb, rfl⟩ := List.mem_map.1 hblank
      intro hnil
      exact hapart b hb (String.toList_eq_nil_iff.1 hnil)
    · intro word hword hleft
      have hlast : String.ofList word.2 ∈ (FlatScript.textsOf source).getLast? := by
        rw [hsource, List.getLast?_map, Option.mem_def.1 hword]
        rfl
      have hempty := hopen _ hlast (by rwa [String.toList_ofList])
      rw [List.getLast?_map, hempty]
      rfl
  obtain ⟨htokens', htexts', hsame⟩ := hread.textsOf
  refine ⟨htokens'.trans htokens.symm, htexts, ?_⟩
  rw [htexts', hsame, ← hsource]

/-- A numeral that ends with a point, and a text that was left open, in narrow and wide white
space. -/
theorem respacing_keeps_tokens_open :
    textsOf "x=1.;'a \\'" = ["x", "=", "1.", ";", "'a \\'"] ∧
    tokens (Lexeme.all (.ofString "\tx\u3000= 1.\n ;\u2028'a \\'")) =
      tokens (Lexeme.all (.ofString "x=1.;'a \\'")) := by
  have htexts : textsOf "x=1.;'a \\'" = ["x", "=", "1.", ";", "'a \\'"] := by decide +kernel
  have hrespaced : "\t" ++ String.join (List.zipWith (· ++ ·) (textsOf "x=1.;'a \\'")
      ["\u3000", " ", "\n ", "\u2028", ""]) = "\tx\u3000= 1.\n ;\u2028'a \\'" := by decide +kernel
  have hwhite : (["\t", "\u3000", " ", "\n ", "\u2028", ""].all fun blank =>
      blank.toList.all isWhiteSpace) = true := by decide +kernel
  refine ⟨htexts, hrespaced ▸ (respacing_keeps_tokens ?_ ?_ ?_ ?_).1⟩
  · rw [htexts]
    rfl
  · intro blank hblank
    exact List.all_eq_true.1 (List.all_eq_true.1 hwhite blank hblank)
  · decide
  · exact fun _ _ _ => rfl

end FlatScript
