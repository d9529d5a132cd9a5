/-
# The longest match

Where a token begins that is no text literal, it takes as much as it can.  Among all beginnings of
what is left of a source, some may spell a symbol, a numeral or a word; the token is read from the
longest of these, although reading never looks at more than one character behind what it has taken.
What the token stands for depends on that spelling alone.  If there is no such beginning, a single
character is taken that belongs to no token.

* `IsSpelling` : the spellings of symbols, numerals and words; `Spells` : what they stand for;
* `Munches` : what is to be taken from a text, and read as which token;
* `Cursor.takeToken_munches` : that is what is taken;
* `longest_spelling_is_read` : in every source, wherever a token begins.
-/
import FlatScript.Proofs.Stretches

namespace FlatScript

/-! ## Spellings -/

/-- A numeral: digits, perhaps with a point behind them and more digits, which may be missing. -/
inductive IsNumeral : List Char → Prop where
  | whole {digits : List Char} (hne : digits ≠ []) (hdigits : ∀ d ∈ digits, d.isDigit = true) :
      IsNumeral digits
  | pointed {digits fraction : List Char} (hne : digits ≠ [])
      (hdigits : ∀ d ∈ digits, d.isDigit = true) (hfraction : ∀ d ∈ fraction, d.isDigit = true) :
      IsNumeral (digits ++ '.' :: fraction)

/-- A word: an alphabetic character or a low line, and then alphabetic and numeric characters and
low lines. -/
inductive IsWord : List Char → Prop where
  | intro {c : Char} {cs : List Char} (hc : isAlphabetic c = true ∨ c = '_')
      (hcs : ∀ d ∈ cs, isAlphabetic d = true ∨ isNumeric d = true ∨ d = '_') : IsWord (c :: cs)

/-- The spellings of tokens that are no text literals. -/
inductive IsSpelling (cs : List Char) : Prop where
  | symbol (mark : Symbol) (hmark : mark.text.toList = cs)
  | numeral (hcs : IsNumeral cs)
  | word (hcs : IsWord cs)

/-- What a spelling stands for: a symbol is written as it is, a numeral stands for its value, and a
word for a keyword, if it is one, and otherwise for a name. -/
inductive Spells (cs : List Char) : Token → Prop where
  | symbol (mark : Symbol) (hmark : mark.text.toList = cs) : Spells cs (.symbol mark)
  | number {x : Float} (hcs : IsNumeral cs) (hx : Numeral.value? cs = some x) :
      Spells cs (.number x)
  | keyword (word : Keyword) (hcs : IsWord cs) (hword : word.text.toList = cs) :
      Spells cs (.keyword word)
  | name (hcs : IsWord cs) (hfree : ∀ word : Keyword, word.text.toList ≠ cs) :
      Spells cs (.name (.ofList cs))

/-- The longest spelling at the front of a text. -/
structure LongestSpelling (cs used : List Char) : Prop where
  isPrefix : used <+: cs
  spelled : IsSpelling used
  longest : ∀ other, other <+: cs → IsSpelling other → other.length ≤ used.length

/-- What is to be taken from the front of a text, and read as which token: the longest spelling, if
there is any, and otherwise a single character that belongs to no token. -/
inductive Munches (cs : List Char) : List Char → Token → Prop where
  | spelling {used : List Char} {t : Token} (hused : LongestSpelling cs used)
      (ht : Spells used t) : Munches cs used t
  | stray {c : Char} (hc : cs.head? = some c)
      (hnone : ∀ other, other <+: cs → ¬ IsSpelling other) : Munches cs [c] (.unrecognized c)

/-! ## First characters of spellings -/

/-- What a spelling can be, as its first character tells. -/
inductive Shape where
  | numeral
  | word
  | symbol
deriving DecidableEq

/-- The shape that the first character of a text tells. -/
def shape? (cs : List Char) : Option Shape :=
  cs.head?.map fun c => if c.isDigit then .numeral else if startsWord c then .word else .symbol

/-- The first character alone tells which shape a spelling has. -/
theorem shape?_cons (c : Char) (cs : List Char) :
    shape? (c :: cs) =
      some (if c.isDigit then .numeral else if startsWord c then .word else .symbol) := rfl

theorem startsWord_iff {c : Char} : startsWord c = true ↔ isAlphabetic c = true ∨ c = '_' := by
  simp [startsWord]

theorem continuesWord_iff {c : Char} :
    continuesWord c = true ↔ isAlphabetic c = true ∨ isNumeric c = true ∨ c = '_' := by
  simp [continuesWord, isAlphanumeric, or_assoc]

/-- A word is told by its first character and by those behind it. -/
theorem isWord_cons_iff {c : Char} {cs : List Char} :
    IsWord (c :: cs) ↔ startsWord c = true ∧ ∀ d ∈ cs, continuesWord d = true := by
  constructor
  · rintro ⟨hc, hcs⟩
    exact ⟨startsWord_iff.2 hc, fun d hd => continuesWord_iff.2 (hcs d hd)⟩
  · rintro ⟨hc, hcs⟩
    exact ⟨startsWord_iff.1 hc, fun d hd => continuesWord_iff.1 (hcs d hd)⟩

/-- No symbol begins like a numeral or like a word. -/
theorem Symbol.shape?_text (mark : Symbol) : shape? mark.text.toList = some .symbol := by
  cases mark <;> decide +kernel

section
variable {cs text : List Char}

/-- What begins with digits has the shape of a numeral. -/
theorem shape?_of_digits {digits : List Char} (hne : digits ≠ [])
    (hdigits : ∀ d ∈ digits, d.isDigit = true) (more : List Char) :
    shape? (digits ++ more) = some .numeral := by
  obtain ⟨c, digits, rfl⟩ := List.exists_cons_of_ne_nil hne
  rw [List.cons_append, shape?_cons, if_pos (hdigits c List.mem_cons_self)]

theorem IsNumeral.shape?_eq (h : IsNumeral cs) : shape? cs = some .numeral := by
  cases h with
  | whole hne hdigits =>
    have hshape := shape?_of_digits hne hdigits []
    rwa [List.append_nil] at hshape
  | pointed hne hdigits => exact shape?_of_digits hne hdigits _

theorem IsWord.shape?_eq (h : IsWord cs) : shape? cs = some .word := by
  cases h with
  | @intro c cs hc hcs =>
    have hword := startsWord_iff.2 hc
    have hdigit : ¬ c.isDigit = true := fun hdigit => by
      rw [not_startsWord_of_isDigit hdigit] at hword
      cases hword
    rw [shape?_cons, if_neg hdigit, if_pos hword]

namespace IsSpelling

theorem ne_nil (h : IsSpelling cs) : cs ≠ [] := by
  rintro rfl
  cases h with
  | symbol mark hmark => cases hmark ▸ mark.shape?_text
  | numeral hcs => cases hcs.shape?_eq
  | word hcs => cases hcs.shape?_eq

/-- A spelling at the front of a text has the shape that the text begins with. -/
theorem shape?_eq (h : IsSpelling cs) (hfront : cs <+: text) : shape? cs = shape? text := by
  obtain ⟨c, more, rfl⟩ := List.exists_cons_of_ne_nil h.ne_nil
  obtain ⟨rest, rfl⟩ := hfront
  rfl

section
variable (h : IsSpelling cs) (hfront : cs <+: text)
include h hfront

/-- A spelling that begins like a numeral is one. -/
theorem isNumeral (hshape : shape? text = some .numeral) : IsNumeral cs := by
  rw [← h.shape?_eq hfront] at hshape
  cases h with
  | symbol mark hmark => cases hshape.symm.trans (hmark ▸ mark.shape?_text)
  | numeral hcs => exact hcs
  | word hcs => cases hshape.symm.trans hcs.shape?_eq

theorem isWord (hshape : shape? text = some .word) : IsWord cs := by
  rw [← h.shape?_eq hfront] at hshape
  cases h with
  | symbol mark hmark => cases hshape.symm.trans (hmark ▸ mark.shape?_text)
  | numeral hcs => cases hshape.symm.trans hcs.shape?_eq
  | word hcs => exact hcs

/-- Every other spelling is that of a symbol. -/
theorem exists_symbol (hshape : shape? text = some .symbol) :
    ∃ mark : Symbol, mark.text.toList = cs := by
  rw [← h.shape?_eq hfront] at hshape
  cases h with
  | symbol mark hmark => exact ⟨mark, hmark⟩
  | numeral hcs => cases hshape.symm.trans hcs.shape?_eq
  | word hcs => cases hshape.symm.trans hcs.shape?_eq

end

end IsSpelling

end

/-! ## Symbols and keywords by their texts -/

/-- A symbol is a character that makes one alone, or two that make one together. -/
theorem Symbol.text_cases (mark : Symbol) :
    (∃ c, mark.text.toList = [c] ∧ single? c = some mark) ∨
      ∃ c d, mark.text.toList = [c, d] ∧ pair? c d = some mark := by
  cases mark with
  | plusPlus | minusMinus | equalsEquals | notEquals | lessEquals | greaterEquals =>
    exact .inr ⟨_, _, rfl, rfl⟩
  | _ => exact .inl ⟨_, rfl, rfl⟩

/-- A symbol has one character or two. -/
theorem Symbol.length_text_le (mark : Symbol) : mark.text.toList.length ≤ 2 := by
  rcases mark.text_cases with ⟨c, hc, -⟩ | ⟨c, d, hcd, -⟩
  · rw [hc]
    exact Nat.le_succ 1
  · rw [hcd]
    exact Nat.le_refl 2

/-- A symbol that is found by one character is written with it. -/
theorem Symbol.text_of_single? {c : Char} {mark : Symbol} (h : single? c = some mark) :
    mark.text.toList = [c] := by
  unfold single? at h
  split at h <;> cases h <;> rfl

theorem Symbol.text_of_pair? {c d : Char} {mark : Symbol} (h : pair? c d = some mark) :
    mark.text.toList = [c, d] := by
  unfold pair? at h
  split at h <;> cases h <;> rfl

/-- No two symbols are written alike. -/
theorem Symbol.text_injective {mark mark' : Symbol} (h : mark.text.toList = mark'.text.toList) :
    mark = mark' := by
  rcases mark.text_cases with ⟨c, hc, hmark⟩ | ⟨c, d, hcd, hmark⟩ <;>
    rcases mark'.text_cases with ⟨c', hc', hmark'⟩ | ⟨c', d', hcd', hmark'⟩
  · rw [hc, hc'] at h
    cases h
    exact Option.some.inj (hmark.symm.trans hmark')
  · rw [hc, hcd'] at h
    cases h
  · rw [hcd, hc'] at h
    cases h
  · rw [hcd, hcd'] at h
    cases h
    exact Option.some.inj (hmark.symm.trans hmark')

/-- A keyword is found by its word. -/
theorem Keyword.ofWord?_text (word : Keyword) : ofWord? word.text = some word := by
  cases word <;> decide

/-- A word is looked up among all keywords. -/
theorem Keyword.text_of_ofWord? {x : String} {word : Keyword} (h : ofWord? x = some word) :
    word.text = x := by
  have hfound := List.find?_some h
  exact of_decide_eq_true hfound

/-! ## The values of numerals -/

/-- Digits alone are a numeral, and its value is that of its digits. -/
theorem Numeral.value?_whole {digits : List Char} (hne : digits ≠ [])
    (hdigits : ∀ d ∈ digits, d.isDigit = true) : value? digits = some (value digits []) := by
  have htake : digits.takeWhile Char.isDigit = digits := List.takeWhile_eq_self_iff.2 hdigits
  have hdrop : digits.dropWhile Char.isDigit = [] := List.dropWhile_eq_nil_iff.2 hdigits
  obtain ⟨d, digits, rfl⟩ := List.exists_cons_of_ne_nil hne
  unfold value?
  rw [htake, hdrop]

/-- Digits with a point among them are a numeral, even if none are behind the point. -/
theorem Numeral.value?_pointed {digits fraction : List Char} (hne : digits ≠ [])
    (hdigits : ∀ d ∈ digits, d.isDigit = true) (hfraction : ∀ d ∈ fraction, d.isDigit = true) :
    value? (digits ++ '.' :: fraction) = some (value digits fraction) := by
  have htake : (digits ++ '.' :: fraction).takeWhile Char.isDigit = digits := by
    rw [List.takeWhile_append_of_pos hdigits]
    simp
  have hdrop : (digits ++ '.' :: fraction).dropWhile Char.isDigit = '.' :: fraction := by
    rw [List.dropWhile_append_of_pos hdigits]
    simp
  obtain ⟨d, digits, rfl⟩ := List.exists_cons_of_ne_nil hne
  unfold value?
  rw [htake, hdrop]
  exact if_pos (List.all_eq_true.2 hfraction)

/-! ## What a spelling stands for -/

namespace Spells

variable {cs : List Char} {t : Token}

/-- A word stands for the keyword that it is, or else for a name. -/
theorem ofWord (hcs : IsWord cs) : Spells cs (.ofWord (.ofList cs)) := by
  unfold Token.ofWord
  cases hreserved : Keyword.ofWord? (.ofList cs) with
  | some word =>
    refine .keyword word hcs ?_
    rw [Keyword.text_of_ofWord? hreserved, String.toList_ofList]
  | none =>
    refine .name hcs fun word htext => ?_
    have hfound := word.ofWord?_text
    rw [← String.ofList_toList (s := word.text), htext, hreserved] at hfound
    cases hfound

/-- A word spells a keyword if there is one, and otherwise a name. -/
theorem eq_ofWord (h : Spells cs t) (hcs : IsWord cs) : t = .ofWord (.ofList cs) := by
  unfold Token.ofWord
  cases h with
  | symbol mark hmark => cases hcs.shape?_eq.symm.trans (hmark ▸ mark.shape?_text)
  | number hnumeral => cases hcs.shape?_eq.symm.trans hnumeral.shape?_eq
  | keyword word _ hword =>
    obtain rfl := hword
    rw [String.ofList_toList, Keyword.ofWord?_text]
  | name _ hfree =>
    have hnone : Keyword.ofWord? (.ofList cs) = none := by
      by_contra hsome
      obtain ⟨word, hword⟩ := Option.ne_none_iff_exists'.1 hsome
      refine hfree word ?_
      rw [Keyword.text_of_ofWord? hword, String.toList_ofList]
    rw [hnone]

theorem eq_symbol (h : Spells cs t) {mark : Symbol} (hmark : mark.text.toList = cs) :
    t = .symbol mark := by
  have hshape : shape? cs = some .symbol := hmark ▸ mark.shape?_text
  cases h with
  | symbol mark' hmark' => rw [Symbol.text_injective (hmark'.trans hmark.symm)]
  | number hcs => cases hshape.symm.trans hcs.shape?_eq
  | keyword word hcs => cases hshape.symm.trans hcs.shape?_eq
  | name hcs => cases hshape.symm.trans hcs.shape?_eq

theorem eq_number (h : Spells cs t) (hcs : IsNumeral cs) {x : Float}
    (hx : Numeral.value? cs = some x) : t = .number x := by
  cases h with
  | symbol mark hmark => cases hcs.shape?_eq.symm.trans (hmark ▸ mark.shape?_text)
  | number _ hx' => rw [Option.some.inj (hx'.symm.trans hx)]
  | keyword word hword => cases hcs.shape?_eq.symm.trans hword.shape?_eq
  | name hword => cases hcs.shape?_eq.symm.trans hword.shape?_eq

/-- A spelling stands for one token only. -/
theorem unique {t' : Token} (h : Spells cs t) (h' : Spells cs t') : t = t' := by
  have hword : IsWord cs → t = t' := fun hcs => (h.eq_ofWord hcs).trans (h'.eq_ofWord hcs).symm
  cases h with
  | symbol mark hmark => exact (h'.eq_symbol hmark).symm
  | number hcs hx => exact (h'.eq_number hcs hx).symm
  | keyword word hcs => exact hword hcs
  | name hcs => exact hword hcs

end Spells

/-- There is one longest spelling, or else one first character. -/
theorem Munches.unique {cs used used' : List Char} {t t' : Token} (h : Munches cs used t)
    (h' : Munches cs used' t') : used = used' ∧ t = t' := by
  cases h with
  | spelling hused ht =>
    cases h' with
    | spelling hused' ht' =>
      have hle := hused.longest used' hused'.isPrefix hused'.spelled
      have hfront := List.prefix_of_prefix_length_le hused'.isPrefix hused.isPrefix hle
      obtain rfl := hfront.eq_of_length_le (hused'.longest used hused.isPrefix hused.spelled)
      exact ⟨rfl, ht.unique ht'⟩
    | stray hc hnone => exact absurd hused.spelled (hnone used hused.isPrefix)
  | stray hc hnone =>
    cases h' with
    | spelling hused' ht' => exact absurd hused'.spelled (hnone used' hused'.isPrefix)
    | stray hc' hnone' =>
      obtain rfl := Option.some.inj (hc.symm.trans hc')
      exact ⟨rfl, rfl⟩

/-! ## The longest spelling of each shape -/

section
variable {digits fraction rest : List Char} (hne : digits ≠ [])
  (hdigits : ∀ d ∈ digits, d.isDigit = true) (hends : Ends Char.isDigit rest)
include hne hdigits hends

/-- All digits that there are, if no point is behind them. -/
theorem longestSpelling_whole (hpoint : rest.head? ≠ some '.') :
    LongestSpelling (digits ++ rest) digits := by
  refine ⟨⟨rest, rfl⟩, .numeral (.whole hne hdigits), fun other hfront hother => ?_⟩
  have hkind := hother.isNumeral hfront (shape?_of_digits hne hdigits rest)
  obtain ⟨k, hk⟩ := hfront
  cases hkind with
  | whole _ hds => exact length_le_of_run hds hdigits hends hk
  | pointed _ hds =>
    -- Its digits would be all that there are, and its point the one that is missing.
    rw [List.append_assoc, List.cons_append] at hk
    obtain ⟨-, hrest⟩ := run_unique hds hdigits (ends_point _) hends hk
    exact absurd (hrest ▸ rfl) hpoint

/-- All digits that there are, the point behind them, and all digits behind the point. -/
theorem longestSpelling_pointed (hfraction : ∀ d ∈ fraction, d.isDigit = true) :
    LongestSpelling (digits ++ '.' :: (fraction ++ rest)) (digits ++ '.' :: fraction) := by
  refine ⟨⟨rest, by rw [List.append_assoc, List.cons_append]⟩,
    .numeral (.pointed hne hdigits hfraction), fun other hfront hother => ?_⟩
  have hkind := hother.isNumeral hfront (shape?_of_digits hne hdigits _)
  obtain ⟨k, hk⟩ := hfront
  cases hkind with
  | whole _ hds =>
    have hle := length_le_of_run hds hdigits (ends_point _) hk
    rw [List.length_append]
    exact Nat.le_add_right_of_le hle
  | pointed _ hds hfraction' =>
    rw [List.append_assoc, List.cons_append] at hk
    obtain ⟨rfl, hbehind⟩ := run_unique hds hdigits (ends_point _) (ends_point _) hk
    have hle := length_le_of_run hfraction' hfraction hends (List.cons.inj hbehind).2
    simp only [List.length_cons, List.length_append]
    omega

end

/-- All characters that go on with a word. -/
theorem longestSpelling_word {first : Char} {letters rest : List Char}
    (hword : IsWord (first :: letters)) (hends : Ends continuesWord rest) :
    LongestSpelling (first :: letters ++ rest) (first :: letters) := by
  refine ⟨⟨rest, rfl⟩, .word hword, fun other hfront hother => ?_⟩
  have hkind := hother.isWord hfront hword.shape?_eq
  cases hkind with
  | @intro c cs hc hcs =>
    obtain ⟨k, hk⟩ := hfront
    have hle := length_le_of_run (fun d hd => continuesWord_iff.2 (hcs d hd))
      (isWord_cons_iff.1 hword).2 hends (List.cons.inj hk).2
    exact Nat.succ_le_succ hle

/-- A symbol whose first character forms no pair with the next one is that character alone. -/
theorem IsSpelling.eq_singleton {cs more : List Char} {first : Char} (h : IsSpelling cs)
    (hfront : cs <+: first :: more) (hshape : shape? (first :: more) = some .symbol)
    (halone : ∀ second, more.head? = some second → Symbol.pair? first second = none) :
    cs = [first] ∧ ∃ mark, Symbol.single? first = some mark := by
  obtain ⟨mark, rfl⟩ := h.exists_symbol hfront hshape
  obtain ⟨k, hk⟩ := hfront
  rcases mark.text_cases with ⟨c, hc, hmark⟩ | ⟨c, d, hcd, hmark⟩
  · rw [hc] at hk ⊢
    obtain ⟨rfl, -⟩ := List.cons.inj hk
    exact ⟨rfl, mark, hmark⟩
  · rw [hcd] at hk
    obtain ⟨rfl, rfl⟩ := List.cons.inj hk
    rw [halone d rfl] at hmark
    cases hmark

/-! ## Readers of tokens take the longest spelling -/

/-- Behind the first character of a token, a reader takes what is missing of the longest
spelling. -/
def Completes (read : Cursor → Token × Cursor) (first : Char) (more : List Char) : Prop :=
  ∃ t used rest, more = used ++ rest ∧ Munches (first :: more) (first :: used) t ∧
    ∀ p, read ⟨more, p⟩ = (t, ⟨rest, p.after used⟩)

namespace Cursor

variable {first : Char} (more : List Char)

/-- A numeral is taken up to a character behind its digits that is no point, or up to one behind the
digits that follow its point. -/
theorem takeNumeral_completes (hdigit : first.isDigit = true) :
    Completes (·.takeNumeral first) first more := by
  have hdigits : ∀ {whole : List Char}, (∀ d ∈ whole, d.isDigit = true) →
      ∀ d ∈ first :: whole, d.isDigit = true := by
    intro whole hwhole
    exact List.forall_mem_cons.2 ⟨hdigit, hwhole⟩
  rcases numeral_cases more with ⟨whole, rest, rfl, hwhole, hends, hpoint⟩ |
    ⟨whole, fraction, rest, rfl, hwhole, hfraction, hends⟩
  · have hne : first :: whole ≠ [] := List.cons_ne_nil _ _
    refine ⟨.number (Numeral.value (first :: whole) []), whole, rest, rfl,
      .spelling (longestSpelling_whole hne (hdigits hwhole) hends hpoint)
        (.number (.whole hne (hdigits hwhole)) ?_), takeNumeral_whole hwhole hends hpoint⟩
    exact Numeral.value?_whole hne (hdigits hwhole)
  · have hne : first :: whole ≠ [] := List.cons_ne_nil _ _
    refine ⟨.number (Numeral.value (first :: whole) fraction), whole ++ '.' :: fraction, rest, ?_,
      .spelling (longestSpelling_pointed hne (hdigits hwhole) hends hfraction)
        (.number (.pointed hne (hdigits hwhole) hfraction) ?_),
      takeNumeral_pointed hwhole hfraction hends⟩
    · rw [List.append_assoc, List.cons_append]
    · exact Numeral.value?_pointed hne (hdigits hwhole) hfraction

/-- A word is taken up to the first character that does not belong to it. -/
theorem takeWord_completes (hword : startsWord first = true) :
    Completes (·.takeWord first) first more := by
  have hspelled : IsWord (first :: more.takeWhile continuesWord) :=
    isWord_cons_iff.2 ⟨hword, fun c => List.mem_takeWhile_imp⟩
  have hlongest := longestSpelling_word hspelled (ends_dropWhile continuesWord more)
  rw [List.cons_append, List.takeWhile_append_dropWhile] at hlongest
  refine ⟨.ofWord (.ofList (first :: more.takeWhile continuesWord)), more.takeWhile continuesWord,
    more.dropWhile continuesWord, List.takeWhile_append_dropWhile.symm,
    .spelling hlongest (.ofWord hspelled), fun p => ?_⟩
  show takeWord ⟨more, p⟩ first = _
  rw [takeWord, takeWhile_eq]

/-- Two characters are taken if they make a symbol together, and otherwise one. -/
theorem takeSymbol_completes (hdigit : first.isDigit = false) (hword : startsWord first = false) :
    Completes (·.takeSymbol first) first more := by
  have hshape : shape? (first :: more) = some .symbol := by
    rw [shape?_cons, hdigit, hword]
    rfl
  rcases symbol_cases first more with ⟨second, mark, rest, rfl, hmark⟩ | halone
  · have htext := Symbol.text_of_pair? hmark
    refine ⟨.symbol mark, [second], rest, rfl,
      .spelling ⟨⟨rest, rfl⟩, .symbol mark htext, ?_⟩ (.symbol mark htext),
      takeSymbol_pair hmark rest⟩
    intro other hfront hother
    obtain ⟨mark', rfl⟩ := hother.exists_symbol hfront hshape
    exact mark'.length_text_le
  · refine ⟨takeSymbol.alone first, [], more, rfl, ?_, takeSymbol_alone halone⟩
    unfold takeSymbol.alone
    cases hmark : Symbol.single? first with
    | some mark =>
      have htext := Symbol.text_of_single? hmark
      refine .spelling ⟨⟨more, rfl⟩, .symbol mark htext, fun other hfront hother => ?_⟩
        (.symbol mark htext)
      rw [(hother.eq_singleton hfront hshape halone).1]
    | none =>
      refine .stray rfl fun other hfront hother => ?_
      obtain ⟨-, mark, hsome⟩ := hother.eq_singleton hfront hshape halone
      rw [hmark] at hsome
      cases hsome

/-- **Tokens.**  What does not begin with a quotation mark is read from its longest spelling. -/
theorem takeToken_munches (hquote : isQuotationMark first = false) :
    ∃ t used rest, first :: more = used ++ rest ∧ Munches (first :: more) used t ∧
      ∀ p, takeToken ⟨first :: more, p⟩ = (t, ⟨rest, p.after used⟩) := by
  have hread : ∃ read : Cursor → Token × Cursor, Completes read first more ∧
      ∀ p, takeToken ⟨first :: more, p⟩ = read ⟨more, p.advance first⟩ := by
    cases hdigit : first.isDigit with
    | true =>
      refine ⟨_, takeNumeral_completes more hdigit, fun p => ?_⟩
      rw [takeToken_cons, hquote, hdigit, if_neg nofun, if_pos rfl]
    | false =>
      cases hword : startsWord first with
      | true =>
        refine ⟨_, takeWord_completes more hword, fun p => ?_⟩
        rw [takeToken_cons, hquote, hdigit, hword, if_neg nofun, if_neg nofun, if_pos rfl]
      | false =>
        refine ⟨_, takeSymbol_completes more hdigit hword, fun p => ?_⟩
        rw [takeToken_cons, hquote, hdigit, hword, if_neg nofun, if_neg nofun, if_neg nofun]
  obtain ⟨read, ⟨t, used, rest, hmore, hmunches, hread⟩, heq⟩ := hread
  refine ⟨t, first :: used, rest, congrArg (first :: ·) hmore, hmunches, fun p => ?_⟩
  rw [heq, hread]
  rfl

end Cursor

/-! ## In a source -/

/-- **The longest match.**  Where a token begins in a source, and not with a quotation mark, the
longest spelling that stands there is taken, and read as what it stands for; if none stands there, a
single character is taken that is not recognized.  This leaves no choice, the token has the span of
what is taken, and reading goes on right behind it. -/
theorem longest_spelling_is_read {source : String} {front blank more : List Char} {first : Char}
    (h : BeginsAt source front blank (first :: more)) (hquote : isQuotationMark first = false) :
    ∃ used rest t, first :: more = used ++ rest ∧ Munches (first :: more) used t ∧
      (∀ used' t', Munches (first :: more) used' t' → used' = used ∧ t' = t) ∧
      ReadAt source front blank used rest t := by
  obtain ⟨t, used, rest, hsplit, hmunches, htake⟩ := Cursor.takeToken_munches more hquote
  refine ⟨used, rest, t, hsplit, hmunches, fun used' t' h' => h'.unique hmunches, ?_⟩
  rw [hsplit] at h htake
  exact h.readAt htake

/-- Of three equals signs, the first two are read together. -/
theorem longest_spelling_is_read_equals :
    BeginsAt "a ===b" ['a'] [' '] ['=', '=', '=', 'b'] ∧ isQuotationMark '=' = false ∧
      ReadAt "a ===b" ['a'] [' '] ['=', '='] ['=', 'b'] (.symbol .equalsEquals) := by
  have hbegins : BeginsAt "a ===b" ['a'] [' '] ['=', '=', '=', 'b'] := by
    refine ⟨by decide +kernel, List.forall_mem_singleton.2 (by decide +kernel), ?_⟩
    rintro _ ⟨⟩
    decide +kernel
  have hmunches : Munches ['=', '=', '=', 'b'] ['=', '='] (.symbol .equalsEquals) := by
    refine .spelling ⟨⟨['=', 'b'], rfl⟩, .symbol .equalsEquals rfl, ?_⟩ (.symbol .equalsEquals rfl)
    intro other hfront hother
    obtain ⟨mark, rfl⟩ := hother.exists_symbol hfront (by decide +kernel)
    exact mark.length_text_le
  obtain ⟨used, rest, t, hsplit, -, hunique, hread⟩ := longest_spelling_is_read hbegins rfl
  obtain ⟨rfl, rfl⟩ := hunique _ _ hmunches
  have hrest : ['=', '='] ++ ['=', 'b'] = ['=', '='] ++ rest := hsplit
  obtain rfl := List.append_cancel_left hrest
  exact ⟨hbegins, rfl, hread⟩

end FlatScript
