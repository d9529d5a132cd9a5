/-
# Tokens cut out of a source

A numeral or a word need not be put together character by character.  It is enough to remember the
byte at which it began, and to cut it out of the source when it has ended.  Read in this way, a
token could go wrong: the two offsets might not be places of the source, or what was cut out might
have no value.  Neither ever happens, and the tokens are the same.

* `cut` : the text between two byte offsets, or a fault;
* `Lexeme.cutNext` : reads a lexeme by cutting it out;
* `Cursor.CutsOut` : what lies between two places of a source, as characters and as bytes;
* `Lexeme.cutNext_eq` : wherever a cursor stands in a source, the lexeme cut out is the one that is
  read there.
-/
import FlatScript.Proofs.CursorWalk
import FlatScript.Proofs.LongestMatch

namespace FlatScript

/-! ## Cutting -/

/-- What must not happen while a token is cut out of a source. -/
inductive CutFault where
  /-- The offsets are reversed, or one of them is not a place between two characters. -/
  | misplaced (start stop : ℕ)
  /-- The text was scanned as a numeral but has no value. -/
  | valueless (text : String)
deriving DecidableEq

/-- The text of a source between two byte offsets. -/
def cut (source : String) (start stop : ℕ) : Except CutFault String :=
  match Span.text? ⟨{ byte := start }, { byte := stop }⟩ source with
  | some text => .ok text
  | none => .error (.misplaced start stop)

namespace Cursor

/-- The byte offset of the character that comes next in a source, or the size of the source at its
end. -/
def offsetIn (source : String) (cursor : Cursor) : ℕ :=
  (cursor.peek.map Prod.fst).getD source.utf8ByteSize

/-- Reads a numeral that began at the byte `start`, and cuts it out for its value. -/
def cutNumeral (source : String) (start : ℕ) (cursor : Cursor) :
    Except CutFault (Token × Cursor) := do
  let (_, cursor) := cursor.takeWhile Char.isDigit
  let (pointed, cursor) := cursor.takeIf '.'
  let (_, cursor) := if pointed then cursor.takeWhile Char.isDigit else ([], cursor)
  let text ← cut source start (cursor.offsetIn source)
  match Numeral.value? text.toList with
  | some x => return (.number x, cursor)
  | none => throw (.valueless text)

/-- Reads a word that began at the byte `start`, and cuts it out: a keyword or a name. -/
def cutWord (source : String) (start : ℕ) (cursor : Cursor) :
    Except CutFault (Token × Cursor) := do
  let (_, cursor) := cursor.takeWhile continuesWord
  let text ← cut source start (cursor.offsetIn source)
  return (.ofWord text, cursor)

/-- Reads the token that begins with the next character.  The offset of that character is the one at
which a numeral or a word begins. -/
def cutToken (source : String) (cursor : Cursor) : Except CutFault (Token × Cursor) :=
  match cursor.take with
  | (none, behind) => .ok (.endOfInput, behind)
  | (some (start, first), behind) =>
    if isQuotationMark first then .ok (behind.takeText first)
    else if first.isDigit then behind.cutNumeral source start
    else if startsWord first then behind.cutWord source start
    else .ok (behind.takeSymbol first)

end Cursor

/-- Skips white space and reads one lexeme, by cutting it out of the source. -/
def Lexeme.cutNext (source : String) (cursor : Cursor) : Except CutFault (Lexeme × Cursor) := do
  let (_, start) := cursor.takeWhile isWhiteSpace
  let (token, stop) ← start.cutToken source
  return (⟨token, ⟨start.position, stop.position⟩⟩, stop)

/-! ## Places of a source -/

/-- What stands between two places of a source is cut out at the sizes of what is in front of
them. -/
theorem cut_of_append {source : String} {front used rest : List Char}
    (h : source.toList = front ++ (used ++ rest)) :
    cut source (String.ofList front).utf8ByteSize (String.ofList (front ++ used)).utf8ByteSize =
      .ok (.ofList used) := by
  have hbyte : ∀ cs, (String.ofList cs).utf8ByteSize = (Position.origin.after cs).byte := by
    intro cs
    rw [← bytes_toList, String.toList_ofList, Position.byte_after]
    exact (Nat.zero_add _).symm
  have htext : Span.text? ⟨{ byte := (Position.origin.after front).byte },
      { byte := (Position.origin.after (front ++ used)).byte }⟩ source = some (.ofList used) :=
    text?_of_span h
  rw [hbyte, hbyte, cut, htext]

/-- In the middle of a character nothing can be cut. -/
example : cut "é;" 1 3 = .error (.misplaced 1 3) := by decide +kernel

namespace Cursor

/-- Between two places of a source stand the characters `used`: they are taken on the way, the
offsets of both places are the sizes of what is in front of them, and cutting there gives just these
characters. -/
structure CutsOut (source : String) (start stop : Cursor) (used : List Char) : Prop where
  taken : start.rest = used ++ stop.rest
  places : ∃ front, source.toList = front ++ (used ++ stop.rest) ∧
    start.offset = (String.ofList front).utf8ByteSize ∧
    stop.offsetIn source = (String.ofList (front ++ used)).utf8ByteSize
  cut_eq : cut source start.offset (stop.offsetIn source) = .ok (.ofList used)

variable {source : String} {front used more : List Char} {first : Char} {start stop : Cursor}

/-- What a cursor moves over in a source can be cut out of it. -/
theorem Moved.cutsOut (h : Moved (.ofString source) front start) (h' : Moved start used stop) :
    CutsOut source start stop used := by
  have hsource : source.toList = front ++ (used ++ stop.rest) := by
    rw [← h'.rest]
    exact h.rest
  have hstart := h.standsBehind.offset_eq
  have hbehind := (h.trans h').standsBehind
  have hstop : stop.offsetIn source = (String.ofList (front ++ used)).utf8ByteSize :=
    hbehind.offset_eq_peek.symm.trans hbehind.offset_eq
  refine ⟨h'.rest, ⟨front, hsource, hstart, hstop⟩, ?_⟩
  rw [hstart, hstop, cut_of_append hsource]

end Cursor

/-! ## Numerals and words -/

section
variable {cs used : List Char} {t : Token}

/-- Where a digit stands, what is taken is a numeral. -/
theorem Munches.numeral (h : Munches cs used t) {first : Char} (hfirst : cs.head? = some first)
    (hdigit : first.isDigit = true) :
    ∃ x, t = .number x ∧ IsNumeral used ∧ Numeral.value? used = some x := by
  obtain ⟨more, rfl⟩ := List.head?_eq_some_iff.1 hfirst
  have hshape : shape? (first :: more) = some .numeral := by
    rw [shape?_cons, if_pos hdigit]
  cases h with
  | spelling hused ht =>
    have hnumeral := hused.spelled.isNumeral hused.isPrefix hshape
    cases ht with
    | number _ hx => exact ⟨_, rfl, hnumeral, hx⟩
    | symbol mark hmark => cases hnumeral.shape?_eq.symm.trans (hmark ▸ mark.shape?_text)
    | keyword word hword => cases hnumeral.shape?_eq.symm.trans hword.shape?_eq
    | name hword => cases hnumeral.shape?_eq.symm.trans hword.shape?_eq
  | stray _ hnone =>
    have hsingle : IsNumeral [first] :=
      .whole (List.cons_ne_nil _ _) (List.forall_mem_singleton.2 hdigit)
    exact absurd (.numeral hsingle) (hnone [first] ⟨more, rfl⟩)

/-- Where a word may start, what is taken is a word. -/
theorem Munches.word (h : Munches cs used t) {first : Char} (hfirst : cs.head? = some first)
    (hstarts : startsWord first = true) : t = .ofWord (.ofList used) ∧ IsWord used := by
  obtain ⟨more, rfl⟩ := List.head?_eq_some_iff.1 hfirst
  have hsingle : IsWord [first] := isWord_cons_iff.2 ⟨hstarts, List.forall_mem_nil _⟩
  cases h with
  | spelling hused ht =>
    have hword := hused.spelled.isWord hused.isPrefix hsingle.shape?_eq
    exact ⟨ht.eq_ofWord hword, hword⟩
  | stray _ hnone => exact absurd (.word hsingle) (hnone [first] ⟨more, rfl⟩)

end

namespace Cursor

/-- A reader that completes spellings moves over what it takes. -/
theorem moved_of_completes {read : Cursor → Token × Cursor} (h : Completes read first more)
    (hrest : start.rest = first :: more) :
    ∃ t used stop, read start.take.2 = (t, stop) ∧ Moved start used stop ∧
      Munches start.rest used t := by
  obtain ⟨rest, p⟩ := start
  obtain rfl : rest = first :: more := hrest
  obtain ⟨t, used, behind, hmore, hmunches, hread⟩ := h
  exact ⟨t, first :: used, _, hread _, ⟨congrArg (first :: ·) hmore, rfl⟩, hmunches⟩

section
variable (h : Moved (.ofString source) front start) (hfirst : start.rest = first :: more)
include h hfirst

/-- The characters of a numeral are cut out of the source, and have the value that is read. -/
theorem cutsOut_numeral (hdigit : first.isDigit = true) :
    ∃ used x stop, start.take.2.takeNumeral first = (.number x, stop) ∧
      CutsOut source start stop used ∧ IsNumeral used ∧ Numeral.value? used = some x := by
  obtain ⟨t, used, stop, hread, hmoved, hmunches⟩ :=
    moved_of_completes (takeNumeral_completes more hdigit) hfirst
  obtain ⟨x, rfl, hnumeral, hx⟩ := hmunches.numeral (hfirst ▸ rfl) hdigit
  exact ⟨used, x, stop, hread, h.cutsOut hmoved, hnumeral, hx⟩

/-- The characters of a word are cut out of the source. -/
theorem cutsOut_word (hstarts : startsWord first = true) :
    ∃ used stop, start.take.2.takeWord first = (.ofWord (.ofList used), stop) ∧
      CutsOut source start stop used ∧ IsWord used := by
  obtain ⟨t, used, stop, hread, hmoved, hmunches⟩ :=
    moved_of_completes (takeWord_completes more hstarts) hfirst
  obtain ⟨rfl, hword⟩ := hmunches.word (hfirst ▸ rfl) hstarts
  exact ⟨used, stop, hread, h.cutsOut hmoved, hword⟩

/-! ## Reading by cutting -/

theorem cutNumeral_eq (hdigit : first.isDigit = true) :
    start.take.2.cutNumeral source start.offset = .ok (start.take.2.takeNumeral first) := by
  obtain ⟨used, x, stop, hread, hcut, -, hx⟩ := cutsOut_numeral h hfirst hdigit
  -- Both readers stop at the same place, since they scan in the same way.
  have hstop : start.take.2.cutNumeral source start.offset =
      (cut source start.offset ((start.take.2.takeNumeral first).2.offsetIn source)).bind
        fun text => match Numeral.value? text.toList with
          | some x => .ok (.number x, (start.take.2.takeNumeral first).2)
          | none => .error (.valueless text) := rfl
  rw [hstop, hread, hcut.cut_eq]
  show (match Numeral.value? (String.ofList used).toList with
    | some x => _
    | none => _) = _
  rw [String.toList_ofList, hx]

theorem cutWord_eq (hstarts : startsWord first = true) :
    start.take.2.cutWord source start.offset = .ok (start.take.2.takeWord first) := by
  obtain ⟨used, stop, hread, hcut, -⟩ := cutsOut_word h hfirst hstarts
  have hstop : start.take.2.cutWord source start.offset =
      (cut source start.offset ((start.take.2.takeWord first).2.offsetIn source)).bind
        fun text => .ok (.ofWord text, (start.take.2.takeWord first).2) := rfl
  rw [hstop, hread, hcut.cut_eq]
  rfl

end

/-- **Tokens.**  A token is the same whether it is put together or cut out of the source. -/
theorem cutToken_eq (h : Moved (.ofString source) front start) :
    start.cutToken source = .ok start.takeToken := by
  obtain ⟨rest, p⟩ := start
  cases rest with
  | nil => rfl
  | cons first more =>
    have hcut : cutToken source ⟨first :: more, p⟩ =
        if isQuotationMark first then .ok (takeText ⟨more, p.advance first⟩ first)
        else if first.isDigit then cutNumeral source p.byte ⟨more, p.advance first⟩
        else if startsWord first then cutWord source p.byte ⟨more, p.advance first⟩
        else .ok (takeSymbol ⟨more, p.advance first⟩ first) := rfl
    rw [hcut, takeToken_cons]
    split
    · rfl
    split
    · next hdigit => exact cutNumeral_eq h rfl hdigit
    split
    · next hstarts => exact cutWord_eq h rfl hstarts
    · rfl

/-- Whatever token is read, the cursor moves over some characters. -/
theorem exists_moved_takeToken (cursor : Cursor) :
    ∃ used, Moved cursor used cursor.takeToken.2 := by
  obtain ⟨rest, p⟩ := cursor
  cases rest with
  | nil => exact ⟨[], .refl _⟩
  | cons first more =>
    obtain ⟨t, used, rest, hmore, htake⟩ := splices_takeToken first more
    have hread := htake rest (.refl rest) p
    rw [← hmore] at hread
    rw [hread]
    exact ⟨first :: used, hmore, rfl⟩

/-- The cursor behind the first `k` lexemes of a source. -/
def behind (source : String) : ℕ → Cursor
  | 0 => .ofString source
  | k + 1 => (Lexeme.next (behind source k)).2

/-- Drawing lexemes only moves the cursor through the source. -/
theorem exists_moved_behind (source : String) (k : ℕ) :
    ∃ front, Moved (.ofString source) front (behind source k) := by
  induction k with
  | zero => exact ⟨[], .refl _⟩
  | succ k ih =>
    obtain ⟨front, hfront⟩ := ih
    have hblank := moved_takeWhile (behind source k) isWhiteSpace
    obtain ⟨used, hused⟩ := exists_moved_takeToken ((behind source k).takeWhile isWhiteSpace).2
    exact ⟨_, (hfront.trans hblank).trans hused⟩

/-- At the place of a source where a token begins, nothing can go wrong with it.  The characters of
a numeral or a word are cut out at places of the source; those of a numeral are digits with perhaps
a point among them or behind them, and have the value that is read. -/
structure CutsTokens (source : String) (start : Cursor) : Prop where
  numeral : ∀ first more, start.rest = first :: more → first.isDigit = true →
    ∃ used x stop, start.take.2.takeNumeral first = (.number x, stop) ∧
      CutsOut source start stop used ∧ IsNumeral used ∧ Numeral.value? used = some x
  word : ∀ first more, start.rest = first :: more → startsWord first = true →
    ∃ used stop, start.take.2.takeWord first = (.ofWord (.ofList used), stop) ∧
      CutsOut source start stop used ∧ IsWord used
  token : start.cutToken source = .ok start.takeToken

theorem Moved.cutsTokens (h : Moved (.ofString source) front start) : CutsTokens source start where
  numeral _ _ := cutsOut_numeral h
  word _ _ := cutsOut_word h
  token := cutToken_eq h

end Cursor

/-- **Lexemes.**  Wherever a cursor stands in a source, cutting out the next lexeme does not go
wrong, and gives the lexeme that is read there. -/
theorem Lexeme.cutNext_eq {source : String} {front : List Char} {cursor : Cursor}
    (h : Cursor.Moved (.ofString source) front cursor) :
    cutNext source cursor = .ok (next cursor) := by
  have htoken := (h.trans (Cursor.moved_takeWhile cursor isWhiteSpace)).cutsTokens.token
  have hcut : cutNext source cursor =
      ((cursor.takeWhile isWhiteSpace).2.cutToken source).bind fun r =>
        .ok (⟨r.1, ⟨(cursor.takeWhile isWhiteSpace).2.position, r.2.position⟩⟩, r.2) := rfl
  rw [hcut, htoken, next_eq]
  rfl

end FlatScript
