/-
# Places in a text

A position counts bytes, and lines and columns.  Both ways of counting grow from one character to
the next, so for two places of one text they agree on which one comes first, and a line and a column
belong to one place only.

* `Position.le_iff` : the order of positions, field by field;
* `Position.line_after`, `Position.column_after_origin` : which line and which column a place is in;
* `Position.ComparedAlike` : the two ways of counting agree on the order of two positions, and
  `Position.comparedAlike_of_prefixes` : they do for two places of one text;
* `Position.toString_inj` : what is shown of a position is its line and its column.
-/
import FlatScript.Proofs.Stretches
import Mathlib.Data.List.Basic
import Mathlib.Data.List.DropRight

namespace FlatScript

namespace Position

variable {p q r : Position}

/-! ## The order of positions -/

/-- Positions are ordered by byte; by line and column only where the bytes agree. -/
theorem le_iff : p ≤ q ↔ p.byte < q.byte ∨
    p.byte = q.byte ∧ (p.line < q.line ∨ p.line = q.line ∧ p.column ≤ q.column) := by
  show ((compare p.byte q.byte).then
    ((compare p.line q.line).then (compare p.column q.column))).isLE = true ↔ _
  rw [Ordering.isLE_then_iff_and, Ordering.isLE_then_iff_and, Nat.isLE_compare, Nat.isLE_compare,
    Nat.isLE_compare, Nat.compare_eq_lt, Nat.compare_eq_lt]
  omega

theorem le_refl (p : Position) : p ≤ p :=
  le_iff.2 (.inr ⟨rfl, .inr ⟨rfl, Nat.le_refl _⟩⟩)

theorem le_trans (h : p ≤ q) (h' : q ≤ r) : p ≤ r := by
  rw [le_iff] at *
  omega

/-- A position that is reached is not before. -/
theorem Reaches.le (h : p.Reaches q) : p ≤ q :=
  h.isLE_compare

theorem min_eq_of_le (h : p ≤ q) : min p q = p :=
  if_pos h

theorem max_eq_of_le (h : p ≤ q) : max p q = q :=
  if_pos h

/-! ## Lines and columns -/

/-- A character moves a position to the next line, or to the next column. -/
theorem line_advance (p : Position) (c : Char) :
    (p.advance c).line = p.line + [c].count '\n' := by
  unfold advance
  rw [List.count_singleton]
  split
  · next h => simp [h]
  · next h => simp [h]

/-- A line feed begins a new line, and every other character moves on by one column. -/
theorem column_advance (p : Position) (c : Char) :
    (p.advance c).column = if c = '\n' then 1 else p.column + 1 := by
  unfold advance
  split <;> rfl

/-- Behind some characters, as many lines have begun as there are line feeds among them. -/
theorem line_after (p : Position) (cs : List Char) :
    (p.after cs).line = p.line + cs.count '\n' := by
  induction cs generalizing p with
  | nil => rfl
  | cons c cs ih =>
    rw [after_cons, ih, line_advance, Nat.add_assoc, ← List.count_append, List.singleton_append]

/-- On a line, columns are counted like characters. -/
theorem column_after_of_notMem {cs : List Char} (h : '\n' ∉ cs) (p : Position) :
    (p.after cs).column = p.column + cs.length := by
  induction cs generalizing p with
  | nil => rfl
  | cons c cs ih =>
    have hc : c ≠ '\n' := fun hc => h (hc ▸ List.mem_cons_self)
    rw [after_cons, ih (fun hmem => h (List.mem_cons_of_mem c hmem)), column_advance, if_neg hc,
      List.length_cons, Nat.add_assoc, Nat.add_comm 1]

/-- The column is counted from the last line feed. -/
theorem column_after_origin (cs : List Char) :
    (origin.after cs).column = 1 + (cs.rtakeWhile (· ≠ '\n')).length := by
  -- Character by character from the left, since a line feed makes all that is in front of it count
  -- no more.
  induction cs using List.reverseRecOn with
  | nil => rfl
  | append_singleton cs c ih =>
    rw [after_append, after_cons, after_nil, column_advance, List.rtakeWhile_concat]
    by_cases hc : c = '\n'
    · rw [if_pos hc, if_neg (by simp [hc])]
      rfl
    · rw [if_neg hc, if_pos (by simp [hc]), ih, List.length_append]
      rfl

/-! ## Two places of one text -/

/-- Bytes, and lines and columns, agree on the order of two positions. -/
structure ComparedAlike (p q : Position) : Prop where
  bytes : compare p q = compare p.byte q.byte
  places : compare p q = (compare p.line q.line).then (compare p.column q.column)

theorem comparedAlike_self (p : Position) : ComparedAlike p p := by
  have hself : compare p p = .eq := by
    show (compare p.byte p.byte).then
      ((compare p.line p.line).then (compare p.column p.column)) = .eq
    simp only [Std.compare_self]
    rfl
  constructor
  · rw [hself, Std.compare_self]
  · rw [hself, Std.compare_self, Std.compare_self]
    rfl

/-- If one position comes first in both ways of counting, then it does in the order of positions. -/
theorem comparedAlike_of_lt (hbytes : p.byte < q.byte)
    (hplaces : p.line < q.line ∨ p.line = q.line ∧ p.column < q.column) :
    ComparedAlike p q ∧ ComparedAlike q p := by
  have hlt : compare p.byte q.byte = .lt := Nat.compare_eq_lt.2 hbytes
  have hgt : compare q.byte p.byte = .gt := Nat.compare_eq_gt.2 hbytes
  have hlt' : (compare p.line q.line).then (compare p.column q.column) = .lt := by
    rcases hplaces with hline | ⟨hline, hcolumn⟩
    · rw [Nat.compare_eq_lt.2 hline]
      rfl
    · rw [hline, Std.compare_self]
      exact Nat.compare_eq_lt.2 hcolumn
  have hgt' : (compare q.line p.line).then (compare q.column p.column) = .gt := by
    rcases hplaces with hline | ⟨hline, hcolumn⟩
    · rw [Nat.compare_eq_gt.2 hline]
      rfl
    · rw [hline, Std.compare_self]
      exact Nat.compare_eq_gt.2 hcolumn
  have hfirst : compare p q = .lt := congrArg (Ordering.then · _) hlt
  have hsecond : compare q p = .gt := congrArg (Ordering.then · _) hgt
  exact ⟨⟨hfirst.trans hlt.symm, hfirst.trans hlt'.symm⟩,
    ⟨hsecond.trans hgt.symm, hsecond.trans hgt'.symm⟩⟩

/-- Behind some more characters, there are more bytes, and a later line or a later column. -/
theorem comparedAlike_after (p : Position) (cs : List Char) :
    ComparedAlike p (p.after cs) ∧ ComparedAlike (p.after cs) p := by
  by_cases hcs : cs = []
  · subst hcs
    exact ⟨comparedAlike_self p, comparedAlike_self p⟩
  apply comparedAlike_of_lt
  · have hpos := bytes_pos hcs
    rw [byte_after]
    omega
  · rw [line_after]
    by_cases hline : '\n' ∈ cs
    · have hcount := List.count_pos_iff.2 hline
      exact .inl (by omega)
    · have hlength := List.length_pos_of_ne_nil hcs
      rw [List.count_eq_zero.2 hline, column_after_of_notMem hline]
      exact .inr ⟨rfl, by omega⟩

/-- **Two places of one text.**  Bytes, and lines and columns, agree on which one comes first. -/
theorem comparedAlike_of_prefixes {text cs ds : List Char} (hcs : cs <+: text) (hds : ds <+: text)
    (p : Position) : ComparedAlike (p.after cs) (p.after ds) := by
  rcases List.prefix_or_prefix_of_prefix hcs hds with ⟨es, rfl⟩ | ⟨es, rfl⟩
  · rw [after_append]
    exact (comparedAlike_after _ es).1
  · rw [after_append]
    exact (comparedAlike_after _ es).2

/-! ## What is shown of a position -/

/-- What is shown of two positions tells their lines and columns apart. -/
theorem toString_inj (h : toString p = toString q) : p.line = q.line ∧ p.column = q.column := by
  have hshown : ∀ r : Position, (toString r).toList =
      Nat.toDigits 10 r.line ++ ':' :: Nat.toDigits 10 r.column := by
    intro r
    show (toString r.line ++ ":" ++ toString r.column).toList = _
    simp only [String.toList_append, Nat.toString_eq_ofList_toDigits, String.toList_ofList,
      List.append_assoc]
    rfl
  have hdigits : ∀ n, ':' ∉ Nat.toDigits 10 n := by
    intro n hmem
    have hdigit := Nat.isDigit_of_mem_toDigits (by decide) (Nat.le_refl 10) hmem
    revert hdigit
    decide
  have hlists := congrArg String.toList h
  rw [hshown, hshown, List.append_cons_inj_of_notMem (hdigits _) (hdigits _)] at hlists
  obtain ⟨hline, -, hcolumn⟩ := hlists
  have hread : ∀ n, Nat.ofDigitChars 10 (Nat.toDigits 10 n) 0 = n := fun n =>
    Nat.ofDigitChars_ten_toDigits
  rw [← hread p.line, ← hread q.line, ← hread p.column, ← hread q.column, hline, hcolumn]
  exact ⟨rfl, rfl⟩

/-- Positions that are compared alike and shown alike are the same. -/
theorem ComparedAlike.eq_of_toString_eq (h : ComparedAlike p q) (hshown : toString p = toString q) :
    p = q := by
  obtain ⟨hline, hcolumn⟩ := toString_inj hshown
  have heq : compare p.byte q.byte = .eq := by
    rw [← h.bytes, h.places, hline, hcolumn, Std.compare_self, Std.compare_self]
    rfl
  obtain ⟨byte, line, column⟩ := p
  obtain ⟨byte', line', column'⟩ := q
  obtain rfl : byte = byte' := Nat.compare_eq_eq.1 heq
  obtain rfl : line = line' := hline
  obtain rfl : column = column' := hcolumn
  rfl

end Position

end FlatScript
