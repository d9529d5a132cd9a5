/-
# Walking with a cursor

Whatever is done with a cursor, it stands behind the characters that it has handed out, and its
position says where that is: the bytes in front of it, the line and the column.

* `Cursor.Op`, `Cursor.walk` : what can be done with a cursor, and the characters that it hands out
  on the way;
* `Cursor.Moved` : a cursor has moved over some characters, which `Cursor.moved_perform` says of
  each thing that is done with it, and `Cursor.moved_walk` of all of them;
* `Cursor.IsLongestRun` : the longest run of characters that satisfy a condition;
* `cursor_keeps_its_place` : where a cursor stands after any walk through a source, and how the
  places of two such walks compare.
-/
import FlatScript.Proofs.Places
import FlatScript.Proofs.Tiling

namespace FlatScript

namespace Cursor

/-! ## Walks -/

/-- What can be done with a cursor. -/
inductive Op where
  | peek
  | offset
  | take
  | takeIf (wanted : Char)
  | takeWhile (condition : Char → Bool)

/-- Does something with a cursor: the characters that it hands out, and the cursor behind them. -/
def Op.perform (op : Op) (cursor : Cursor) : List Char × Cursor :=
  match op with
  | .peek | .offset => ([], cursor)
  | .take => (cursor.take.1.toList.map Prod.snd, cursor.take.2)
  | .takeIf wanted => (if (cursor.takeIf wanted).1 then [wanted] else [], (cursor.takeIf wanted).2)
  | .takeWhile condition => cursor.takeWhile condition

/-- Does several things with a cursor, one after the other. -/
def walk : List Op → Cursor → List Char × Cursor
  | [], cursor => ([], cursor)
  | op :: ops, cursor =>
    let (taken, cursor) := op.perform cursor
    let (later, cursor) := walk ops cursor
    (taken ++ later, cursor)

/-- A cursor has moved over some characters: they stood behind it, and its position has moved over
them as well. -/
structure Moved (cursor : Cursor) (taken : List Char) (cursor' : Cursor) : Prop where
  rest : cursor.rest = taken ++ cursor'.rest
  position : cursor'.position = cursor.position.after taken

section
variable {cursor cursor' cursor'' : Cursor} {taken later : List Char}

theorem Moved.refl (cursor : Cursor) : Moved cursor [] cursor :=
  ⟨rfl, rfl⟩

theorem Moved.trans (h : Moved cursor taken cursor') (h' : Moved cursor' later cursor'') :
    Moved cursor (taken ++ later) cursor'' := by
  constructor
  · rw [h.rest, h'.rest, List.append_assoc]
  · rw [h'.position, h.position, Position.after_append]

end

/-- Taking one character moves over it, or nowhere at the end. -/
theorem moved_take (cursor : Cursor) :
    Moved cursor (cursor.take.1.toList.map Prod.snd) cursor.take.2 := by
  obtain ⟨rest, position⟩ := cursor
  cases rest with
  | nil => exact .refl _
  | cons c rest => exact ⟨rfl, rfl⟩

/-- Nothing is taken unless it is the wanted character. -/
theorem moved_takeIf (cursor : Cursor) (wanted : Char) :
    Moved cursor (if (cursor.takeIf wanted).1 then [wanted] else []) (cursor.takeIf wanted).2 := by
  obtain ⟨rest, position⟩ := cursor
  cases rest with
  | nil => exact .refl _
  | cons c rest =>
    unfold takeIf
    by_cases hc : c = wanted
    · subst hc
      simp only [if_true]
      exact ⟨rfl, rfl⟩
    · simp only [if_neg hc]
      exact .refl _

/-- Taking a run moves over the characters that are returned. -/
theorem moved_takeWhile (cursor : Cursor) (condition : Char → Bool) :
    Moved cursor (cursor.takeWhile condition).1 (cursor.takeWhile condition).2 := by
  rw [takeWhile_eq]
  exact ⟨List.takeWhile_append_dropWhile.symm, rfl⟩

/-- **Steps.**  Whatever is done with a cursor, it moves over the characters that it hands out. -/
theorem moved_perform (op : Op) (cursor : Cursor) :
    Moved cursor (op.perform cursor).1 (op.perform cursor).2 := by
  cases op with
  | peek => exact .refl cursor
  | offset => exact .refl cursor
  | take => exact moved_take cursor
  | takeIf wanted => exact moved_takeIf cursor wanted
  | takeWhile condition => exact moved_takeWhile cursor condition

/-- **Walks.**  So it does on every walk. -/
theorem moved_walk (ops : List Op) (cursor : Cursor) :
    Moved cursor (walk ops cursor).1 (walk ops cursor).2 := by
  induction ops generalizing cursor with
  | nil => exact .refl cursor
  | cons op ops ih => exact (moved_perform op cursor).trans (ih _)

/-! ## Runs -/

/-- A run is the longest one in front of a text whose characters all satisfy a condition. -/
structure IsLongestRun (condition : Char → Bool) (text run : List Char) : Prop where
  isPrefix : run <+: text
  satisfied : ∀ c ∈ run, condition c = true
  longest : ∀ other, other <+: text → (∀ c ∈ other, condition c = true) → other <+: run

/-- The run that is taken is the longest one. -/
theorem isLongestRun_takeWhile (condition : Char → Bool) (cursor : Cursor) :
    IsLongestRun condition cursor.rest (cursor.takeWhile condition).1 := by
  rw [takeWhile_eq]
  refine ⟨List.takeWhile_prefix condition, fun c => List.mem_takeWhile_imp, fun other h hall => ?_⟩
  obtain ⟨rest, hrest⟩ := h
  dsimp only
  rw [← hrest, List.takeWhile_append_of_pos hall]
  exact List.prefix_append other _

/-! ## Byte offsets -/

/-- Some characters, each with the byte offset at which it begins, counted from `n`. -/
def indexed : Nat → List Char → List (Nat × Char)
  | _, [] => []
  | n, c :: cs => (n, c) :: indexed (n + c.utf8Size) cs

/-- The character behind some others begins where their bytes end. -/
theorem getElem?_indexed (n : Nat) (cs ds : List Char) :
    (indexed n (cs ++ ds))[cs.length]? = ds.head?.map (n + bytes cs, ·) := by
  induction cs generalizing n with
  | nil => cases ds <;> rfl
  | cons c cs ih =>
    rw [List.cons_append, indexed, List.length_cons, List.getElem?_cons_succ, ih, bytes,
      Nat.add_assoc]

end Cursor

/-- Where a cursor stands in a source that it has handed out some characters of.  They are the first
ones of the source and the others are left.  The byte of the position is the size of what was handed
out, and so is the offset, which is that of the next character, or the size of the source at its
end; the line is one more than the line feeds handed out, and the column one more than the
characters behind the last of them. -/
structure StandsBehind (source : String) (taken : List Char) (cursor : Cursor) : Prop where
  source_eq : source.toList = taken ++ cursor.rest
  byte_eq : cursor.position.byte = (String.ofList taken).utf8ByteSize
  offset_eq : cursor.offset = (String.ofList taken).utf8ByteSize
  peek_eq : cursor.peek = (Cursor.indexed 0 source.toList)[taken.length]?
  offset_eq_peek : cursor.offset = (cursor.peek.map Prod.fst).getD source.utf8ByteSize
  line_eq : cursor.position.line = 1 + taken.count '\n'
  column_eq : cursor.position.column = 1 + (taken.rtakeWhile (· ≠ '\n')).length

/-- A cursor that has moved over some characters from the start of a source stands behind them. -/
theorem Cursor.Moved.standsBehind {source : String} {taken : List Char} {cursor : Cursor}
    (h : Moved (.ofString source) taken cursor) : StandsBehind source taken cursor := by
  have hsource : source.toList = taken ++ cursor.rest := h.rest
  have hposition : cursor.position = Position.origin.after taken := h.position
  have hbyte : cursor.position.byte = bytes taken := by
    rw [hposition, Position.byte_after]
    exact Nat.zero_add _
  have hsize : (String.ofList taken).utf8ByteSize = bytes taken := by
    rw [← bytes_toList, String.toList_ofList]
  have hpeek : cursor.peek = (Cursor.indexed 0 source.toList)[taken.length]? := by
    rw [hsource, Cursor.getElem?_indexed, Nat.zero_add, ← hbyte]
    rfl
  constructor
  · exact hsource
  · rw [hbyte, hsize]
  · rw [hsize]
    exact hbyte
  · exact hpeek
  · cases hrest : cursor.rest with
    | nil =>
      have hwhole : source.utf8ByteSize = bytes taken := by
        rw [← bytes_toList, hsource, hrest, List.append_nil]
      unfold Cursor.peek
      rw [hrest, hwhole]
      exact hbyte
    | cons c rest =>
      unfold Cursor.peek
      rw [hrest]
      rfl
  · rw [hposition, Position.line_after]
    rfl
  · rw [hposition, Position.column_after_origin]

/-- **Cursors keep their place.**  Whatever is done with a cursor from the start of a source on, it
stands behind the characters that it has handed out.  A run that it takes is the longest one.  All
places that can be reached in one source come in the same order by byte, by line and column, and as
positions, so no two of them are shown alike. -/
theorem cursor_keeps_its_place (source : String) (ops : List Cursor.Op) :
    let taken := (Cursor.walk ops (.ofString source)).1
    let cursor := (Cursor.walk ops (.ofString source)).2
    StandsBehind source taken cursor ∧
    (∀ condition, Cursor.IsLongestRun condition cursor.rest (cursor.takeWhile condition).1) ∧
    ∀ ops', let other := (Cursor.walk ops' (.ofString source)).2
      Position.ComparedAlike cursor.position other.position ∧
      (toString cursor.position = toString other.position → cursor.position = other.position) := by
  intro taken cursor
  have hmoved := Cursor.moved_walk ops (.ofString source)
  refine ⟨hmoved.standsBehind, fun condition => Cursor.isLongestRun_takeWhile condition _, ?_⟩
  intro ops' other
  have hmoved' := Cursor.moved_walk ops' (.ofString source)
  have hplaces : Position.ComparedAlike cursor.position other.position := by
    rw [hmoved.position, hmoved'.position]
    exact Position.comparedAlike_of_prefixes ⟨_, hmoved.rest.symm⟩ ⟨_, hmoved'.rest.symm⟩ _
  exact ⟨hplaces, hplaces.eq_of_toString_eq⟩

/-- A character of two bytes, and a line that ends with two characters, the second of which begins
the next one. -/
example : (Cursor.walk [.takeIf 'e', .take, .offset, .takeWhile (· ≠ '\n'), .peek, .takeIf '\n']
    (.ofString "é\r\nb")) = (['é', '\r', '\n'], ⟨['b'], ⟨4, 2, 1⟩⟩) := by
  decide +kernel

end FlatScript
