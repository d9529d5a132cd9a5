/-
# S-expressions can be read again

The S-expression of a program says which program it is.  It is a text of words and quotations in
brackets, which can be read in one way, and from what it is read as the program can be told: every
form of a statement has a word of its own in front, a name is never a reserved word, and a finite
number is told by its text.

* `Stmt.node` : what the S-expression of a statement is read as;
* `sexpr_injective` : programs that were read, with the same S-expression, are the same up to spans.
-/
import FlatScript.Proofs.Bracketing
import FlatScript.Proofs.NumberReading
import FlatScript.Proofs.RunRelocation
import FlatScript.Proofs.Words

namespace FlatScript

open Grammar

/-! ## Trees as nodes -/

/-- What the S-expression of a constant is read as. -/
def Literal.node : Literal → Node
  | .text s => .quotation s.toList
  | value => .word value.sexpr.toList

/-- What the S-expression of an expression is read as. -/
def Expr.node : Expr → Node
  | .literal value _ => value.node
  | .var name _ => .word name.text.toList
  | .binary op left right _ => .group .round [.word op.symbol.toList, left.node, right.node]

mutual

/-- What the S-expression of a statement is read as. -/
def Stmt.node : Stmt → Node
  | .expr value _ => value.node
  | .assign name value _ =>
    .group .round [.word "set".toList, .word name.text.toList, value.node]
  | .print items terminator _ =>
    .group .round
      (.word "print".toList :: (items.map Expr.node ++ [.word ":end".toList, terminator.node]))
  | .branch condition body none _ =>
    .group .round [.word "if".toList, condition.node, .group .curly (nodesOf body)]
  | .branch condition body (some alternative) _ =>
    .group .round [.word "if".toList, condition.node, .group .curly (nodesOf body),
      .group .curly (nodesOf alternative)]
  | .whileLoop condition body _ =>
    .group .round [.word "while".toList, condition.node, .group .curly (nodesOf body)]
  | .forLoop start condition step body _ =>
    .group .round [.word "for".toList, start.node, condition.node, step.node,
      .group .curly (nodesOf body)]
  | .update op name _ => .group .round [.word op.symbol.toList, .word name.text.toList]

/-- What the S-expressions of statements are read as, one by one. -/
def nodesOf : List Stmt → List Node
  | [] => []
  | statement :: statements => statement.node :: nodesOf statements

end

/-! ## Legible trees -/

/-- A number in the tree is finite. -/
def Literal.Legible : Literal → Prop
  | .number x => x.isFinite = true
  | _ => True

/-- The names in the tree are names, and its numbers are finite. -/
def Expr.Legible : Expr → Prop
  | .literal value _ => value.Legible
  | .var name _ => IsName name.text
  | .binary _ left right _ => left.Legible ∧ right.Legible

mutual

/-- The names in the tree are names, its numbers are finite, and something is printed in front of
every terminator. -/
def Stmt.Legible : Stmt → Prop
  | .expr value _ => value.Legible
  | .assign name value _ => IsName name.text ∧ value.Legible
  | .print items terminator _ =>
    items ≠ [] ∧ (∀ item ∈ items, item.Legible) ∧ terminator.Legible
  | .branch condition body none _ => condition.Legible ∧ AllLegible body
  | .branch condition body (some alternative) _ =>
    condition.Legible ∧ AllLegible body ∧ AllLegible alternative
  | .whileLoop condition body _ => condition.Legible ∧ AllLegible body
  | .forLoop start condition step body _ =>
    start.Legible ∧ condition.Legible ∧ step.Legible ∧ AllLegible body
  | .update _ name _ => IsName name.text

/-- The same of several statements. -/
def AllLegible : List Stmt → Prop
  | [] => True
  | statement :: statements => statement.Legible ∧ AllLegible statements

end

/-! ## The characters of words -/

/-- The characters that are not plain are two separators, the brackets and the mark of texts. -/
theorem of_not_plain {c : Char} (h : isPlain c = false) :
    c = ' ' ∨ c = '\n' ∨ c = '(' ∨ c = ')' ∨ c = '{' ∨ c = '}' ∨ c = '"' := by
  have hmem : c ∈ [' ', '\n', '(', ')', '{', '}', '"'] := by
    by_contra hmem
    rw [isPlain, decide_eq_false_iff_not] at h
    exact h hmem
  simpa using hmem

/-- No separator, bracket or mark is in a word. -/
theorem isPlain_of_continuesWord {c : Char} (h : continuesWord c = true) : isPlain c = true := by
  rw [← Bool.not_eq_false]
  intro hplain
  rcases of_not_plain hplain with rfl | rfl | rfl | rfl | rfl | rfl | rfl <;> revert h <;>
    decide +kernel

/-- What may begin a word may also go on with it. -/
theorem continuesWord_of_startsWord {c : Char} (h : startsWord c = true) :
    continuesWord c = true := by
  rw [startsWord, Bool.or_eq_true] at h
  rw [continuesWord, isAlphanumeric, Bool.or_eq_true, Bool.or_eq_true]
  exact h.imp_left .inl

/-- The characters of a number are plain. -/
theorem NumberSign.isPlain {c : Char} (h : NumberSign c) : isPlain c = true := by
  rw [← Bool.not_eq_false]
  intro hplain
  rcases of_not_plain hplain with rfl | rfl | rfl | rfl | rfl | rfl | rfl <;>
    revert h <;> unfold NumberSign <;> decide

/-- No word begins with a character of a number. -/
theorem NumberSign.not_startsWord {c : Char} (h : NumberSign c) : startsWord c = false := by
  rcases h with h | rfl | rfl
  · exact not_startsWord_of_isDigit h
  · decide +kernel
  · decide +kernel

/-- A word of plain characters, as a check that can be evaluated. -/
theorem plain_word {cs : List Char} (h : (!cs.isEmpty && cs.all isPlain) = true) :
    (Node.word cs).Plain := by
  rw [Bool.and_eq_true, Bool.not_eq_true', List.isEmpty_eq_false_iff] at h
  exact ⟨h.1, List.all_eq_true.1 h.2⟩

/-- A name is a single word of an expression in prefix form. -/
theorem IsName.plain {x : String} (h : IsName x) : (Node.word x.toList).Plain := by
  obtain ⟨c, cs, hx, hc, hcs⟩ := h.letters
  refine ⟨by rw [hx]; exact List.cons_ne_nil c cs, fun d hd => ?_⟩
  rw [hx] at hd
  rcases List.mem_cons.1 hd with rfl | hd
  · exact isPlain_of_continuesWord (continuesWord_of_startsWord hc)
  · exact isPlain_of_continuesWord (hcs d hd)

/-- The text of a finite number is a single word. -/
theorem plain_numberText {x : Float} (hx : x.isFinite) :
    (Node.word (numberText x).toList).Plain :=
  ⟨numberText_ne_nil hx, fun _ hc => (numberSign_of_mem hx hc).isPlain⟩

/-- A reserved word is no name. -/
theorem IsName.ne_text {x : String} (h : IsName x) (word : Keyword) : x ≠ word.text := by
  rintro rfl
  have hfree := h.free
  cases word <;> revert hfree <;> decide +kernel

/-- A word that a name could begin with is not the text of a number. -/
theorem numberText_ne {x : Float} (hx : x.isFinite) {w : String}
    (hw : w.toList.head?.all startsWord = true) : numberText x ≠ w := by
  rintro rfl
  obtain ⟨c, cs, hcs⟩ := List.exists_cons_of_ne_nil (numberText_ne_nil hx)
  have hc := (numberSign_of_mem hx (c := c) (hcs ▸ List.mem_cons_self)).not_startsWord
  rw [hcs, List.head?_cons, Option.all_some, hc] at hw
  cases hw

/-- A name begins like a word, which tells it from a number. -/
theorem IsName.startsWord {x : String} (h : IsName x) :
    x.toList.head?.all FlatScript.startsWord = true := by
  obtain ⟨c, cs, hx, hc, -⟩ := h.letters
  rwa [hx]

/-! ## What is read is what was rendered -/

/-- The text of a literal is that of its node. -/
theorem Literal.chars_node (value : Literal) : value.node.chars = value.sexpr.toList := by
  cases value with
  | text s =>
    rw [node, Node.chars, sexpr, quoted, String.toList_ofList]
  | _ => rw [node, Node.chars]; exact nofun

/-- The node of a literal is a word without brackets, or a text in marks. -/
theorem Literal.plain_node {value : Literal} (h : value.Legible) : value.node.Plain := by
  match value, h with
  | .number x, h => exact plain_numberText h
  | .truth true, _ => exact plain_word (by decide)
  | .truth false, _ => exact plain_word (by decide)
  | .text s, _ => trivial
  | .none, _ => exact plain_word (by decide)

/-- The text of an expression is that of its node: the operator in front, and then both operands. -/
theorem Expr.chars_node (e : Expr) : e.node.chars = e.sexpr.toList := by
  induction e with
  | literal value span => exact value.chars_node
  | var name span => rw [node, Node.chars, sexpr]
  | binary op l r span ihl ihr =>
    rw [node, Node.chars, charsOf, charsOf, charsOf, charsOf, Node.chars, ihl, ihr, sexpr]
    simp [Bracket.opening, Bracket.closing]

/-- The symbol of an operator is a word without brackets. -/
theorem BinaryOp.plain (op : BinaryOp) : (Node.word op.symbol.toList).Plain := by
  cases op <;> exact plain_word (by decide)

theorem UpdateOp.plain (op : UpdateOp) : (Node.word op.symbol.toList).Plain := by
  cases op <;> exact plain_word (by decide)

/-- All words in the node of an expression are plain, if its names and numbers are legible. -/
theorem Expr.plain_node {e : Expr} (h : e.Legible) : e.node.Plain := by
  induction e with
  | literal value span => exact Literal.plain_node h
  | var name span => exact IsName.plain h
  | binary op l r span ihl ihr => exact ⟨op.plain, ihl h.1, ihr h.2, trivial⟩

/-- The texts of some nodes are taken one by one. -/
theorem charsOf_eq_map (nodes : List Node) : charsOf nodes = nodes.map Node.chars := by
  induction nodes with
  | nil => rfl
  | cons node nodes ih => rw [charsOf, ih, List.map_cons]

/-- Some nodes are plain if each of them is. -/
theorem allPlain_iff {nodes : List Node} : AllPlain nodes ↔ ∀ node ∈ nodes, node.Plain := by
  induction nodes with
  | nil => exact ⟨fun _ => nofun, fun _ => trivial⟩
  | cons node nodes ih => rw [AllPlain, ih, List.forall_mem_cons]

/-- The items of a printed line, and the terminator behind them. -/
theorem joined_items {items : List Expr} (h : items ≠ []) (terminator : Expr) :
    [' '].intercalate (charsOf (.word "print".toList ::
      (items.map Expr.node ++ [.word ":end".toList, terminator.node]))) =
    ("print " ++ " ".intercalate (items.map Expr.sexpr) ++ " :end "
      ++ terminator.sexpr).toList := by
  have hchars : charsOf (.word "print".toList ::
      (items.map Expr.node ++ [.word ":end".toList, terminator.node])) =
      ("print" :: (items.map Expr.sexpr ++ [":end", terminator.sexpr])).map String.toList := by
    simp [charsOf_eq_map, Node.chars, Expr.chars_node, Function.comp_def]
  have hitems : items.map Expr.sexpr ≠ [] := fun h' => h (List.map_eq_nil_iff.1 h')
  rw [hchars, show [' '] = " ".toList from rfl, ← String.toList_intercalate,
    String.intercalate_cons_of_ne_nil (List.append_ne_nil_of_left_ne_nil hitems _),
    String.intercalate_append_of_ne_nil hitems (List.cons_ne_nil _ _),
    String.intercalate_cons_cons, String.intercalate_singleton]
  simp

mutual

/-- The text of a statement is that of its node, at any depth.  Only names and numbers have to be
legible for it. -/
theorem Stmt.chars_node : ∀ {s : Stmt}, s.Legible → s.node.chars = s.sexpr.toList
  | .expr value _, _ => value.chars_node
  | .assign name value _, _ => by
    simp [Stmt.node, Node.chars, charsOf, Stmt.sexpr, value.chars_node, Bracket.opening,
      Bracket.closing]
  | .print items terminator _, h => by
    rw [Stmt.node, Node.chars, joined_items h.1, Stmt.sexpr]
    simp [Bracket.opening, Bracket.closing]
  | .branch condition body none _, h => by
    simp [Stmt.node, Node.chars, charsOf, Stmt.sexpr, condition.chars_node, Bracket.opening,
      Bracket.closing, braced, charsOf_nodesOf h.2, String.toList_intercalate]
  | .branch condition body (some alternative) _, h => by
    simp [Stmt.node, Node.chars, charsOf, Stmt.sexpr, condition.chars_node, Bracket.opening,
      Bracket.closing, braced, charsOf_nodesOf h.2.1, charsOf_nodesOf h.2.2,
      String.toList_intercalate]
  | .whileLoop condition body _, h => by
    simp [Stmt.node, Node.chars, charsOf, Stmt.sexpr, condition.chars_node, Bracket.opening,
      Bracket.closing, braced, charsOf_nodesOf h.2, String.toList_intercalate]
  | .forLoop start condition step body _, h => by
    simp [Stmt.node, Node.chars, charsOf, Stmt.sexpr, condition.chars_node, Bracket.opening,
      Bracket.closing, braced, start.chars_node h.1, step.chars_node h.2.2.1,
      charsOf_nodesOf h.2.2.2, String.toList_intercalate]
  | .update op name _, _ => by
    simp [Stmt.node, Node.chars, charsOf, Stmt.sexpr, Bracket.opening, Bracket.closing]

/-- The texts of the statements of a block are those of their nodes. -/
theorem charsOf_nodesOf : ∀ {statements : List Stmt}, AllLegible statements →
    charsOf (nodesOf statements) = (sexprs statements).map String.toList
  | [], _ => rfl
  | statement :: statements, h => by
    rw [nodesOf, charsOf, sexprs, List.map_cons, Stmt.chars_node h.1, charsOf_nodesOf h.2]

end

mutual

/-- All words in the node of a statement are plain: its keyword, its operators, and whatever stands
in its expressions. -/
theorem Stmt.plain_node : ∀ {s : Stmt}, s.Legible → s.node.Plain
  | .expr value _, h => Expr.plain_node h
  | .assign name value _, h => ⟨plain_word (by decide), h.1.plain, Expr.plain_node h.2, trivial⟩
  | .print items terminator _, h => by
    refine ⟨plain_word (by decide), allPlain_iff.2 fun node hnode => ?_⟩
    simp only [List.mem_append, List.mem_map, List.mem_cons, List.not_mem_nil, or_false] at hnode
    rcases hnode with ⟨item, hitem, rfl⟩ | rfl | rfl
    · exact Expr.plain_node (h.2.1 item hitem)
    · exact plain_word (by decide)
    · exact Expr.plain_node h.2.2
  | .branch condition body none _, h =>
    ⟨plain_word (by decide), Expr.plain_node h.1, plain_nodesOf h.2, trivial⟩
  | .branch condition body (some alternative) _, h =>
    ⟨plain_word (by decide), Expr.plain_node h.1, plain_nodesOf h.2.1, plain_nodesOf h.2.2, trivial⟩
  | .whileLoop condition body _, h =>
    ⟨plain_word (by decide), Expr.plain_node h.1, plain_nodesOf h.2, trivial⟩
  | .forLoop start condition step body _, h =>
    ⟨plain_word (by decide), Stmt.plain_node h.1, Expr.plain_node h.2.1, Stmt.plain_node h.2.2.1,
      plain_nodesOf h.2.2.2, trivial⟩
  | .update op name _, h => ⟨op.plain, IsName.plain h, trivial⟩

/-- All words in the nodes of a block are plain. -/
theorem plain_nodesOf : ∀ {statements : List Stmt}, AllLegible statements →
    AllPlain (nodesOf statements)
  | [], _ => trivial
  | _ :: _, h => ⟨Stmt.plain_node h.1, plain_nodesOf h.2⟩

end

/-! ## Trees told by their nodes -/

/-- No two operators are written alike. -/
theorem BinaryOp.symbol_injective {op op' : BinaryOp} (h : op.symbol = op'.symbol) : op = op' := by
  have hall : ∀ op ∈ all, ∀ op' ∈ all, op.symbol = op'.symbol → op = op' := by decide
  have hmem : ∀ op : BinaryOp, op ∈ all := by
    intro op
    cases op <;> decide
  exact hall op (hmem op) op' (hmem op') h

theorem UpdateOp.symbol_injective {op op' : UpdateOp} (h : op.symbol = op'.symbol) : op = op' := by
  cases op <;> cases op' <;> first | rfl | exact absurd h (by decide)

theorem word_inj {x y : String} (h : Node.word x.toList = .word y.toList) : x = y :=
  String.toList_inj.1 (Node.word.inj h)

/-- A legible literal is told by its node.  A number is told by its text, which no word for a
constant has, and a text by the marks around it. -/
theorem Literal.node_injective {value value' : Literal} (h : value.Legible) (h' : value'.Legible)
    (heq : value.node = value'.node) : value = value' := by
  have htrue : ∀ b, (truth b).sexpr.toList.head?.all startsWord = true := by decide +kernel
  have hnone : none.sexpr.toList.head?.all startsWord = true := by decide +kernel
  match value, value', h, h', heq with
  | .number x, .number y, hx, hy, heq => rw [numberText_injective hx hy (word_inj heq)]
  | .text s, .text t, _, _, heq => rw [String.toList_inj.1 (Node.quotation.inj heq)]
  | .truth b, .truth c, _, _, heq =>
    have hsexpr : (truth b).sexpr = (truth c).sexpr := word_inj heq
    cases b <;> cases c <;> first | rfl | exact absurd hsexpr (by decide)
  | .none, .none, _, _, _ => rfl
  | .number x, .truth b, hx, _, heq => exact absurd (word_inj heq) (numberText_ne hx (htrue b))
  | .number x, .none, hx, _, heq => exact absurd (word_inj heq) (numberText_ne hx hnone)
  | .truth b, .number y, _, hy, heq =>
    exact absurd (word_inj heq).symm (numberText_ne hy (htrue b))
  | .none, .number y, _, hy, heq => exact absurd (word_inj heq).symm (numberText_ne hy hnone)
  | .truth b, .none, _, _, heq =>
    have hsexpr : (truth b).sexpr = none.sexpr := word_inj heq
    cases b <;> exact absurd hsexpr (by decide)
  | .none, .truth b, _, _, heq =>
    have hsexpr : none.sexpr = (truth b).sexpr := word_inj heq
    cases b <;> exact absurd hsexpr (by decide)

/-- A constant is not taken for a variable. -/
theorem Literal.node_ne_name {value : Literal} (h : value.Legible) {x : String} (hx : IsName x) :
    value.node ≠ .word x.toList := by
  intro heq
  match value, h, heq with
  | .number y, hy, heq => exact numberText_ne hy hx.startsWord (word_inj heq)
  | .truth true, _, heq => exact hx.ne_text .truth (word_inj heq).symm
  | .truth false, _, heq => exact hx.ne_text .falsehood (word_inj heq).symm
  | .none, _, heq => exact hx.ne_text .absence (word_inj heq).symm

/-- A literal is a single node, not a group. -/
theorem Literal.node_ne_group (value : Literal) (bracket : Bracket) (nodes : List Node) :
    value.node ≠ .group bracket nodes := by
  cases value <;> exact nofun

/-- An expression is told by its node. -/
theorem Expr.node_injective {e e' : Expr} (h : e.Legible) (h' : e'.Legible)
    (heq : e.node = e'.node) : e.bare = e'.bare := by
  induction e generalizing e' with
  | literal value span =>
    cases e' with
    | literal value' span' =>
      rw [bare_literal, bare_literal, Literal.node_injective h h' heq]
    | var name' span' => exact absurd heq (Literal.node_ne_name h h')
    | binary op' l' r' span' => exact absurd heq (value.node_ne_group _ _)
  | var name span =>
    cases e' with
    | literal value' span' => exact absurd heq.symm (Literal.node_ne_name h' h)
    | var name' span' =>
      rw [bare_var, bare_var, word_inj heq]
    | binary op' l' r' span' => cases heq
  | binary op l r span ihl ihr =>
    cases e' with
    | literal value' span' => exact absurd heq.symm (value'.node_ne_group _ _)
    | var name' span' => cases heq
    | binary op' l' r' span' =>
      simp only [node, Node.group.injEq, List.cons.injEq, true_and, and_true] at heq
      obtain ⟨hop, hl, hr⟩ := heq
      rw [bare_binary, bare_binary, BinaryOp.symbol_injective (word_inj hop), ihl h.1 h'.1 hl,
        ihr h.2 h'.2 hr]

/-- Items are told by their nodes, one by one. -/
theorem Expr.map_node_injective {es es' : List Expr} (h : ∀ e ∈ es, e.Legible)
    (h' : ∀ e ∈ es', e.Legible) (heq : es.map Expr.node = es'.map Expr.node) :
    es.map Expr.bare = es'.map Expr.bare := by
  induction es generalizing es' with
  | nil =>
    rw [List.map_nil, eq_comm, List.map_eq_nil_iff] at heq
    rw [heq]
  | cons e es ih =>
    cases es' with
    | nil => cases heq
    | cons e' es' =>
      rw [List.forall_mem_cons] at h h'
      obtain ⟨hhead, htail⟩ := List.cons.inj heq
      rw [List.map_cons, List.map_cons, Expr.node_injective h.1 h'.1 hhead, ih h.2 h'.2 htail]

/-- The forms of statements. -/
inductive Stmt.Kind where
  | expr
  | assign
  | print
  | branch
  | whileLoop
  | forLoop
  | update

def Stmt.kind : Stmt → Kind
  | .expr .. => .expr
  | .assign .. => .assign
  | .print .. => .print
  | .branch .. => .branch
  | .whileLoop .. => .whileLoop
  | .forLoop .. => .forLoop
  | .update .. => .update

/-- The form of a statement shows in the word in front. -/
def Node.kind : Node → Stmt.Kind
  | .group _ (.word cs :: _) =>
    if cs = "set".toList then .assign
    else if cs = "print".toList then .print
    else if cs = "if".toList then .branch
    else if cs = "while".toList then .whileLoop
    else if cs = "for".toList then .forLoop
    else if cs = "++".toList ∨ cs = "--".toList then .update
    else .expr
  | _ => .expr

/-- Which form a statement has shows in its node. -/
theorem Stmt.kind_node (s : Stmt) : s.node.kind = s.kind := by
  cases s with
  | expr value =>
    cases value with
    | literal value => cases value <;> rfl
    | var name => rfl
    | binary op => cases op <;> rfl
  | branch condition body alternative => cases alternative <;> rfl
  | update op => cases op <;> rfl
  | _ => rfl

/-- Statements of the same node have the same form. -/
theorem Stmt.kind_eq {s t : Stmt} (h : s.node = t.node) : t.kind = s.kind := by
  rw [← t.kind_node, ← s.kind_node, h]

mutual

/-- **A statement is told by its node.** -/
theorem Stmt.node_injective : ∀ {s t : Stmt}, s.Legible → t.Legible → s.node = t.node →
    s.bare = t.bare
  | .expr value _, t, h, h', heq => by
    have hkind := Stmt.kind_eq heq
    cases t with
    | expr value' => rw [Stmt.bare_expr, Stmt.bare_expr, Expr.node_injective h h' heq]
    | _ => cases hkind
  | .assign name value _, t, h, h', heq => by
    have hkind := Stmt.kind_eq heq
    cases t with
    | assign name' value' =>
      simp only [Stmt.node, Node.group.injEq, List.cons.injEq, true_and, and_true] at heq
      rw [Stmt.bare_assign, Stmt.bare_assign, word_inj heq.1, Expr.node_injective h.2 h'.2 heq.2]
    | _ => cases hkind
  | .print items terminator _, t, h, h', heq => by
    have hkind := Stmt.kind_eq heq
    cases t with
    | print items' terminator' =>
      simp only [Stmt.node, Node.group.injEq, List.cons.injEq, true_and] at heq
      obtain ⟨hitems, hterminator⟩ := List.append_inj' heq rfl
      simp only [List.cons.injEq, true_and, and_true] at hterminator
      rw [Stmt.bare_print, Stmt.bare_print, Expr.map_node_injective h.2.1 h'.2.1 hitems,
        Expr.node_injective h.2.2 h'.2.2 hterminator]
    | _ => cases hkind
  | .branch condition body none _, t, h, h', heq => by
    have hkind := Stmt.kind_eq heq
    cases t with
    | branch condition' body' alternative' =>
      cases alternative' with
      | none =>
        simp only [Stmt.node, Node.group.injEq, List.cons.injEq, true_and, and_true] at heq
        rw [Stmt.bare_branch, Stmt.bare_branch, Expr.node_injective h.1 h'.1 heq.1,
          nodesOf_injective h.2 h'.2 heq.2]
      | some alternative' => simp [Stmt.node] at heq
    | _ => cases hkind
  | .branch condition body (some alternative) _, t, h, h', heq => by
    have hkind := Stmt.kind_eq heq
    cases t with
    | branch condition' body' alternative' =>
      cases alternative' with
      | none => simp [Stmt.node] at heq
      | some alternative' =>
        simp only [Stmt.node, Node.group.injEq, List.cons.injEq, true_and, and_true] at heq
        rw [Stmt.bare_branch, Stmt.bare_branch, Expr.node_injective h.1 h'.1 heq.1,
          nodesOf_injective h.2.1 h'.2.1 heq.2.1, Option.map_some, Option.map_some,
          nodesOf_injective h.2.2 h'.2.2 heq.2.2]
    | _ => cases hkind
  | .whileLoop condition body _, t, h, h', heq => by
    have hkind := Stmt.kind_eq heq
    cases t with
    | whileLoop condition' body' =>
      simp only [Stmt.node, Node.group.injEq, List.cons.injEq, true_and, and_true] at heq
      rw [Stmt.bare_whileLoop, Stmt.bare_whileLoop, Expr.node_injective h.1 h'.1 heq.1,
        nodesOf_injective h.2 h'.2 heq.2]
    | _ => cases hkind
  | .forLoop start condition step body _, t, h, h', heq => by
    have hkind := Stmt.kind_eq heq
    cases t with
    | forLoop start' condition' step' body' =>
      simp only [Stmt.node, Node.group.injEq, List.cons.injEq, true_and, and_true] at heq
      obtain ⟨hstart, hcondition, hstep, hbody⟩ := heq
      rw [Stmt.bare_forLoop, Stmt.bare_forLoop, Stmt.node_injective h.1 h'.1 hstart,
        Expr.node_injective h.2.1 h'.2.1 hcondition, Stmt.node_injective h.2.2.1 h'.2.2.1 hstep,
        nodesOf_injective h.2.2.2 h'.2.2.2 hbody]
    | _ => cases hkind
  | .update op name _, t, h, h', heq => by
    have hkind := Stmt.kind_eq heq
    cases t with
    | update op' name' =>
      simp only [Stmt.node, Node.group.injEq, List.cons.injEq, true_and, and_true] at heq
      rw [Stmt.bare_update, Stmt.bare_update, UpdateOp.symbol_injective (word_inj heq.1),
        word_inj heq.2]
    | _ => cases hkind

/-- Blocks are told by their nodes: they have as many statements, and these are told by theirs. -/
theorem nodesOf_injective : ∀ {b b' : List Stmt}, AllLegible b → AllLegible b' →
    nodesOf b = nodesOf b' → b.map Stmt.bare = b'.map Stmt.bare
  | [], [], _, _, _ => rfl
  | [], _ :: _, _, _, heq => by cases heq
  | _ :: _, [], _, _, heq => by cases heq
  | s :: b, t :: b', h, h', heq => by
    obtain ⟨hhead, htail⟩ := List.cons.inj heq
    rw [List.map_cons, List.map_cons, Stmt.node_injective h.1 h'.1 hhead,
      nodesOf_injective h.2 h'.2 htail]

end

/-! ## Constants -/

/-- The constants of an expression, from left to right. -/
def Expr.literals : Expr → List Literal
  | .literal value _ => [value]
  | .var .. => []
  | .binary _ left right _ => left.literals ++ right.literals

mutual

/-- The constants of a statement, from left to right. -/
def Stmt.literals : Stmt → List Literal
  | .expr value _ => value.literals
  | .assign _ value _ => value.literals
  | .print items terminator _ => items.flatMap Expr.literals ++ terminator.literals
  | .branch condition body none _ => condition.literals ++ literalsOf body
  | .branch condition body (some alternative) _ =>
    condition.literals ++ literalsOf body ++ literalsOf alternative
  | .whileLoop condition body _ => condition.literals ++ literalsOf body
  | .forLoop start condition step body _ =>
    start.literals ++ condition.literals ++ step.literals ++ literalsOf body
  | .update .. => []

/-- The constants of some statements. -/
def literalsOf : List Stmt → List Literal
  | [] => []
  | statement :: statements => statement.literals ++ literalsOf statements

end

theorem Expr.literals_relocate (f : Position → Position) (e : Expr) :
    (e.relocate f).literals = e.literals := by
  induction e with
  | literal value span => rfl
  | var name span => rfl
  | binary op l r span ihl ihr => rw [relocate, literals, literals, ihl, ihr]

mutual

/-- The literals of a statement do not depend on where it stands, at any depth. -/
theorem Stmt.literals_relocate (f : Position → Position) :
    ∀ s : Stmt, (s.relocate f).literals = s.literals
  | .expr value _ => value.literals_relocate f
  | .assign _ value _ => value.literals_relocate f
  | .print items terminator _ => by
    simp only [Stmt.relocate, Stmt.literals, List.flatMap_map, Expr.literals_relocate]
  | .branch condition body none _ => by
    simp only [Stmt.relocate, Stmt.literals, Expr.literals_relocate, literalsOf_relocate f body]
  | .branch condition body (some alternative) _ => by
    simp only [Stmt.relocate, Stmt.literals, Expr.literals_relocate, literalsOf_relocate f body,
      literalsOf_relocate f alternative]
  | .whileLoop condition body _ => by
    simp only [Stmt.relocate, Stmt.literals, Expr.literals_relocate, literalsOf_relocate f body]
  | .forLoop start condition step body _ => by
    simp only [Stmt.relocate, Stmt.literals, Expr.literals_relocate, start.literals_relocate f,
      step.literals_relocate f, literalsOf_relocate f body]
  | .update .. => rfl

theorem literalsOf_relocate (f : Position → Position) :
    ∀ statements : List Stmt, literalsOf (Stmt.relocateAll f statements) = literalsOf statements
  | [] => rfl
  | statement :: statements => by
    rw [Stmt.relocateAll, literalsOf, literalsOf, statement.literals_relocate f,
      literalsOf_relocate f statements]

end

/-! ## What is read is legible -/

/-- All names among some tokens are names. -/
def Spelled (ts : List Token) : Prop :=
  ∀ x, .name x ∈ ts → IsName x

/-- All numbers among some constants are finite. -/
def AllFinite (values : List Literal) : Prop :=
  ∀ x, .number x ∈ values → x.isFinite = true

theorem spelled_append {ts us : List Token} :
    Spelled (ts ++ us) ↔ Spelled ts ∧ Spelled us := by
  simp only [Spelled, List.mem_append, or_imp, forall_and]

/-- Only a token that is a name has to be spelled as one. -/
theorem spelled_cons {t : Token} {ts : List Token} :
    Spelled (t :: ts) ↔ (∀ x, .name x = t → IsName x) ∧ Spelled ts := by
  simp only [Spelled, List.mem_cons, or_imp, forall_and]

theorem spelled_nil : Spelled [] := nofun

/-- A symbol in front of some tokens is no name. -/
theorem spelled_symbol {mark : Symbol} {ts : List Token} :
    Spelled (.symbol mark :: ts) ↔ Spelled ts :=
  spelled_cons.trans (and_iff_right nofun)

theorem spelled_keyword {word : Keyword} {ts : List Token} :
    Spelled (.keyword word :: ts) ↔ Spelled ts :=
  spelled_cons.trans (and_iff_right nofun)

theorem spelled_name {x : String} {ts : List Token} :
    Spelled (.name x :: ts) ↔ IsName x ∧ Spelled ts := by
  simp only [spelled_cons, Token.name.injEq, forall_eq]

theorem allFinite_append {values values' : List Literal} :
    AllFinite (values ++ values') ↔ AllFinite values ∧ AllFinite values' := by
  simp only [AllFinite, List.mem_append, or_imp, forall_and]

/-- The names of an expression stand among its tokens, so they are spelled as names. -/
theorem Grammar.Expression.legible {s : Stratum} {ts : List Token} {e : Expr}
    (h : Expression s ts e) (hnames : Spelled ts) (hfinite : AllFinite e.literals) : e.Legible := by
  induction h with
  | leaf h =>
    rcases h with x | _ | _ | _ | _ | x
    · exact hfinite x List.mem_cons_self
    · trivial
    · trivial
    · trivial
    · trivial
    · exact hnames x List.mem_cons_self
  | group _ ih =>
    simp only [List.cons_append, spelled_append, spelled_symbol, spelled_nil, and_true] at hnames
    exact ih hnames hfinite
  | single _ _ ih => exact ih hnames hfinite
  | chain _ _ _ _ ihl ihr =>
    simp only [spelled_append, spelled_cons, Expr.literals, allFinite_append] at hnames hfinite
    exact ⟨ihl hnames.1 hfinite.1, ihr hnames.2.2 hfinite.2⟩

/-- The items of a printed line are legible.  A terminator has no name and no number. -/
theorem Grammar.Items.legible {ts : List Token} {es : List Expr} {ending : Option Expr}
    (h : Items ts (es, ending)) (hnames : Spelled ts)
    (hfinite : AllFinite (es.flatMap Expr.literals)) :
    (∀ e ∈ es, e.Legible) ∧ ∀ e, ending = some e → e.Legible := by
  generalize hitems : (es, ending) = items at h
  induction h generalizing es with
  | stop =>
    cases hitems
    exact ⟨nofun, nofun⟩
  | terminator s =>
    cases hitems
    refine ⟨nofun, ?_⟩
    rintro _ ⟨⟩
    trivial
  | item he _ ih =>
    cases hitems
    simp only [List.cons_append, spelled_append, spelled_symbol, List.flatMap_cons,
      allFinite_append] at hnames hfinite
    obtain ⟨hes, hending⟩ := ih hnames.2 hfinite.2 rfl
    exact ⟨List.forall_mem_cons.2 ⟨he.legible hnames.1 hfinite.1, hes⟩, hending⟩

/-- A change has one name more, the one in front of it. -/
theorem Grammar.Change.legible {x : String} {ts : List Token} {s : Stmt} (h : Change x ts s)
    (hx : IsName x) (hnames : Spelled ts) (hfinite : AllFinite s.literals) : s.Legible := by
  cases h with
  | assign he =>
    rw [spelled_symbol] at hnames
    exact ⟨hx, he.legible hnames hfinite⟩
  | increment => exact hx
  | decrement => exact hx

mutual

/-- **Statements are legible** at any depth, if their names are spelled as names and their numbers
are finite. -/
theorem Grammar.Statement.legible : ∀ {ts : List Token} {s : Stmt}, Statement ts s →
    Spelled ts → AllFinite s.literals → s.Legible
  | _, _, .print he hs, hnames, hfinite => by
    simp only [List.cons_append, List.nil_append, List.append_assoc, spelled_append,
      spelled_keyword, spelled_symbol, spelled_nil, and_true, Stmt.literals, List.flatMap_cons,
      allFinite_append] at hnames hfinite
    obtain ⟨hes, hending⟩ := hs.legible hnames.2 hfinite.2.1
    refine ⟨List.cons_ne_nil _ _, List.forall_mem_cons.2 ⟨he.legible hnames.1 hfinite.1, hes⟩, ?_⟩
    rename_i ending
    cases ending with
    | none => trivial
    | some e => exact hending e rfl
  | _, _, .change h, hnames, hfinite => by
    rw [List.cons_append, spelled_name, spelled_append] at hnames
    exact h.legible hnames.1 hnames.2.1 hfinite
  | _, _, .expr he, hnames, hfinite => by
    rw [spelled_append] at hnames
    exact he.legible hnames.1 hfinite
  | _, _, .branch hc hb .absent, hnames, hfinite => by
    simp only [List.cons_append, List.nil_append, List.append_assoc, List.append_nil,
      spelled_append, spelled_keyword, spelled_symbol, Stmt.literals, allFinite_append]
      at hnames hfinite
    exact ⟨hc.legible hnames.1 hfinite.1, hb.legible hnames.2 hfinite.2⟩
  | _, _, .branch hc hb (.present hb'), hnames, hfinite => by
    simp only [List.cons_append, List.nil_append, List.append_assoc, spelled_append,
      spelled_keyword, spelled_symbol, Stmt.literals, allFinite_append] at hnames hfinite
    exact ⟨hc.legible hnames.1 hfinite.1, hb.legible hnames.2.1 hfinite.2.1,
      hb'.legible hnames.2.2 hfinite.2.2⟩
  | _, _, .whileLoop hc hb, hnames, hfinite => by
    simp only [List.cons_append, List.nil_append, List.append_assoc, spelled_append,
      spelled_keyword, spelled_symbol, Stmt.literals, allFinite_append] at hnames hfinite
    exact ⟨hc.legible hnames.1 hfinite.1, hb.legible hnames.2 hfinite.2⟩
  | _, _, .forLoop he hc hp hb, hnames, hfinite => by
    simp only [List.cons_append, List.nil_append, List.append_assoc, spelled_append,
      spelled_keyword, spelled_symbol, spelled_name, Stmt.literals, allFinite_append]
      at hnames hfinite
    obtain ⟨hx, hnames, hnames', hy, hstep, hbody⟩ := hnames
    exact ⟨⟨hx, he.legible hnames hfinite.1⟩, hc.legible hnames' hfinite.2.1,
      hp.legible hy hstep hfinite.2.2.1, hb.legible hbody hfinite.2.2.2⟩

theorem Grammar.Block.legible : ∀ {ts : List Token} {b : List Stmt}, Block ts b → Spelled ts →
    AllFinite (literalsOf b) → AllLegible b
  | _, _, .braces h, hnames, hfinite => by
    rw [List.cons_append, spelled_symbol, spelled_append] at hnames
    exact h.legible hnames.1 hfinite

/-- All statements of a block or of a program are legible. -/
theorem Grammar.Statements.legible : ∀ {ts : List Token} {b : List Stmt}, Statements ts b →
    Spelled ts → AllFinite (literalsOf b) → AllLegible b
  | _, _, .nil, _, _ => trivial
  | _, _, .cons hs hss, hnames, hfinite => by
    rw [spelled_append] at hnames
    rw [literalsOf, allFinite_append] at hfinite
    exact ⟨hs.legible hnames.1 hfinite.1, hss.legible hnames.2 hfinite.2⟩

end

/-! ## Programs -/

/-- A program that was read from a source is legible without its spans, if its numbers are
finite. -/
theorem Program.legible {source : String} {p : Program} (hp : Program.parse source = .ok p)
    (hfinite : AllFinite (literalsOf p)) : AllLegible p.bare := by
  have hword : Statements (tokensOf source.toList) p.bare := Program.parse_iff.1 ⟨p, hp, rfl⟩
  refine hword.legible (fun x => isName_of_mem_tokensOf) ?_
  rwa [Program.bare, ← show Stmt.relocateAll (fun _ => .origin) p = p.map Stmt.bare from
    Stmt.relocateAll_eq_map .., literalsOf_relocate]

/-- The lines of a legible program. -/
theorem Program.toList_sexpr {p : Program} (h : AllLegible p) :
    p.sexpr.toList = ['\n'].intercalate (charsOf (nodesOf p)) := by
  rw [Program.sexpr, String.toList_intercalate, charsOf_nodesOf h]
  rfl

/-- **The S-expression says which program it is.**  Programs that were read from sources, and have
finite numbers only, are the same up to spans if their S-expressions are the same text. -/
theorem sexpr_injective {s t : String} {p q : Program} (hp : Program.parse s = .ok p)
    (hq : Program.parse t = .ok q)
    (hfinite : ∀ x, .number x ∈ literalsOf p → x.isFinite = true)
    (hfinite' : ∀ x, .number x ∈ literalsOf q → x.isFinite = true)
    (h : Program.sexpr p = Program.sexpr q) : Program.bare p = Program.bare q := by
  have hlegible := Program.legible hp hfinite
  have hlegible' := Program.legible hq hfinite'
  have hnodes : nodesOf p.bare = nodesOf q.bare := by
    have hchars : p.bare.sexpr.toList = q.bare.sexpr.toList := by
      rw [p.sexpr_bare, q.sexpr_bare, h]
    rw [Program.toList_sexpr hlegible, Program.toList_sexpr hlegible', ← List.append_nil
      (List.intercalate _ (charsOf (nodesOf p.bare))), ← List.append_nil
      (List.intercalate _ (charsOf (nodesOf q.bare)))] at hchars
    exact (joined_unique rfl (plain_nodesOf hlegible) (plain_nodesOf hlegible') shut_nil shut_nil
      hchars).1
  have hboth := nodesOf_injective hlegible hlegible' hnodes
  rw [← p.bare_bare, ← q.bare_bare]
  exact hboth

/-- Whether a constant is finite, if it is a number at all. -/
def Literal.isFinite : Literal → Bool
  | .number x => x.isFinite
  | _ => true

/-- Whether all numbers are finite can be computed. -/
theorem allFinite_of_all {values : List Literal} (h : values.all Literal.isFinite = true) :
    AllFinite values :=
  fun x hx => List.all_eq_true.1 h (.number x) hx

/-- Spaces and the zeros at the end of a fraction are not shown, and a quotation mark in a text
is. -/
theorem sexpr_injective_spaces :
    ∃ p q, Program.parse "x=1.5;print('\\'',x);" = .ok p ∧
      Program.parse "x = 1.50 ; print(\"'\", x);" = .ok q ∧
      (∀ x, .number x ∈ literalsOf p → x.isFinite = true) ∧
      (∀ x, .number x ∈ literalsOf q → x.isFinite = true) ∧
      Program.sexpr p = Program.sexpr q ∧ Program.bare p = Program.bare q := by
  obtain ⟨q, hq, hfinite'⟩ := Program.exists_of_check "x = 1.50 ; print(\"'\", x);"
    (fun q => (literalsOf q).all Literal.isFinite &&
      decide (q.sexpr = "(set x 1.5)\n(print \"'\" x :end \"\\n\")")) (by decide +kernel)
  obtain ⟨p, hp, hfinite⟩ := Program.exists_of_check "x=1.5;print('\\'',x);"
    (fun p => (literalsOf p).all Literal.isFinite &&
      decide (p.sexpr = "(set x 1.5)\n(print \"'\" x :end \"\\n\")")) (by decide +kernel)
  rw [Bool.and_eq_true] at hfinite hfinite'
  have hsexpr : Program.sexpr p = Program.sexpr q :=
    (of_decide_eq_true hfinite.2).trans (of_decide_eq_true hfinite'.2).symm
  exact ⟨p, q, hp, hq, allFinite_of_all hfinite.1, allFinite_of_all hfinite'.1, hsexpr,
    sexpr_injective hp hq (allFinite_of_all hfinite.1) (allFinite_of_all hfinite'.1) hsexpr⟩

end FlatScript
