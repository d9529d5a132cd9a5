/-
# Bracketed texts

An S-expression is a text of words and quotations that are put between brackets, with a space
between them.  It can be read in one way only: a word ends where one of a few characters follows
that no word holds, a quotation ends at the first quotation mark without a backslash, and brackets
say themselves how many things stand between them.

* `Quoted.encode_unique` : where a quotation ends, and what it holds;
* `Node.chars_unique` : where a node ends, and which one it is.
-/
import FlatScript.Quoted
import FlatScript.Proofs.Scanning

namespace FlatScript

/-! ## Hexadecimal digits -/

/-- No two digits are written alike. -/
theorem digitChar_injective {m n : ℕ} (hm : m < 16) (hn : n < 16)
    (h : m.digitChar = n.digitChar) : m = n := by
  have hall : ∀ m < 16, ∀ n < 16, m.digitChar = n.digitChar → m = n := by decide
  exact hall m hm n hn h

/-- A brace is no digit, so it ends the code of a character. -/
theorem ne_rightBrace_of_mem_toDigits {n : ℕ} {c : Char} (h : c ∈ Nat.toDigits 16 n) :
    c ≠ '}' := by
  have hdigit : ∀ m < 16, m.digitChar ≠ '}' := by decide
  induction n using Nat.strong_induction_on with
  | _ n ih =>
    by_cases hn : n < 16
    · rw [Nat.toDigits_of_lt_base hn, List.mem_singleton] at h
      exact h ▸ hdigit n hn
    · rw [Nat.toDigits_of_base_le (by decide) (Nat.le_of_not_lt hn), List.mem_append,
        List.mem_singleton] at h
      rcases h with h | h
      · exact ih (n / 16) (by omega) h
      · exact h ▸ hdigit _ (Nat.mod_lt _ (by decide))

/-- A number can be told from its hexadecimal digits. -/
theorem toDigits_injective {m n : ℕ} (h : Nat.toDigits 16 m = Nat.toDigits 16 n) : m = n := by
  have hlast : ∀ n, ∃ ds, Nat.toDigits 16 n = ds ++ [(n % 16).digitChar] ∧
      (n < 16 ∧ ds = [] ∨ 16 ≤ n ∧ ds = Nat.toDigits 16 (n / 16)) := by
    intro n
    rcases Nat.lt_or_ge n 16 with hn | hn
    · exact ⟨[], by rw [Nat.toDigits_of_lt_base hn, Nat.mod_eq_of_lt hn]; rfl, .inl ⟨hn, rfl⟩⟩
    · exact ⟨_, Nat.toDigits_of_base_le (by decide) hn, .inr ⟨hn, rfl⟩⟩
  induction m using Nat.strong_induction_on generalizing n with
  | _ m ih =>
    obtain ⟨ds, hm, hds⟩ := hlast m
    obtain ⟨es, hn, hes⟩ := hlast n
    rw [hm, hn] at h
    obtain ⟨hinit, hdigit⟩ := List.append_inj' h rfl
    have hmod := digitChar_injective (Nat.mod_lt m (by decide)) (Nat.mod_lt n (by decide))
      (List.cons.inj hdigit).1
    rcases hds with ⟨hm, hds⟩ | ⟨hm, hds⟩ <;> rcases hes with ⟨hn, hes⟩ | ⟨hn, hes⟩
    · omega
    · exact absurd (hes.symm.trans (hinit.symm.trans hds)) Nat.toDigits_ne_nil
    · exact absurd (hds.symm.trans (hinit.trans hes)) Nat.toDigits_ne_nil
    · have hdiv := ih (m / 16) (by omega) (hds.symm.trans (hinit.trans hes))
      omega

/-! ## Quotations -/

namespace Quoted

/-- The characters that are written as a backslash and a sign, and their signs. -/
def escapes : List (Char × Char) :=
  [('\x00', '0'), ('\t', 't'), ('\r', 'r'), ('\n', 'n'), ('"', '"'), ('\\', '\\')]

/-- The ways in which a character is written between quotation marks. -/
theorem encodeChar_cases (c : Char) :
    (∃ sign, (c, sign) ∈ escapes ∧ encodeChar c = ['\\', sign]) ∨ encodeChar c = codePoint c ∨
      c ≠ '\\' ∧ c ≠ '"' ∧ encodeChar c = [c] := by
  unfold encodeChar
  split
  · exact .inl ⟨_, by decide, rfl⟩
  · exact .inl ⟨_, by decide, rfl⟩
  · exact .inl ⟨_, by decide, rfl⟩
  · exact .inl ⟨_, by decide, rfl⟩
  · exact .inl ⟨_, by decide, rfl⟩
  · exact .inl ⟨_, by decide, rfl⟩
  · rename_i hquote hbackslash
    split
    · exact .inr (.inl rfl)
    · exact .inr (.inr ⟨hbackslash, hquote, rfl⟩)

/-- What a character is written as can be told from what follows it. -/
theorem encodeChar_unique {c d : Char} {k l : List Char}
    (h : encodeChar c ++ k = encodeChar d ++ l) : c = d ∧ k = l := by
  have hescapes : ∀ a ∈ escapes, ∀ b ∈ escapes, a.2 = b.2 → a = b := by decide
  have hsign : ∀ a ∈ escapes, a.2 ≠ 'u' := by decide
  rcases encodeChar_cases c with ⟨sign, hmem, hc⟩ | hc | ⟨hbackslash, -, hc⟩ <;>
    rcases encodeChar_cases d with ⟨sign', hmem', hd⟩ | hd | ⟨hbackslash', -, hd⟩ <;>
    rw [hc, hd] at h
  · obtain ⟨rfl, htail⟩ := List.cons.inj (List.cons.inj h).2
    exact ⟨congrArg Prod.fst (hescapes _ hmem _ hmem' rfl), htail⟩
  · exact absurd (List.cons.inj (List.cons.inj h).2).1 (hsign _ hmem)
  · exact absurd (List.cons.inj h).1.symm hbackslash'
  · exact absurd (List.cons.inj (List.cons.inj h).2).1.symm (hsign _ hmem')
  · -- The brace behind the digits is none of them.
    have hends : ∀ k, Ends (· != '}') ('}' :: k) := by
      rintro k _ ⟨⟩
      rfl
    have hdigits : ∀ n, ∀ c ∈ Nat.toDigits 16 n, (c != '}') = true :=
      fun n c hc => bne_iff_ne.2 (ne_rightBrace_of_mem_toDigits hc)
    simp only [codePoint, List.cons_append, List.nil_append, List.append_assoc, List.cons.injEq,
      true_and] at h
    obtain ⟨hcode, h⟩ := run_unique (hdigits _) (hdigits _) (hends k) (hends l) h
    exact ⟨Char.toNat_inj.1 (toDigits_injective hcode), (List.cons.inj h).2⟩
  · exact absurd (List.cons.inj h).1.symm hbackslash'
  · exact absurd (List.cons.inj h).1 hbackslash
  · exact absurd (List.cons.inj h).1 hbackslash
  · exact ⟨(List.cons.inj h).1, (List.cons.inj h).2⟩

/-- No character is written with a quotation mark in front. -/
theorem encodeChar_ne_mark (c : Char) (k l : List Char) : encodeChar c ++ k ≠ '"' :: l := by
  intro h
  rcases encodeChar_cases c with ⟨sign, -, hc⟩ | hc | ⟨-, hquote, hc⟩ <;> rw [hc] at h
  · exact absurd (List.cons.inj h).1 (by decide)
  · exact absurd (List.cons.inj h).1 (by decide)
  · exact absurd (List.cons.inj h).1 hquote

/-- **Quotations can be read in one way.** -/
theorem encode_unique {cs ds k l : List Char} (h : encode cs ++ '"' :: k = encode ds ++ '"' :: l) :
    cs = ds ∧ k = l := by
  induction cs generalizing ds with
  | nil =>
    cases ds with
    | nil => exact ⟨rfl, (List.cons.inj h).2⟩
    | cons d ds =>
      rw [encode, encode, List.flatMap_cons, List.append_assoc] at h
      exact absurd h.symm (encodeChar_ne_mark d _ _)
  | cons c cs ih =>
    cases ds with
    | nil =>
      rw [encode, encode, List.flatMap_cons, List.append_assoc] at h
      exact absurd h (encodeChar_ne_mark c _ _)
    | cons d ds =>
      rw [encode, encode, List.flatMap_cons, List.flatMap_cons, List.append_assoc,
        List.append_assoc] at h
      obtain ⟨rfl, htail⟩ := encodeChar_unique h
      obtain ⟨rfl, rfl⟩ := ih htail
      exact ⟨rfl, rfl⟩

end Quoted

/-! ## Nodes -/

/-- A pair of brackets. -/
inductive Bracket where
  | round
  | curly
deriving DecidableEq

namespace Bracket

def opening : Bracket → Char
  | .round => '('
  | .curly => '{'

def closing : Bracket → Char
  | .round => ')'
  | .curly => '}'

end Bracket

/-- What an S-expression is made of: a word, a quotation, or nodes between brackets. -/
inductive Node where
  | word (cs : List Char)
  | quotation (cs : List Char)
  | group (bracket : Bracket) (nodes : List Node)

mutual

/-- The characters of a node. -/
def Node.chars : Node → List Char
  | .word cs => cs
  | .quotation cs => '"' :: Quoted.encode cs ++ ['"']
  | .group bracket nodes =>
    bracket.opening :: [' '].intercalate (charsOf nodes) ++ [bracket.closing]

/-- The characters of nodes, one by one. -/
def charsOf : List Node → List (List Char)
  | [] => []
  | node :: nodes => node.chars :: charsOf nodes

end

/-- Whether a character may belong to a word: it is no separator, no bracket and no quotation
mark. -/
def isPlain (c : Char) : Bool :=
  c ∉ [' ', '\n', '(', ')', '{', '}', '"']

mutual

/-- All words of a node are words: they are not empty, and have no other characters. -/
def Node.Plain : Node → Prop
  | .word cs => cs ≠ [] ∧ ∀ c ∈ cs, isPlain c = true
  | .quotation _ => True
  | .group _ nodes => AllPlain nodes

/-- The same of several nodes. -/
def AllPlain : List Node → Prop
  | [] => True
  | node :: nodes => node.Plain ∧ AllPlain nodes

end

/-- The characters that separate nodes. -/
def isSeparator (c : Char) : Bool :=
  c ∈ [' ', '\n']

/-- The characters that close a group of nodes. -/
def isClosing (c : Char) : Bool :=
  c ∈ [')', '}']

theorem not_plain_of_isSeparator {c : Char} (h : isSeparator c = true) : isPlain c = false := by
  have hmem : c ∈ [' ', '\n'] := of_decide_eq_true h
  simp only [List.mem_cons, List.not_mem_nil, or_false] at hmem
  rcases hmem with rfl | rfl <;> rfl

theorem not_plain_of_isClosing {c : Char} (h : isClosing c = true) : isPlain c = false := by
  have hmem : c ∈ [')', '}'] := of_decide_eq_true h
  simp only [List.mem_cons, List.not_mem_nil, or_false] at hmem
  rcases hmem with rfl | rfl <;> rfl

/-- A node begins with a character that neither separates nor closes. -/
theorem Node.exists_head {node : Node} (h : node.Plain) :
    ∃ c cs, node.chars = c :: cs ∧ isSeparator c = false ∧ isClosing c = false := by
  match node, h with
  | .word (c :: cs), h =>
    have hc : isPlain c = true := h.2 c List.mem_cons_self
    refine ⟨c, cs, by rw [chars], ?_, ?_⟩
    · rw [← Bool.not_eq_true]
      exact fun hseparator => by rw [not_plain_of_isSeparator hseparator] at hc; cases hc
    · rw [← Bool.not_eq_true]
      exact fun hclosing => by rw [not_plain_of_isClosing hclosing] at hc; cases hc
  | .quotation cs, _ => exact ⟨'"', _, by rw [chars]; rfl, rfl, rfl⟩
  | .group .round nodes, _ => exact ⟨'(', _, by rw [chars]; rfl, rfl, rfl⟩
  | .group .curly nodes, _ => exact ⟨'{', _, by rw [chars]; rfl, rfl, rfl⟩

/-- What stands behind nodes in a group, or at the end: nothing, or what closes the group. -/
def Shut (k : List Char) : Prop :=
  ∀ c, k.head? = some c → isClosing c = true

theorem shut_nil : Shut [] := nofun

theorem Shut.ends {k : List Char} (h : Shut k) : Ends isPlain k :=
  fun c hc => not_plain_of_isClosing (h c hc)

/-- A list has come to its end where its separator does not stand. -/
theorem Shut.ne_separator {k l : List Char} {sep : Char} (h : Shut k)
    (hsep : isSeparator sep = true) : k ≠ sep :: l := by
  rintro rfl
  have hclosing := h sep rfl
  have hmem : sep ∈ [' ', '\n'] := of_decide_eq_true hsep
  simp only [List.mem_cons, List.not_mem_nil, or_false] at hmem
  rcases hmem with rfl | rfl <;> cases hclosing

theorem Shut.ne_chars {k l : List Char} {node : Node} (h : Shut k) (hnode : node.Plain) :
    k ≠ node.chars ++ l := by
  rintro rfl
  obtain ⟨c, cs, hchars, -, hclosing⟩ := Node.exists_head hnode
  have hhead := h c (by rw [hchars]; rfl)
  rw [hclosing] at hhead
  cases hhead

/-- The first character of a node tells its kind. -/
theorem Node.same_kind {a b : Node} {k l : List Char} (ha : a.Plain) (hb : b.Plain)
    (h : a.chars ++ k = b.chars ++ l) :
    match a, b with
    | .word _, .word _ => True
    | .quotation _, .quotation _ => True
    | .group bracket _, .group bracket' _ => bracket = bracket'
    | _, _ => False := by
  have hword : ∀ {cs k l : List Char} {c : Char}, (word cs).Plain → isPlain c = false →
      cs ++ k ≠ c :: l := by
    intro cs k l c hcs hc h
    obtain ⟨first, cs, rfl⟩ := List.exists_cons_of_ne_nil hcs.1
    obtain rfl := (List.cons.inj h).1
    rw [hcs.2 first List.mem_cons_self] at hc
    cases hc
  have hopening : ∀ bracket : Bracket, isPlain bracket.opening = false := by
    intro bracket
    cases bracket <;> rfl
  match a, b with
  | .word _, .word _ => trivial
  | .quotation _, .quotation _ => trivial
  | .word _, .quotation _ => exact hword ha rfl h
  | .word _, .group bracket _ => exact hword ha (hopening bracket) h
  | .quotation _, .word _ => exact hword hb rfl h.symm
  | .group bracket _, .word _ => exact hword hb (hopening bracket) h.symm
  | .quotation _, .group bracket _ =>
    have hhead : '"' = bracket.opening := (List.cons.inj h).1
    cases bracket <;> cases hhead
  | .group bracket _, .quotation _ =>
    have hhead : bracket.opening = '"' := (List.cons.inj h).1
    cases bracket <;> cases hhead
  | .group bracket _, .group bracket' _ =>
    have hhead : bracket.opening = bracket'.opening := (List.cons.inj h).1
    cases bracket <;> cases bracket' <;> first | rfl | cases hhead

/-- What stands behind a node, if others are to follow. -/
def behind (sep : Char) (nodes : List Node) (k : List Char) : List Char :=
  match nodes with
  | [] => k
  | _ => sep :: ([sep].intercalate (charsOf nodes) ++ k)

/-- Nodes that are joined are the first one and what is behind it. -/
theorem joined_cons (sep : Char) (node : Node) (nodes : List Node) (k : List Char) :
    [sep].intercalate (charsOf (node :: nodes)) ++ k = node.chars ++ behind sep nodes k := by
  cases nodes with
  | nil => rw [charsOf, charsOf, List.intercalate_singleton, behind]
  | cons node' nodes =>
    rw [charsOf, charsOf, List.intercalate_cons_cons, behind, charsOf]
    · simp only [List.append_assoc, List.cons_append, List.nil_append]
    · exact nofun

/-- What is behind a node ends it, whether it is another node or the end of the list. -/
theorem ends_behind {sep : Char} (hsep : isSeparator sep = true) {k : List Char} (hk : Shut k)
    (nodes : List Node) : Ends isPlain (behind sep nodes k) := by
  cases nodes with
  | nil => exact hk.ends
  | cons node nodes =>
    rintro c ⟨⟩
    exact not_plain_of_isSeparator hsep

mutual

/-- **Nodes can be read in one way.** -/
theorem Node.chars_unique : ∀ {a b : Node} {k l : List Char}, a.Plain → b.Plain →
    Ends isPlain k → Ends isPlain l → a.chars ++ k = b.chars ++ l → a = b ∧ k = l
  | .word cs, .word ds, k, l, ha, hb, hk, hl, h => by
    rw [Node.chars, Node.chars] at h
    obtain ⟨rfl, rfl⟩ := run_unique ha.2 hb.2 hk hl h
    exact ⟨rfl, rfl⟩
  | .quotation cs, .quotation ds, k, l, _, _, _, _, h => by
    simp only [Node.chars, List.cons_append, List.append_assoc, List.cons.injEq, true_and,
      List.nil_append] at h
    obtain ⟨rfl, rfl⟩ := Quoted.encode_unique h
    exact ⟨rfl, rfl⟩
  | .group bracket nodes, .group bracket' nodes', k, l, ha, hb, _, _, h => by
    obtain rfl : bracket = bracket' := Node.same_kind ha hb h
    have hshut : ∀ k, Shut (bracket.closing :: k) := by
      rintro k _ ⟨⟩
      cases bracket <;> rfl
    simp only [Node.chars, List.cons_append, List.append_assoc, List.cons.injEq, true_and,
      List.nil_append] at h
    obtain ⟨rfl, htail⟩ := joined_unique rfl ha hb (hshut k) (hshut l) h
    exact ⟨rfl, (List.cons.inj htail).2⟩
  | .word _, .quotation _, _, _, ha, hb, _, _, h => (Node.same_kind ha hb h).elim
  | .word _, .group .., _, _, ha, hb, _, _, h => (Node.same_kind ha hb h).elim
  | .quotation _, .word _, _, _, ha, hb, _, _, h => (Node.same_kind ha hb h).elim
  | .quotation _, .group .., _, _, ha, hb, _, _, h => (Node.same_kind ha hb h).elim
  | .group .., .word _, _, _, ha, hb, _, _, h => (Node.same_kind ha hb h).elim
  | .group .., .quotation _, _, _, ha, hb, _, _, h => (Node.same_kind ha hb h).elim

/-- So can nodes with a separator between them. -/
theorem joined_unique {sep : Char} (hsep : isSeparator sep = true) :
    ∀ {as bs : List Node} {k l : List Char}, AllPlain as → AllPlain bs → Shut k → Shut l →
      [sep].intercalate (charsOf as) ++ k = [sep].intercalate (charsOf bs) ++ l → as = bs ∧ k = l
  | [], [], k, l, _, _, _, _, h => ⟨rfl, h⟩
  | [], b :: bs, k, l, _, hb, hk, _, h => by
    rw [joined_cons] at h
    exact absurd h (hk.ne_chars hb.1)
  | a :: as, [], k, l, ha, _, _, hl, h => by
    rw [joined_cons] at h
    exact absurd h.symm (hl.ne_chars ha.1)
  | a :: as, b :: bs, k, l, ha, hb, hk, hl, h => by
    rw [joined_cons, joined_cons] at h
    obtain ⟨rfl, htail⟩ := Node.chars_unique ha.1 hb.1 (ends_behind hsep hk as)
      (ends_behind hsep hl bs) h
    match as, bs with
    | [], [] => exact ⟨rfl, htail⟩
    | [], _ :: _ => exact absurd htail (hk.ne_separator hsep)
    | _ :: _, [] => exact absurd htail.symm (hl.ne_separator hsep)
    | a' :: as, b' :: bs =>
      obtain ⟨has, rfl⟩ := joined_unique hsep ha.2 hb.2 hk hl (List.cons.inj htail).2
      rw [has]
      exact ⟨rfl, rfl⟩

end

end FlatScript
