/-
# Quoted text

Texts are shown between double quotation marks in messages and in S-expressions.  The quotation
mark and the backslash get a backslash in front; NUL, tab, carriage return and line feed are a
backslash and a sign of their own; every other character that does not show as itself, because it
is unprintable, ignorable or a combining mark, is shown by its code point, in hexadecimal digits
between braces; all else stands as it is.
-/
import FlatScript.Unicode.CombiningMark
import FlatScript.Unicode.DefaultIgnorable
import FlatScript.Unicode.Unprintable

namespace FlatScript

namespace Quoted

/-- Whether a character is shown by its code point: it cannot be seen, or not apart from the
character before it. -/
def isHidden (c : Char) : Bool :=
  isCombiningMark c || isDefaultIgnorable c || isUnprintable c

/-- A code point in lower-case hexadecimal digits between braces. -/
def codePoint (c : Char) : List Char :=
  ['\\', 'u', '{'] ++ Nat.toDigits 16 c.toNat ++ ['}']

/-- One character of quoted text. -/
def encodeChar (c : Char) : List Char :=
  match c with
  | '\x00' => ['\\', '0']
  | '\t' => ['\\', 't']
  | '\r' => ['\\', 'r']
  | '\n' => ['\\', 'n']
  | '"' => ['\\', '"']
  | '\\' => ['\\', '\\']
  | c => if isHidden c then codePoint c else [c]

/-- The characters of a text as they stand between the quotation marks. -/
def encode (cs : List Char) : List Char :=
  cs.flatMap encodeChar

end Quoted

/-- A text between double quotation marks. -/
def quoted (s : String) : String :=
  String.ofList ('"' :: Quoted.encode s.toList ++ ['"'])

end FlatScript
