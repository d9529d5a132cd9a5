/-
# Faults

A reader of lexemes takes some things for granted: that a token it has seen is still there, that
something is left of the input when it moves on, that it gets ahead.  It can also check them.  A
check that fails is a fault, which cannot be mistaken for an error in the source.
-/
import FlatScript.ParseError

namespace FlatScript

/-- What must not happen while lexemes are read. -/
inductive Fault where
  /-- A token that was seen is not the current one when it is taken. -/
  | mismatch (seen here : Token)
  /-- The window is moved although its current lexeme is the end of the input. -/
  | pastEnd
  /-- Something that has to take a lexeme has taken none. -/
  | stalled
  /-- The bound of a recursion is used up. -/
  | exhausted
deriving DecidableEq

/-- Why a reader that checks itself stops without a result. -/
inductive Stop where
  | refused (error : ParseError)
  | failed (fault : Fault)
deriving DecidableEq

/-- What a reader may fail with: an error in the source, and a fault if it looks for faults. -/
class Failure (ε : Type) where
  /-- The failure at an error in the source. -/
  refused : ParseError → ε
  /-- The failure at a fault, if faults are looked for. -/
  failed? : Fault → Option ε

/-- Where nothing is said about faults, none are looked for. -/
@[default_instance]
instance : Failure ParseError where
  refused error := error
  failed? _ := none

instance : Failure Stop where
  refused := .refused
  failed? fault := some (.failed fault)

end FlatScript
