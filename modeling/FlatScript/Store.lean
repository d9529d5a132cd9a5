/-
# The store of variables

There is one flat table of variables: blocks open no scope of their own, and a variable exists
from the first time it is given a value.  `get?_set` is the whole theory of the store: setting a
name changes what that name holds and nothing else.
-/
import FlatScript.RuntimeError

namespace FlatScript

/-- Names and what they hold, each name once, in the order in which they were first set. -/
structure Store where
  entries : List (String × Value) := []
deriving DecidableEq

namespace Store

/-- The store that holds nothing. -/
def empty : Store := {}

/-- Looks a name up in a list of entries. -/
def find? (name : String) : List (String × Value) → Option Value
  | [] => none
  | (key, value) :: entries => if key = name then some value else find? name entries

/-- Puts a value in the place of a name, or behind all others if the name is new. -/
def put (name : String) (value : Value) : List (String × Value) → List (String × Value)
  | [] => [(name, value)]
  | (key, old) :: entries =>
    if key = name then (key, value) :: entries else (key, old) :: put name value entries

/-- What a name holds, if it was ever set. -/
def get? (store : Store) (name : String) : Option Value :=
  find? name store.entries

/-- Gives a name a value, whether it had one before or not. -/
def set (store : Store) (name : String) (value : Value) : Store :=
  ⟨put name value store.entries⟩

/-- What a name holds; an error if it was never set. -/
def read (store : Store) (name : String) : Except RuntimeError Value :=
  match store.get? name with
  | some value => .ok value
  | none => .error (.undefinedVariable name)

/-- The number that a name holds, for an update of it; an error if it holds anything else or
nothing. -/
def readNumber (store : Store) (op : UpdateOp) (name : String) : Except RuntimeError Float :=
  match store.get? name with
  | some (.number x) => .ok x
  | other => .error (.unsupportedUpdate op name (other.map Value.kind))

/-- The entry that is put is found under its own name, and every other name finds what it found
before. -/
theorem find?_put (name other : String) (value : Value) (entries : List (String × Value)) :
    find? other (put name value entries) =
      if name = other then some value else find? other entries := by
  induction entries with
  | nil => simp [put, find?]
  | cons entry entries ih =>
    obtain ⟨key, old⟩ := entry
    by_cases h : key = name
    · subst h
      by_cases ho : key = other <;> simp [put, find?, ho]
    · by_cases ho : key = other
      · subst ho
        simp [put, find?, h, Ne.symm h]
      · simp [put, find?, h, ho, ih]

/-- **Setting a name** changes what that name holds and nothing else. -/
theorem get?_set (store : Store) (name other : String) (value : Value) :
    (store.set name value).get? other = if name = other then some value else store.get? other :=
  find?_put name other value store.entries

end Store

end FlatScript
