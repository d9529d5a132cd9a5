/-
# Sources one behind the other

A source that is read as a program is closed: nothing that stands behind it can become a part of its
last token or of its last statement, except an `else` behind an `if`.  So what is read from two
sources, put one behind the other without anything between them, are the statements of the first
and then those of the second, and running them is running the first and then, if it finished, the
second in the state that was left.

* `concatenation` : the law, for reading and for running.
-/
import FlatScript.Proofs.Ending
import FlatScript.Proofs.RunRelocation
import FlatScript.Proofs.Words

namespace FlatScript

open Grammar

/-- The first token of a text that is not blank. -/
theorem head?_tokensOf {cs : List Char} {t : Token} (h : (tokensOf cs).head? = some t) :
    (Lexeme.next ⟨cs, .origin⟩).1.token = t := by
  rw [tokensOf, Lexeme.all] at h
  split at h
  · cases h
  · exact Option.some.inj h

/-- Two sources together are read as a program exactly if the second one is, and then as the
statements of both. -/
theorem statements_append_iff {s t : String} {p : Program} (hp : Program.parse s = .ok p)
    (ht : (Lexeme.next (.ofString t)).1.token ≠ .keyword .otherwise) {b : Program} :
    Statements (tokensOf (s ++ t).toList) b ↔
      ∃ c, Statements (tokensOf t.toList) c ∧ b = p.bare ++ c := by
  have hs : Statements (tokensOf s.toList) p.bare := Program.parse_iff.1 ⟨p, hp, rfl⟩
  have helse : NoElse (tokensOf t.toList) () := fun h => ht (head?_tokensOf h)
  rw [String.toList_append, tokensOf_append fun _ => hs.sealed]
  constructor
  · exact fun h => hs.split h helse
  · rintro ⟨c, hc, rfl⟩
    exact hs.append hc

/-- Statements that are the same up to their spans come to the same end. -/
theorem Machine.ends_of_bare_eq {b b' : List Stmt} (h : b.map Stmt.bare = b'.map Stmt.bare)
    {state : State} {o : Outcome} (hends : (start b state).Ends o) : (start b' state).Ends o := by
  obtain ⟨hstopped, n, hn⟩ := hends
  have hrun := run_of_bare_eq h n state
  refine ⟨hstopped, n, ?_⟩
  cases hstopped with
  | finished state' => exact (Outcome.finished_iff_of_relocate hrun state').1 hn
  | failed e state' => exact (Outcome.failed_iff_of_relocate hrun e state').1 hn

/-- **Concatenation.**  Behind a source that is read as a program, a source that does not begin with
`else` can be put as it is: both together are read as a program exactly if the second one is, and
as the statements of the first and then those of the second.  From every state, they come to the end
that running the first program comes to if it fails, and to the end of running the second one behind
it if it finishes. -/
theorem concatenation {s t : String} {p : Program} (hp : Program.parse s = .ok p)
    (ht : (Lexeme.next (.ofString t)).1.token ≠ .keyword .otherwise) :
    ((∃ r, Program.parse (s ++ t) = .ok r) ↔ ∃ q, Program.parse t = .ok q) ∧
    ∀ q r, Program.parse t = .ok q → Program.parse (s ++ t) = .ok r →
      r.bare = p.bare ++ q.bare ∧
      ∀ state o, (Machine.start r state).Ends o ↔
        ∃ mid, (Machine.start p state).Ends mid ∧ mid.Continues (Task.ofBlock q) o := by
  constructor
  · constructor
    · rintro ⟨r, hr⟩
      obtain ⟨c, hc, -⟩ := (statements_append_iff hp ht).1 (Program.parse_iff.1 ⟨r, hr, rfl⟩)
      obtain ⟨q, hq, -⟩ := Program.parse_iff.2 hc
      exact ⟨q, hq⟩
    · rintro ⟨q, hq⟩
      have hboth := (statements_append_iff hp ht).2 ⟨_, Program.parse_iff.1 ⟨q, hq, rfl⟩, rfl⟩
      obtain ⟨r, hr, -⟩ := Program.parse_iff.2 hboth
      exact ⟨r, hr⟩
  · intro q r hq hr
    have hbare : r.bare = p.bare ++ q.bare := by
      have hboth := (statements_append_iff hp ht).2 ⟨_, Program.parse_iff.1 ⟨q, hq, rfl⟩, rfl⟩
      obtain ⟨r', hr', hbare⟩ := Program.parse_iff.2 hboth
      rw [hr] at hr'
      rwa [← Except.ok.inj hr'] at hbare
    have hsame : r.map Stmt.bare = (p ++ q).map Stmt.bare := by
      rw [List.map_append]
      exact hbare
    refine ⟨hbare, fun state o => ?_⟩
    have hagenda : Machine.start (p ++ q) state = ⟨Task.ofBlock p ++ Task.ofBlock q, state⟩ := by
      rw [Machine.start, Task.ofBlock, List.map_append]
      rfl
    have hboth : Machine.Ends ⟨Task.ofBlock p ++ Task.ofBlock q, state⟩ o ↔ _ :=
      Machine.ends_append
    rw [← hagenda] at hboth
    exact ⟨fun h => hboth.1 (Machine.ends_of_bare_eq hsame h),
      fun h => Machine.ends_of_bare_eq hsame.symm (hboth.2 h)⟩

/-- What a run that has finished has printed. -/
def Machine.Outcome.printed? : Outcome → Option String
  | .finished state => some state.output
  | _ => none

theorem Machine.Outcome.exists_of_printed? {o : Outcome} {text : String}
    (h : o.printed? = some text) : ∃ state, o = .finished state ∧ state.output = text := by
  cases o with
  | finished state => exact ⟨state, rfl, Option.some.inj h⟩
  | failed e state => cases h
  | unfinished machine => cases h

/-- A variable that the first source gives a value is there for the second one. -/
theorem concatenation_print :
    ∃ p q r mid state, Program.parse "x='a';" = .ok p ∧ Program.parse "print(x);" = .ok q ∧
      Program.parse ("x='a';" ++ "print(x);") = .ok r ∧ r.bare = p.bare ++ q.bare ∧
      (Machine.start p {}).Ends mid ∧ mid.Continues (Task.ofBlock q) (.finished state) ∧
      state.output = "a\n" := by
  obtain ⟨p, hp, -⟩ := Program.exists_of_check "x='a';" (fun _ => true) (by decide +kernel)
  obtain ⟨q, hq, -⟩ := Program.exists_of_check "print(x);" (fun _ => true) (by decide +kernel)
  obtain ⟨r, hr, hprinted⟩ := Program.exists_of_check ("x='a';" ++ "print(x);")
    (fun r => decide (((Machine.start r {}).run 3).printed? = some "a\n")) (by decide +kernel)
  obtain ⟨state, hstate, houtput⟩ :=
    Machine.Outcome.exists_of_printed? (of_decide_eq_true hprinted)
  have helse : (Lexeme.next (.ofString "print(x);")).1.token ≠ .keyword .otherwise := by
    decide +kernel
  obtain ⟨hbare, hends⟩ := (concatenation hp helse).2 q r hq hr
  obtain ⟨mid, hmid, hcontinues⟩ := (hends {} (.finished state)).1 ⟨.finished state, 3, hstate⟩
  exact ⟨p, q, r, mid, state, hp, hq, hr, hbare, hmid, hcontinues, houtput⟩

end FlatScript
