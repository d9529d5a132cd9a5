/-
# Runs that come to an end

A run that has stopped stays as it is, however many more steps it may take, so a machine comes to
at most one end.  An agenda is worked off from the front: the tasks at its end wait for those in
front of them, and are never looked at if one of those fails.

* `Machine.Ends` : the end that a machine comes to, in any number of steps;
* `Machine.ends_append` : the end of two agendas, one behind the other.
-/
import FlatScript.Machine

namespace FlatScript

namespace Machine

variable {m : Machine} {o o' : Outcome}

/-- The machine has stopped: it has finished or failed. -/
inductive Outcome.Stopped : Outcome → Prop where
  | finished (state : State) : Stopped (.finished state)
  | failed (e : RuntimeError) (state : State) : Stopped (.failed e state)

/-- With enough steps, the machine comes to this end. -/
def Ends (m : Machine) (o : Outcome) : Prop :=
  o.Stopped ∧ ∃ n, m.run n = o

/-- More steps change nothing about a run that has stopped. -/
theorem run_of_stopped {n k : Nat} (h : (m.run n).Stopped) (hnk : n ≤ k) : m.run k = m.run n := by
  induction n generalizing m k with
  | zero => cases h
  | succ n ih =>
    obtain ⟨k, rfl⟩ : ∃ k', k = k' + 1 := ⟨k - 1, by omega⟩
    rw [run] at h
    rw [run, run]
    cases hstep : m.step with
    | done state => rfl
    | failed e state => rfl
    | next m' =>
      rw [hstep] at h
      exact ih h (Nat.le_of_succ_le_succ hnk)

/-- A machine comes to one end only. -/
theorem Ends.unique (h : m.Ends o) (h' : m.Ends o') : o = o' := by
  obtain ⟨hstopped, n, rfl⟩ := h
  obtain ⟨hstopped', k, rfl⟩ := h'
  rcases Nat.le_total n k with hnk | hkn
  · exact (run_of_stopped hstopped hnk).symm
  · exact run_of_stopped hstopped' hkn

/-! ## One step, and the rest of the run -/

/-- The end of a machine is what its first step gives, or the end of the machine behind it. -/
theorem ends_iff_step : m.Ends o ↔
    match m.step with
    | .done state => o = .finished state
    | .failed e state => o = .failed e state
    | .next m' => m'.Ends o := by
  constructor
  · rintro ⟨hstopped, n, rfl⟩
    cases n with
    | zero => cases hstopped
    | succ n =>
      rw [run] at hstopped ⊢
      cases hstep : m.step with
      | done state => rfl
      | failed e state => rfl
      | next m' =>
        rw [hstep] at hstopped
        exact ⟨hstopped, n, rfl⟩
  · intro h
    cases hstep : m.step with
    | done state =>
      rw [hstep] at h
      subst h
      exact ⟨.finished state, 1, by rw [run, hstep]⟩
    | failed e state =>
      rw [hstep] at h
      subst h
      exact ⟨.failed e state, 1, by rw [run, hstep]⟩
    | next m' =>
      rw [hstep] at h
      obtain ⟨hstopped, n, hn⟩ := h
      exact ⟨hstopped, n + 1, by rw [run, hstep]; exact hn⟩

/-- Without a task, a machine has finished. -/
theorem ends_nil {state : State} : Ends ⟨[], state⟩ o ↔ o = .finished state :=
  ends_iff_step

/-- A task that succeeds is replaced by the tasks that it leaves. -/
theorem ends_of_ok {task : Task} {tasks agenda : List Task} {state state' : State}
    (h : task.perform state = .ok tasks state') :
    Ends ⟨task :: agenda, state⟩ o ↔ Ends ⟨tasks ++ agenda, state'⟩ o := by
  rw [ends_iff_step, step, h]

/-- A task that fails ends the run. -/
theorem ends_of_error {task : Task} {agenda : List Task} {state state' : State} {e : RuntimeError}
    (h : task.perform state = .error e state') :
    Ends ⟨task :: agenda, state⟩ o ↔ o = .failed e state' := by
  rw [ends_iff_step, step, h]

/-! ## Two agendas, one behind the other -/

/-- What comes of an outcome if an agenda was waiting behind it: nothing more if it is an error,
and otherwise the end of that agenda, begun in the state that was left. -/
inductive Outcome.Continues (agenda : List Task) : Outcome → Outcome → Prop where
  | failed (e : RuntimeError) (state : State) : Continues agenda (.failed e state) (.failed e state)
  | finished {state : State} {o : Outcome} (h : Ends ⟨agenda, state⟩ o) :
      Continues agenda (.finished state) o

/-- What was waiting may be replaced by an agenda that comes to the same ends. -/
theorem Outcome.Continues.mono {agenda agenda' : List Task} {mid : Outcome}
    (h : ∀ state o, Ends ⟨agenda, state⟩ o → Ends ⟨agenda', state⟩ o)
    (hcontinues : mid.Continues agenda o) : mid.Continues agenda' o := by
  cases hcontinues with
  | failed e state => exact .failed e state
  | finished hends => exact .finished (h _ _ hends)

/-- An end of both agendas goes through an end of the first one. -/
theorem Ends.exists_between {first second : List Task} {state : State}
    (h : Ends ⟨first ++ second, state⟩ o) :
    ∃ mid, Ends ⟨first, state⟩ mid ∧ mid.Continues second o := by
  -- The induction is on the run of both, from which the first agenda is split off while it lasts.
  obtain ⟨hstopped, n, hn⟩ := h
  induction n generalizing first state with
  | zero =>
    subst hn
    cases hstopped
  | succ n ih =>
    cases first with
    | nil => exact ⟨_, ends_nil.2 rfl, .finished ⟨hstopped, n + 1, hn⟩⟩
    | cons task first =>
      rw [List.cons_append, run, step] at hn
      cases hperform : task.perform state with
      | error e state' =>
        rw [hperform] at hn
        subst hn
        exact ⟨_, (ends_of_error hperform).2 rfl, .failed e state'⟩
      | ok tasks state' =>
        rw [hperform] at hn
        dsimp only at hn
        rw [← List.append_assoc] at hn
        obtain ⟨mid, hmid, hcontinues⟩ := ih hn
        exact ⟨mid, (ends_of_ok hperform).2 hmid, hcontinues⟩

/-- What an end of the first agenda continues to is an end of both. -/
theorem Ends.append {first second : List Task} {state : State} {mid : Outcome}
    (h : Ends ⟨first, state⟩ mid) (hcontinues : mid.Continues second o) :
    Ends ⟨first ++ second, state⟩ o := by
  -- Here it is on the run of the first agenda.
  obtain ⟨hstopped, n, hn⟩ := h
  induction n generalizing first state with
  | zero =>
    subst hn
    cases hstopped
  | succ n ih =>
    cases first with
    | nil =>
      subst hn
      cases hcontinues with
      | finished h => exact h
    | cons task first =>
      rw [run, step] at hn
      rw [List.cons_append]
      cases hperform : task.perform state with
      | error e state' =>
        rw [hperform] at hn
        subst hn
        cases hcontinues
        exact (ends_of_error hperform).2 rfl
      | ok tasks state' =>
        rw [hperform] at hn
        have h := ih hn
        rw [List.append_assoc] at h
        exact (ends_of_ok hperform).2 h

/-- **Agendas one behind the other.**  Both together come to the end that the second one makes of
the end of the first one. -/
theorem ends_append {first second : List Task} {state : State} :
    Ends ⟨first ++ second, state⟩ o ↔
      ∃ mid, Ends ⟨first, state⟩ mid ∧ mid.Continues second o :=
  ⟨Ends.exists_between, fun ⟨_, h, hcontinues⟩ => h.append hcontinues⟩

end Machine

end FlatScript
