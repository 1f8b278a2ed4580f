import Mathlib.Data.List.Basic
import Mathlib.Tactic

/-!
# Systems of events

A system is a partial step function: an event leads from a state to the next one, or it is not
possible there.  This module has the rules for its runs.  What every step keeps holds after a run,
and a count of some of the events may be part of it.  A run comes to an end when there is always a
way on that takes from a bound.  In an infinite execution, a party that makes finitely many steps
and is not neglected comes to its end.  A system that another one simulates does nothing the other
does not do.
-/

namespace CCNxFileRepo.Foundations.Transition

universe u v w x

variable {σ : Type u} {ε : Type v}

/-! ## Runs -/

def run (step : σ → ε → Option σ) (state : σ) (events : List ε) : Option σ :=
  events.foldlM step state

variable {step : σ → ε → Option σ} {state next final : σ} {event : ε} {events : List ε}
  {allowed : ε → Prop}

@[simp]
theorem run_nil : run step state [] = some state := rfl

theorem run_cons :
    run step state (event :: events) =
      (step state event).bind fun next ↦ run step next events := List.foldlM_cons ..

theorem run_append (first second : List ε) :
    run step state (first ++ second) =
      (run step state first).bind fun next ↦ run step next second := List.foldlM_append ..

theorem run_singleton : run step state [event] = step state event := by
  rw [run_cons]
  cases step state event <;> rfl

theorem run_cons_of_step (h : step state event = some next) :
    run step state (event :: events) = run step next events := by
  rw [run_cons, h, Option.bind_some]

theorem run_append_of_run {first : List ε} (h : run step state first = some next)
    (second : List ε) : run step state (first ++ second) = run step next second := by
  rw [run_append, h, Option.bind_some]

/-- What the allowed steps keep holds after every run of them. -/
theorem run_invariant {motive : σ → Prop}
    (hstep : ∀ state event next, allowed event → motive state →
      step state event = some next → motive next)
    (hrun : run step state events = some final) (hallowed : ∀ event ∈ events, allowed event)
    (h : motive state) : motive final := by
  induction events generalizing state with
  | nil =>
      cases hrun
      exact h
  | cons event events ih =>
      rw [run_cons] at hrun
      obtain ⟨next, hnext, hrest⟩ := Option.bind_eq_some_iff.mp hrun
      obtain ⟨hevent, hevents⟩ := List.forall_mem_cons.mp hallowed
      exact ih hrest hevents (hstep state event next hevent h hnext)

/-- An invariant that speaks of the events so far. -/
theorem run_history {motive : List ε → σ → Prop} {start : σ}
    (hstep : ∀ earlier state event next, allowed event → motive earlier state →
      run step start earlier = some state → step state event = some next →
      motive (earlier ++ [event]) next)
    (hrun : run step start events = some final) (hallowed : ∀ event ∈ events, allowed event)
    (h : motive [] start) : motive events final := by
  induction events using List.reverseRecOn generalizing final with
  | nil =>
      cases hrun
      exact h
  | append_singleton earlier event ih =>
      rw [run_append] at hrun
      obtain ⟨state, hstate, hlast⟩ := Option.bind_eq_some_iff.mp hrun
      rw [run_singleton] at hlast
      obtain ⟨hearlier, hevent⟩ := List.forall_mem_append.mp hallowed
      exact hstep earlier state event final (hevent event (List.mem_singleton_self _))
        (ih hstate hearlier) hstate hlast

/-- An invariant that speaks of how many of the events so far were counted. -/
theorem run_countP {motive : σ → ℕ → Prop} (counted : ε → Bool)
    (hstep : ∀ state event next count, allowed event → motive state count →
      step state event = some next → motive next (count + if counted event then 1 else 0))
    {count : ℕ} (hrun : run step state events = some final)
    (hallowed : ∀ event ∈ events, allowed event) (h : motive state count) :
    motive final (count + events.countP counted) := by
  induction events generalizing state count with
  | nil =>
      cases hrun
      exact h
  | cons event events ih =>
      rw [run_cons] at hrun
      obtain ⟨next, hnext, hrest⟩ := Option.bind_eq_some_iff.mp hrun
      obtain ⟨hevent, hevents⟩ := List.forall_mem_cons.mp hallowed
      have hfinal := ih hrest hevents (hstep state event next count hevent h hnext)
      rwa [Nat.add_assoc, Nat.add_comm (if counted event then 1 else 0),
        ← List.countP_cons] at hfinal

/-- Where there is always a way on, of at most `rounds` allowed events, that takes from a bound,
there is a way to the end. -/
theorem exists_run_of_progress {motive : σ → ℕ → Prop} {done : σ → Prop} {rounds : ℕ}
    (hprogress : ∀ state left, motive state left → done state ∨
      ∃ events next less, less < left ∧ events.length ≤ rounds ∧
        (∀ event ∈ events, allowed event) ∧ run step state events = some next ∧
        motive next less)
    {left : ℕ} (h : motive state left) :
    ∃ events final less, events.length ≤ rounds * left ∧ (∀ event ∈ events, allowed event) ∧
      run step state events = some final ∧ motive final less ∧ done final := by
  induction left using Nat.strong_induction_on generalizing state with
  | _ left ih =>
      rcases hprogress state left h with hdone | ⟨first, next, less, hless, hlength, hfirst, hrun,
        hnext⟩
      · exact ⟨[], state, left, Nat.zero_le _, by simp, rfl, h, hdone⟩
      · obtain ⟨second, final, least, hsecond, hallowed, hrest, hfinal, hdone⟩ :=
          ih less hless hnext
        refine ⟨first ++ second, final, least, ?_, ?_, ?_, hfinal, hdone⟩
        · calc
            (first ++ second).length = first.length + second.length := List.length_append
            _ ≤ rounds + rounds * less := Nat.add_le_add hlength hsecond
            _ = rounds * (less + 1) := by rw [Nat.mul_add, Nat.mul_one, Nat.add_comm]
            _ ≤ rounds * left := Nat.mul_le_mul_left _ hless
        · exact List.forall_mem_append.mpr ⟨hfirst, hallowed⟩
        · rw [run_append_of_run hrun]
          exact hrest

/-! ## Simulation -/

/-- Every allowed step of the first system is matched by steps of the second one that lead to
related states again; it may be matched by no step at all. -/
def Simulates {τ : Type w} {δ : Type x} (step : σ → ε → Option σ) (allowed : ε → Prop)
    (specStep : τ → δ → Option τ) (related : σ → τ → Prop) : Prop :=
  ∀ state spec event next, allowed event → related state spec → step state event = some next →
    ∃ matched specNext, run specStep spec matched = some specNext ∧ related next specNext

theorem Simulates.run {τ : Type w} {δ : Type x} {specStep : τ → δ → Option τ}
    {related : σ → τ → Prop} (h : Simulates step allowed specStep related) {spec : τ}
    (hrelated : related state spec) (hallowed : ∀ event ∈ events, allowed event)
    (hrun : Transition.run step state events = some final) :
    ∃ matched specFinal, Transition.run specStep spec matched = some specFinal ∧
      related final specFinal := by
  induction events generalizing state spec with
  | nil =>
      cases hrun
      exact ⟨[], spec, rfl, hrelated⟩
  | cons event events ih =>
      rw [run_cons] at hrun
      obtain ⟨next, hnext, hrest⟩ := Option.bind_eq_some_iff.mp hrun
      obtain ⟨hevent, hevents⟩ := List.forall_mem_cons.mp hallowed
      obtain ⟨first, specNext, hfirst, hbetween⟩ := h state spec event next hevent hrelated hnext
      obtain ⟨second, specFinal, hsecond, hfinal⟩ := ih hbetween hevents hrest
      refine ⟨first ++ second, specFinal, ?_, hfinal⟩
      rw [run_append_of_run hfirst]
      exact hsecond

/-! ## Executions -/

/-- An infinite execution; where there is no event, nothing happens. -/
structure Execution (step : σ → ε → Option σ) where
  state : ℕ → σ
  event : ℕ → Option ε
  steps : ∀ time, match event time with
    | some event => step (state time) event = some (state (time + 1))
    | none => state (time + 1) = state time

/-- The state has a step on one of the events. -/
def Enabled (step : σ → ε → Option σ) (mine : ε → Prop) (state : σ) : Prop :=
  ∃ event next, mine event ∧ step state event = some next

namespace Execution

/-- The states on the way of a schedule, of which the events that are not possible are skipped. -/
def followState (step : σ → ε → Option σ) (initial : σ) (schedule : ℕ → ε) : ℕ → σ
  | 0 => initial
  | time + 1 =>
      let state := followState step initial schedule time
      (step state (schedule time)).getD state

/-- The execution that follows a schedule. -/
def follow (step : σ → ε → Option σ) (initial : σ) (schedule : ℕ → ε) : Execution step where
  state := followState step initial schedule
  event time :=
    (step (followState step initial schedule time) (schedule time)).map fun _ ↦ schedule time
  steps time := by
    cases hstep : step (followState step initial schedule time) (schedule time) <;>
      simp [followState, hstep]

/-- A scheduled event that is possible happens. -/
theorem event_follow_of_step {initial : σ} {schedule : ℕ → ε} {time : ℕ} {next : σ}
    (h : step ((follow step initial schedule).state time) (schedule time) = some next) :
    (follow step initial schedule).event time = some (schedule time) := by
  change (step ((follow step initial schedule).state time) (schedule time)).map _ = _
  rw [h, Option.map_some]

theorem event_follow {initial : σ} {schedule : ℕ → ε} {time : ℕ} {event : ε}
    (h : (follow step initial schedule).event time = some event) : schedule time = event := by
  obtain ⟨next, -, rfl⟩ := Option.map_eq_some_iff.mp h
  rfl

variable (execution : Execution step)

def before (time : ℕ) : List ε := (List.range time).filterMap execution.event

/-- A party that owns some of the events is not neglected: again and again one of its events
happens or it has none that is possible. -/
def Fair (mine : ε → Prop) : Prop :=
  ∀ time, ∃ later, time ≤ later ∧
    ((∃ event, execution.event later = some event ∧ mine event) ∨
      ¬ Enabled step mine (execution.state later))

theorem before_succ (time : ℕ) :
    execution.before (time + 1) = execution.before time ++ (execution.event time).toList := by
  rw [before, List.range_succ, List.filterMap_append]
  cases hevent : execution.event time <;> simp [before, hevent]

theorem before_prefix {time later : ℕ} (h : time ≤ later) :
    execution.before time <+: execution.before later := by
  induction h with
  | refl => exact List.prefix_refl _
  | step _ ih =>
      apply ih.trans
      rw [before_succ]
      exact List.prefix_append _ _

/-- What the steps from a time on keep holds from this time on. -/
theorem always_from {motive : σ → Prop}
    (hstep : ∀ state event next, allowed event → motive state →
      step state event = some next → motive next) {time : ℕ}
    (hallowed : ∀ later event, time ≤ later → execution.event later = some event →
      allowed event) (h : motive (execution.state time)) {later : ℕ} (hle : time ≤ later) :
    motive (execution.state later) := by
  induction hle with
  | refl => exact h
  | @step later hlater ih =>
      have hnext := execution.steps later
      cases hevent : execution.event later with
      | none =>
          simp only [hevent] at hnext
          rw [hnext]
          exact ih
      | some event =>
          simp only [hevent] at hnext
          exact hstep _ event _ (hallowed later event hlater hevent) ih hnext

/-- What the allowed steps keep, with a count of some of them, holds from a time on. -/
theorem holds_from {motive : σ → ℕ → Prop} (counted : ε → Bool)
    (hstep : ∀ state event next count, allowed event → motive state count →
      step state event = some next → motive next (count + if counted event then 1 else 0))
    (hallowed : ∀ time event, execution.event time = some event → allowed event) {time : ℕ}
    (h : motive (execution.state time) ((execution.before time).countP counted)) {later : ℕ}
    (hle : time ≤ later) :
    motive (execution.state later) ((execution.before later).countP counted) := by
  induction hle with
  | refl => exact h
  | @step later _ ih =>
      have hnext := execution.steps later
      rw [before_succ, List.countP_append]
      cases hevent : execution.event later with
      | none =>
          simp only [hevent] at hnext
          rw [hnext, Option.toList_none, List.countP_nil, Nat.add_zero]
          exact ih
      | some event =>
          simp only [hevent] at hnext
          rw [Option.toList_some, List.countP_singleton]
          exact hstep _ event _ _ (hallowed later event hevent) ih hnext

/-- An event that happens later is counted later. -/
theorem countP_before_lt (counted : ε → Bool) {time later : ℕ} (hle : time ≤ later) {event : ε}
    (hevent : execution.event later = some event) (hcounted : counted event = true) :
    (execution.before time).countP counted < (execution.before (later + 1)).countP counted := by
  rw [before_succ, hevent, Option.toList_some, List.countP_append, List.countP_singleton, hcounted,
    if_pos rfl]
  exact Nat.lt_succ_of_le ((execution.before_prefix hle).sublist.countP_le)

/-- Of events that happen boundedly often none happens from some time on. -/
theorem exists_last {counted : ε → Bool} {bound : ℕ}
    (hbound : ∀ time, (execution.before time).countP counted ≤ bound) :
    ∃ time, ∀ later event, time ≤ later → execution.event later = some event →
      counted event = false := by
  by_contra hendless
  push Not at hendless
  have hmany : ∀ count, ∃ time, count ≤ (execution.before time).countP counted := by
    intro count
    induction count with
    | zero => exact ⟨0, Nat.zero_le _⟩
    | succ count ih =>
        obtain ⟨time, htime⟩ := ih
        obtain ⟨later, event, hle, hevent, hcounted⟩ := hendless time
        have hlt := execution.countP_before_lt counted hle hevent (by simpa using hcounted)
        exact ⟨later + 1, htime.trans_lt hlt⟩
  obtain ⟨time, htime⟩ := hmany (bound + 1)
  exact absurd (htime.trans (hbound time)) (Nat.not_succ_le_self bound)

variable {execution} in
/-- A party that is not neglected and can always make a step makes one. -/
theorem Fair.exists_event {mine : ε → Prop} (hfair : execution.Fair mine) {time : ℕ}
    (henabled : ∀ later, time ≤ later → Enabled step mine (execution.state later)) :
    ∃ later event, time ≤ later ∧ execution.event later = some event ∧ mine event := by
  obtain ⟨later, hle, ⟨event, hevent, hmine⟩ | hdisabled⟩ := hfair time
  · exact ⟨later, event, hle, hevent, hmine⟩
  · exact absurd (henabled later hle) hdisabled

/-- A party that makes boundedly many steps, and that can always make one in the long run as long as
it is not done, is done at some time if it is not neglected. -/
theorem eventually_done {counted : ε → Bool} (done : σ → Prop) {bound : ℕ}
    (hfair : execution.Fair fun event ↦ counted event = true)
    (hbound : ∀ time, (execution.before time).countP counted ≤ bound)
    (henabled : ∀ time,
      (∀ later event, time ≤ later → execution.event later = some event →
        counted event = false) →
      done (execution.state time) ∨ ∃ later, time ≤ later ∧ ∀ after, later ≤ after →
        Enabled step (fun event ↦ counted event = true) (execution.state after)) :
    ∃ time, done (execution.state time) := by
  obtain ⟨time, hquiet⟩ := execution.exists_last hbound
  rcases henabled time hquiet with hdone | ⟨later, hle, hafter⟩
  · exact ⟨time, hdone⟩
  · obtain ⟨last, event, hlast, hevent, hcounted⟩ := hfair.exists_event hafter
    have hfalse := hquiet last event (hle.trans hlast) hevent
    rw [hcounted] at hfalse
    cases hfalse

end Execution

end CCNxFileRepo.Foundations.Transition
