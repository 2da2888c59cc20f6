import Mathlib.Data.Nat.Basic
import Mathlib.Order.WellFounded

/-!
Contract: executable machines whose scheduler is an explicit list of actions.

Owns:
- `Machine`, a partial step function over a state and an action type;
- finite runs in which every step meets a caller-chosen condition, and what
  such a run lets an observer see;
- infinite runs, the ranking argument that bounds their useful steps, and
  maximal runs of ranked machines;
- the invariant rule for both kinds of run.

Does not own: any particular state space, action alphabet or fairness notion.
-/

namespace BitcoinPeers.Foundation

universe u v w

/-- A partial step function. `none` means that the action is not enabled. -/
structure Machine (State : Type u) (Action : Type v) where
  step : State → Action → Option State

namespace Machine

variable {State : Type u} {Action : Type v}

/-- `Run machine Allowed start actions final`: executing `actions` in order
leads from `start` to `final`, and every step meets `Allowed`. -/
inductive Run (machine : Machine State Action) (Allowed : State → Action → Prop) :
    State → List Action → State → Prop where
  | nil (state : State) : Run machine Allowed state [] state
  | cons {start middle final : State} {action : Action} {rest : List Action}
      (allowed : Allowed start action)
      (first : machine.step start action = some middle)
      (later : Run machine Allowed middle rest final) :
      Run machine Allowed start (action :: rest) final

/-- The condition that every action of every state meets. -/
def Always (_ : State) (_ : Action) : Prop := True

/-- Execute a schedule, stopping at a step that is not enabled or that `check`
refuses. -/
def execute (machine : Machine State Action) (check : State → Action → Bool) :
    State → List Action → Option State
  | state, [] => some state
  | state, action :: rest =>
      if check state action then
        match machine.step state action with
        | some next => execute machine check next rest
        | none => none
      else none

/-- The number of counted steps of a schedule. -/
def tally (machine : Machine State Action) (counted : State → Action → Bool) :
    State → List Action → Nat
  | _, [] => 0
  | state, action :: rest =>
      (if counted state action then 1 else 0) +
        match machine.step state action with
        | some next => tally machine counted next rest
        | none => 0

/-- What a schedule lets an observer see, step by step. -/
def trace {Observation : Type w} (machine : Machine State Action)
    (observe : State → Action → List Observation) : State → List Action → List Observation
  | _, [] => []
  | state, action :: rest =>
      observe state action ++
        match machine.step state action with
        | some next => trace machine observe next rest
        | none => []

variable {machine : Machine State Action} {Allowed Stronger : State → Action → Prop}

/-- A schedule accepted by `execute` is a run of the checked condition. -/
theorem run_of_execute {check : State → Action → Bool}
    (sound : ∀ state action, check state action = true → Allowed state action)
    {start final : State} {actions : List Action}
    (executed : machine.execute check start actions = some final) :
    machine.Run Allowed start actions final := by
  induction actions generalizing start with
  | nil =>
      simp only [execute, Option.some.injEq] at executed
      subst executed
      exact .nil start
  | cons action rest inductionHypothesis =>
      rw [execute] at executed
      split at executed
      next checked =>
        split at executed
        next next stepped =>
          exact .cons (sound start action checked) stepped (inductionHypothesis executed)
        next => contradiction
      next => contradiction

/-- A schedule whose final state passes a test is a run to such a state. -/
theorem exists_run_of_execute (check : State → Action → Bool) (test : State → Bool)
    (sound : ∀ state action, check state action = true → Allowed state action)
    {start : State} {actions : List Action}
    (passed : (machine.execute check start actions).any test = true) :
    ∃ final, machine.Run Allowed start actions final ∧ test final = true := by
  cases executed : machine.execute check start actions with
  | none => simp [executed] at passed
  | some final =>
      rw [executed] at passed
      exact ⟨final, run_of_execute sound executed, passed⟩

namespace Run

theorem append {start middle final : State} {first second : List Action}
    (left : machine.Run Allowed start first middle)
    (right : machine.Run Allowed middle second final) :
    machine.Run Allowed start (first ++ second) final := by
  induction left with
  | nil => exact right
  | cons allowed stepped _ inductionHypothesis =>
      exact .cons allowed stepped (inductionHypothesis right)

theorem mono (weaken : ∀ state action, Stronger state action → Allowed state action)
    {start final : State} {actions : List Action}
    (run : machine.Run Stronger start actions final) :
    machine.Run Allowed start actions final := by
  induction run with
  | nil => exact .nil _
  | cons allowed stepped _ inductionHypothesis =>
      exact .cons (weaken _ _ allowed) stepped inductionHypothesis

/-- What one step preserves, a whole run preserves. -/
theorem invariant (Holds : State → Prop)
    (preserved : ∀ {state next : State} {action : Action}, Allowed state action →
      machine.step state action = some next → Holds state → Holds next)
    {start final : State} {actions : List Action}
    (run : machine.Run Allowed start actions final) (initially : Holds start) :
    Holds final := by
  induction run with
  | nil => exact initially
  | cons allowed stepped _ inductionHypothesis =>
      exact inductionHypothesis (preserved allowed stepped initially)

/-- A relation between what was observed and the state that every step keeps. -/
theorem traced {Observation : Type w} (observe : State → Action → List Observation)
    (Holds : List Observation → State → Prop)
    (preserved : ∀ {seen : List Observation} {state next : State} {action : Action},
      Allowed state action → machine.step state action = some next → Holds seen state →
      Holds (seen ++ observe state action) next)
    {start final : State} {actions : List Action}
    (run : machine.Run Allowed start actions final) {seen : List Observation}
    (initially : Holds seen start) : Holds (seen ++ machine.trace observe start actions) final := by
  induction run generalizing seen with
  | nil =>
      rw [trace, List.append_nil]
      exact initially
  | cons allowed stepped _ inductionHypothesis =>
      have later := inductionHypothesis (preserved allowed stepped initially)
      rw [List.append_assoc] at later
      simp only [trace, stepped]
      exact later

/-- A potential that pays for every counted step bounds their number. -/
theorem tally_add_le {Holds : State → Prop} (counted : State → Action → Bool)
    (potential : State → Nat)
    (preserved : ∀ {state next : State} {action : Action}, Allowed state action →
      machine.step state action = some next → Holds state → Holds next)
    (paid : ∀ {state next : State} {action : Action}, Allowed state action → Holds state →
      machine.step state action = some next →
      (if counted state action then 1 else 0) + potential next ≤ potential state)
    {start final : State} {actions : List Action}
    (run : machine.Run Allowed start actions final) (initially : Holds start) :
    machine.tally counted start actions + potential final ≤ potential start := by
  induction run with
  | nil => simp [tally]
  | cons allowed stepped _ inductionHypothesis =>
      have later := inductionHypothesis (preserved allowed stepped initially)
      have here := paid allowed initially stepped
      simp only [tally, stepped]
      omega

/-- When every step adds at least one more to an account than to a load, the
account bounds the number of steps. -/
theorem length_add_le (Holds : State → Prop) (load account : State → Nat)
    (preserved : ∀ {state next : State} {action : Action}, Allowed state action →
      machine.step state action = some next → Holds state → Holds next)
    (covered : ∀ {state next : State} {action : Action}, Allowed state action → Holds state →
      machine.step state action = some next →
      1 + load next + account state ≤ load state + account next)
    {start final : State} {actions : List Action}
    (run : machine.Run Allowed start actions final) (initially : Holds start) :
    actions.length + load final + account start ≤ load start + account final := by
  induction run with
  | nil => simp
  | cons allowed stepped _ inductionHypothesis =>
      have later := inductionHypothesis (preserved allowed stepped initially)
      have here := covered allowed initially stepped
      simp only [List.length_cons]
      omega

/-- A run either meets a further condition at every step or has a step that
breaks it. -/
theorem meets_or_breaks (Extra : State → Action → Prop) {start final : State}
    {actions : List Action} (run : machine.Run Allowed start actions final) :
    machine.Run (fun state action => Allowed state action ∧ Extra state action)
        start actions final ∨
      ∃ before action after state next,
        actions = before ++ action :: after ∧
        machine.Run Allowed start before state ∧
        Allowed state action ∧ ¬ Extra state action ∧
        machine.step state action = some next ∧
        machine.Run Allowed next after final := by
  induction run with
  | nil => exact .inl (.nil _)
  | @cons start middle final action rest allowed stepped later inductionHypothesis =>
      by_cases extra : Extra start action
      · rcases inductionHypothesis with
          meets | ⟨before, broken, after, state, next, split, reach, ok, breaks, move, tail⟩
        · exact .inl (.cons ⟨allowed, extra⟩ stepped meets)
        · refine .inr ⟨action :: before, broken, after, state, next, ?_,
            .cons allowed stepped reach, ok, breaks, move, tail⟩
          rw [split, List.cons_append]
      · exact .inr ⟨[], action, rest, start, middle, rfl, .nil start, allowed, extra,
          stepped, later⟩

/-- A property that does not hold at the start but at the end is established by
one step of the run. -/
theorem exists_establishing (Holds : State → Prop) {start final : State}
    {actions : List Action} (run : machine.Run Allowed start actions final)
    (initially : ¬ Holds start) (eventually : Holds final) :
    ∃ before action after state next,
      actions = before ++ action :: after ∧
      machine.Run Allowed start before state ∧ ¬ Holds state ∧
      machine.Run Allowed state (action :: after) final ∧
      machine.step state action = some next ∧ Holds next := by
  induction run with
  | nil => exact absurd eventually initially
  | @cons start middle final action rest allowed stepped later inductionHypothesis =>
      by_cases established : Holds middle
      · exact ⟨[], action, rest, start, middle, rfl, .nil start, initially,
          .cons allowed stepped later, stepped, established⟩
      · obtain ⟨before, decisive, after, state, next, split, reach, missing, tail, move, holds⟩ :=
          inductionHypothesis established eventually
        refine ⟨action :: before, decisive, after, state, next, ?_,
          .cons allowed stepped reach, missing, tail, move, holds⟩
        rw [split, List.cons_append]

/-- A rank that every step lowers leads each start to a state where no allowed
step is enabled. -/
theorem exists_maximal {Holds : State → Prop} (rank : State → Nat)
    (preserved : ∀ {state next : State} {action : Action}, Allowed state action →
      machine.step state action = some next → Holds state → Holds next)
    (lowered : ∀ {state next : State} {action : Action}, Allowed state action → Holds state →
      machine.step state action = some next → rank next < rank state)
    {start : State} (initially : Holds start) :
    ∃ actions final, machine.Run Allowed start actions final ∧
      ∀ action, Allowed final action → machine.step final action = none := by
  induction measured : rank start using Nat.strong_induction_on generalizing start with
  | _ bound inductionHypothesis =>
      by_cases stuck : ∀ action, Allowed start action → machine.step start action = none
      · exact ⟨[], start, .nil start, stuck⟩
      · push Not at stuck
        obtain ⟨action, allowed, enabled⟩ := stuck
        obtain ⟨next, stepped⟩ := Option.ne_none_iff_exists'.mp enabled
        have lower := lowered allowed initially stepped
        obtain ⟨actions, final, run, ended⟩ := inductionHypothesis (rank next) (by omega)
          (preserved allowed stepped initially) rfl
        exact ⟨action :: actions, final, .cons allowed stepped run, ended⟩

end Run

/-- An infinite run: one enabled, allowed step after another. -/
structure InfiniteRun (machine : Machine State Action) (Allowed : State → Action → Prop) where
  state : Nat → State
  action : Nat → Action
  allowed : ∀ index, Allowed (state index) (action index)
  stepped : ∀ index, machine.step (state index) (action index) = some (state (index + 1))

namespace InfiniteRun

theorem invariant (Holds : State → Prop) (run : machine.InfiniteRun Allowed)
    (preserved : ∀ {state next : State} {action : Action}, Allowed state action →
      machine.step state action = some next → Holds state → Holds next)
    (initially : Holds (run.state 0)) (index : Nat) : Holds (run.state index) := by
  induction index with
  | zero => exact initially
  | succ index inductionHypothesis =>
      exact preserved (run.allowed index) (run.stepped index) inductionHypothesis

/-- A rank that no step raises and that every counted step lowers leaves only
finitely many counted steps in any infinite run. -/
theorem eventually_not_counted {Holds : State → Prop} (Counted : State → Action → Prop)
    (rank : State → Nat) (run : machine.InfiniteRun Allowed)
    (holds : ∀ index, Holds (run.state index))
    (lowered : ∀ {state next : State} {action : Action}, Allowed state action → Holds state →
      machine.step state action = some next → Counted state action → rank next < rank state)
    (kept : ∀ {state next : State} {action : Action}, Allowed state action → Holds state →
      machine.step state action = some next → rank next ≤ rank state) :
    ∃ bound, ∀ index, bound ≤ index → ¬ Counted (run.state index) (run.action index) := by
  have antitone : ∀ start extra, rank (run.state (start + extra)) ≤ rank (run.state start) := by
    intro start extra
    induction extra with
    | zero => exact le_rfl
    | succ extra inductionHypothesis =>
        exact (kept (run.allowed _) (holds _) (run.stepped _)).trans inductionHypothesis
  have minimal : ∃ bound, ∀ index, rank (run.state bound) ≤ rank (run.state index) := by
    obtain ⟨least, ⟨bound, attained⟩, minimum⟩ :=
      WellFounded.has_min Nat.lt_wfRel.wf (Set.range fun index => rank (run.state index))
        ⟨_, 0, rfl⟩
    refine ⟨bound, fun index => ?_⟩
    rw [show rank (run.state bound) = least from attained]
    exact Nat.le_of_not_lt (minimum _ ⟨index, rfl⟩)
  obtain ⟨bound, least⟩ := minimal
  refine ⟨bound, fun index after counted => ?_⟩
  obtain ⟨extra, rfl⟩ := Nat.exists_eq_add_of_le after
  have drop := lowered (run.allowed _) (holds _) (run.stepped _) counted
  have floor := least (bound + extra + 1)
  have ceiling := antitone bound extra
  omega

end InfiniteRun

end Machine

end BitcoinPeers.Foundation
