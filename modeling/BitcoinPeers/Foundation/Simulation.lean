import Mathlib.Data.List.Forall2
import BitcoinPeers.Foundation.Machine

/-!
Contract: relating the reachable states of two machines.

Owns:
- reachability under any schedule;
- forward simulation, in which one step may be matched by several or none;
- queues of which one carries extra entries that change nothing;
- lists of components that are related one by one.

Does not own: the relation between two particular state spaces.
-/

namespace BitcoinPeers.Foundation

universe u v w x

/-! ## Reachable states -/

namespace Machine

variable {State : Type u} {Action : Type v} {machine : Machine State Action}

/-- Some schedule leads from `start` to `state`. -/
def Reaches (machine : Machine State Action) (start state : State) : Prop :=
  ∃ actions, machine.Run Always start actions state

theorem Reaches.refl (state : State) : machine.Reaches state state := ⟨[], .nil state⟩

theorem Reaches.trans {start middle final : State} (first : machine.Reaches start middle)
    (second : machine.Reaches middle final) : machine.Reaches start final := by
  obtain ⟨before, run⟩ := first
  obtain ⟨after, later⟩ := second
  exact ⟨before ++ after, run.append later⟩

theorem Reaches.of_step {state next : State} {action : Action}
    (stepped : machine.step state action = some next) : machine.Reaches state next :=
  ⟨[action], .cons trivial stepped (.nil next)⟩

theorem Reaches.step {start state next : State} {action : Action}
    (reached : machine.Reaches start state)
    (stepped : machine.step state action = some next) : machine.Reaches start next :=
  reached.trans (.of_step stepped)

section Forward

variable {Across : Type w} {Move : Type x} {across : Machine Across Move}
  {Allowed : State → Action → Prop} {Related : State → Across → Prop}

/-- Every allowed step from related states is matched by steps of the other
machine. -/
def Simulates (machine : Machine State Action) (Allowed : State → Action → Prop)
    (across : Machine Across Move) (Related : State → Across → Prop) : Prop :=
  ∀ state action next opposite, Allowed state action → machine.step state action = some next →
    Related state opposite → ∃ beyond, across.Reaches opposite beyond ∧ Related next beyond

/-- What every step is matched by, a whole run is. -/
theorem Run.simulated (simulates : machine.Simulates Allowed across Related)
    {start final : State} {actions : List Action} {opposite : Across}
    (run : machine.Run Allowed start actions final) (related : Related start opposite) :
    ∃ beyond, across.Reaches opposite beyond ∧ Related final beyond := by
  induction run generalizing opposite with
  | nil => exact ⟨opposite, .refl opposite, related⟩
  | cons allowed stepped _ inductionHypothesis =>
      obtain ⟨middle, first, here⟩ := simulates _ _ _ _ allowed stepped related
      obtain ⟨beyond, second, there⟩ := inductionHypothesis here
      exact ⟨beyond, first.trans second, there⟩

end Forward

end Machine

/-! ## Padded queues -/

section Padded

variable {Entry : Type u} {Same Coarser : Entry → Entry → Prop} {Idle Wider : Entry → Prop}

/-- The right queue has the entries of the left one, up to `Same`, and idle
entries between them. -/
inductive Padded (Same : Entry → Entry → Prop) (Idle : Entry → Prop) :
    List Entry → List Entry → Prop where
  | nil : Padded Same Idle [] []
  | pair {left right : Entry} {lefts rights : List Entry} (same : Same left right)
      (rest : Padded Same Idle lefts rights) :
      Padded Same Idle (left :: lefts) (right :: rights)
  | pad {right : Entry} {lefts rights : List Entry} (idle : Idle right)
      (rest : Padded Same Idle lefts rights) : Padded Same Idle lefts (right :: rights)

variable {lefts rights : List Entry}

theorem Padded.mono (pairs : ∀ left right, Same left right → Coarser left right)
    (pads : ∀ entry, Idle entry → Wider entry) (padded : Padded Same Idle lefts rights) :
    Padded Coarser Wider lefts rights := by
  induction padded with
  | nil => exact .nil
  | pair same _ inductionHypothesis => exact .pair (pairs _ _ same) inductionHypothesis
  | pad idle _ inductionHypothesis => exact .pad (pads _ idle) inductionHypothesis

theorem Padded.concat {left right : Entry} (padded : Padded Same Idle lefts rights)
    (same : Same left right) : Padded Same Idle (lefts ++ [left]) (rights ++ [right]) := by
  induction padded with
  | nil => exact .pair same .nil
  | pair first _ inductionHypothesis => exact .pair first inductionHypothesis
  | pad idle _ inductionHypothesis => exact .pad idle inductionHypothesis

theorem Padded.concat_idle {right : Entry} (padded : Padded Same Idle lefts rights)
    (idle : Idle right) : Padded Same Idle lefts (rights ++ [right]) := by
  induction padded with
  | nil => exact .pad idle .nil
  | pair first _ inductionHypothesis => exact .pair first inductionHypothesis
  | pad first _ inductionHypothesis => exact .pad first inductionHypothesis

theorem Padded.left_nil (padded : Padded Same Idle lefts []) : lefts = [] := by
  cases padded
  rfl

/-- Padded queues whose first entries, if any, are the same. -/
inductive Aligned (Same : Entry → Entry → Prop) (Idle : Entry → Prop) :
    List Entry → List Entry → Prop where
  | nil : Aligned Same Idle [] []
  | pair {left right : Entry} {lefts rights : List Entry} (same : Same left right)
      (rest : Padded Same Idle lefts rights) :
      Aligned Same Idle (left :: lefts) (right :: rights)

theorem Aligned.concat {left right : Entry} (aligned : Aligned Same Idle lefts rights)
    (same : Same left right) : Aligned Same Idle (lefts ++ [left]) (rights ++ [right]) := by
  cases aligned with
  | nil => exact .pair same .nil
  | pair first rest => exact .pair first (rest.concat same)

theorem Aligned.padded (aligned : Aligned Same Idle lefts rights) :
    Padded Same Idle lefts rights := by
  cases aligned with
  | nil => exact .nil
  | pair same rest => exact .pair same rest

/-- Without its leading idle entries the right queue is aligned. -/
theorem Padded.exists_aligned (padded : Padded Same Idle lefts rights) :
    ∃ pads rest, rights = pads ++ rest ∧ (∀ entry ∈ pads, Idle entry) ∧
      Aligned Same Idle lefts rest := by
  induction padded with
  | nil => exact ⟨[], [], rfl, nofun, .nil⟩
  | pair same rest => exact ⟨[], _, rfl, nofun, .pair same rest⟩
  | @pad right lefts rights idle _ inductionHypothesis =>
      obtain ⟨pads, rest, split, idles, aligned⟩ := inductionHypothesis
      refine ⟨right :: pads, rest, by rw [split, List.cons_append], ?_, aligned⟩
      intro entry member
      rcases List.mem_cons.mp member with rfl | later
      · exact idle
      · exact idles entry later

end Padded

/-! ## Lists related entry by entry -/

section Pairwise

variable {Left : Type u} {Right : Type v} {Related : Left → Right → Prop}
  {lefts : List Left} {rights : List Right}

/-- The entry across from an entry. -/
theorem forall₂_getElem? (related : List.Forall₂ Related lefts rights) {index : Nat}
    {left : Left} (found : lefts[index]? = some left) :
    ∃ right, rights[index]? = some right ∧ Related left right := by
  induction related generalizing index with
  | nil => simp at found
  | cons here _ inductionHypothesis =>
      cases index with
      | zero =>
          simp only [List.getElem?_cons_zero, Option.some.injEq] at found
          subst found
          exact ⟨_, rfl, here⟩
      | succ index => exact inductionHypothesis (by simpa using found)

/-- Replacing two entries across from each other. -/
theorem forall₂_set (related : List.Forall₂ Related lefts rights) (index : Nat)
    {left : Left} {right : Right} (here : Related left right) :
    List.Forall₂ Related (lefts.set index left) (rights.set index right) := by
  induction related generalizing index with
  | nil => exact .nil
  | cons first rest inductionHypothesis =>
      cases index with
      | zero => exact .cons here rest
      | succ index => exact .cons first (inductionHypothesis index)

/-- Where more entries are counted on the right, some counted entry is across
from one that is not. -/
theorem forall₂_countP_lt {counted : Left → Bool} {matching : Right → Bool}
    (related : List.Forall₂ Related lefts rights)
    (fewer : lefts.countP counted < rights.countP matching) :
    ∃ (index : Nat) (left : Left) (right : Right), lefts[index]? = some left ∧
      rights[index]? = some right ∧ Related left right ∧ counted left = false ∧
      matching right = true := by
  induction related with
  | nil => simp at fewer
  | @cons left right lefts rights here _ inductionHypothesis =>
      by_cases only : counted left = false ∧ matching right = true
      · exact ⟨0, left, right, rfl, rfl, here, only.1, only.2⟩
      · have later : lefts.countP counted < rights.countP matching := by
          have here : (if matching right then 1 else 0) ≤ (if counted left then 1 else 0) := by
            cases first : counted left <;> cases second : matching right <;> simp_all
          simp only [List.countP_cons] at fewer
          omega
        obtain ⟨index, other, across, found, opposite, both⟩ := inductionHypothesis later
        exact ⟨index + 1, other, across, by simpa using found, by simpa using opposite, both⟩

end Pairwise

end BitcoinPeers.Foundation
