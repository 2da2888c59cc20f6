import Mathlib.Init

/-!
Contract: computations over a store that suspend at requests.

Owns:
- `Process`, the tree of what a computation does for every answer it may get;
- `Computation`, the failing stateful computations built from processes, with
  the monad operations;
- serving requests by a policy, store properties that hold at every suspension,
  and computations that pass a failing answer on at once.

Does not own: what a request means, or which answers the environment gives.
-/

namespace BitcoinPeers.Foundation

/-- A computation that is done, or that waits for the answer to a request. The
store is visible at every suspension. -/
inductive Process (Store Request : Type) (Answer : Request → Type) (Result : Type) where
  | done (store : Store) (result : Result)
  | ask (store : Store) (request : Request)
      (resume : Answer request → Process Store Request Answer Result)

namespace Process

variable {Store Request Result Final : Type} {Answer : Request → Type}

def bind (process : Process Store Request Answer Result)
    (next : Store → Result → Process Store Request Answer Final) :
    Process Store Request Answer Final :=
  match process with
  | .done store result => next store result
  | .ask store request resume => .ask store request fun answer => (resume answer).bind next

/-! ## Serving requests -/

/-- Answer requests while the policy has an answer. Returns the answered
requests and the process that is left. -/
def serve (policy : (request : Request) → Option (Answer request)) :
    Process Store Request Answer Result → List Request × Process Store Request Answer Result
  | .done store result => ([], .done store result)
  | .ask store request resume =>
      match policy request with
      | none => ([], .ask store request resume)
      | some answer =>
          let served := (resume answer).serve policy
          (request :: served.1, served.2)

variable {policy : (request : Request) → Option (Answer request)}

@[simp] theorem serve_done (store : Store) (result : Result) :
    (done store result : Process Store Request Answer Result).serve policy =
      ([], .done store result) := rfl

theorem serve_ask_some {store : Store} {request : Request}
    {resume : Answer request → Process Store Request Answer Result} {answer : Answer request}
    (answered : policy request = some answer) :
    (Process.ask store request resume).serve policy =
      (request :: ((resume answer).serve policy).1, ((resume answer).serve policy).2) := by
  simp [serve, answered]

theorem serve_ask_none {store : Store} {request : Request}
    {resume : Answer request → Process Store Request Answer Result}
    (unanswered : policy request = none) :
    (Process.ask store request resume).serve policy =
      ([], .ask store request resume) := by
  simp [serve, unanswered]

/-- A first part that is served to its end hands over to the second. -/
theorem serve_bind {process : Process Store Request Answer Result}
    {next : Store → Result → Process Store Request Answer Final} {requests : List Request}
    {store : Store} {result : Result}
    (ended : process.serve policy = (requests, .done store result)) :
    (process.bind next).serve policy =
      (requests ++ ((next store result).serve policy).1,
        ((next store result).serve policy).2) := by
  induction process generalizing requests with
  | done here value =>
      cases ended
      rfl
  | ask here request resume inductionHypothesis =>
      cases answered : policy request with
      | none =>
          rw [serve_ask_none answered] at ended
          cases ended
      | some answer =>
          rw [serve_ask_some answered] at ended
          simp only [Prod.mk.injEq] at ended
          obtain ⟨rfl, rest⟩ := ended
          have later := inductionHypothesis answer (Prod.ext rfl rest)
          rw [bind, serve_ask_some answered, later]
          rfl

/-! ## Store properties -/

/-- Every store the process can show satisfies the property. -/
def Throughout (Holds : Store → Prop) : Process Store Request Answer Result → Prop
  | .done store _ => Holds store
  | .ask store _ resume => Holds store ∧ ∀ answer, (resume answer).Throughout Holds

theorem throughout_bind {Holds : Store → Prop} {process : Process Store Request Answer Result}
    {next : Store → Result → Process Store Request Answer Final}
    (first : process.Throughout Holds)
    (second : ∀ store result, Holds store → (next store result).Throughout Holds) :
    (process.bind next).Throughout Holds := by
  induction process with
  | done store result => exact second store result first
  | ask store request resume inductionHypothesis =>
      exact ⟨first.1, fun answer => inductionHypothesis answer (first.2 answer)⟩

/-! ## Failing answers -/

/-- Wherever the process waits, a failing answer ends it with the failure it
stands for, and leaves the store. -/
def Raises {Cause Failure : Type} (failing : (request : Request) → Cause → Answer request)
    (raised : Cause → Failure) : Process Store Request Answer (Except Failure Result) → Prop
  | .done _ _ => True
  | .ask store request resume =>
      (∀ cause, resume (failing request cause) = .done store (.error (raised cause))) ∧
        ∀ answer, (resume answer).Raises failing raised

/-- A second part that stops at a failure of the first passes failing answers
on as the first does. -/
theorem raises_bind {Cause Failure : Type}
    {failing : (request : Request) → Cause → Answer request} {raised : Cause → Failure}
    {process : Process Store Request Answer (Except Failure Result)}
    {next : Store → Except Failure Result → Process Store Request Answer (Except Failure Final)}
    (stops : ∀ store failure, next store (.error failure) = .done store (.error failure))
    (first : process.Raises failing raised)
    (second : ∀ store result, (next store (.ok result)).Raises failing raised) :
    (process.bind next).Raises failing raised := by
  induction process with
  | done store outcome =>
      cases outcome with
      | ok result => exact second store result
      | error failure =>
          rw [bind, stops]
          trivial
  | ask store request resume inductionHypothesis =>
      refine ⟨fun cause => ?_, fun answer => inductionHypothesis answer (first.2 answer)⟩
      show (resume (failing request cause)).bind next = _
      rw [first.1 cause]
      exact stops store (raised cause)

end Process

/-- A computation that reads and changes a store, performs requests and may
fail. -/
def Computation (Store Request : Type) (Answer : Request → Type) (Failure Result : Type) : Type :=
  Store → Process Store Request Answer (Except Failure Result)

namespace Computation

variable {Store Request Failure Result Final : Type} {Answer : Request → Type}

instance : Monad (Computation Store Request Answer Failure) where
  pure result := fun store => .done store (.ok result)
  bind first next := fun store => (first store).bind fun store outcome =>
    match outcome with
    | .ok result => next result store
    | .error failure => .done store (.error failure)

/-- The current store. -/
def get : Computation Store Request Answer Failure Store :=
  fun store => .done store (.ok store)

/-- Change the store. -/
def modify (change : Store → Store) : Computation Store Request Answer Failure Unit :=
  fun store => .done (change store) (.ok ())

def fail (failure : Failure) : Computation Store Request Answer Failure Result :=
  fun store => .done store (.error failure)

/-- Perform one request and return its answer. -/
def perform (request : Request) : Computation Store Request Answer Failure (Answer request) :=
  fun store => .ask store request fun answer => .done store (.ok answer)

/-- The computation keeps a property of the store at every point. -/
def Keeps (Holds : Store → Prop) (computation : Computation Store Request Answer Failure Result) :
    Prop :=
  ∀ store, Holds store → (computation store).Throughout Holds

section Keeps

variable {Holds : Store → Prop}

theorem keeps_pure (result : Result) :
    (pure result : Computation Store Request Answer Failure Result).Keeps Holds :=
  fun _ holds => holds

theorem keeps_fail (failure : Failure) :
    (fail failure : Computation Store Request Answer Failure Result).Keeps Holds :=
  fun _ holds => holds

theorem keeps_get : (get : Computation Store Request Answer Failure Store).Keeps Holds :=
  fun _ holds => holds

theorem keeps_modify {change : Store → Store} (kept : ∀ store, Holds store → Holds (change store)) :
    (modify change : Computation Store Request Answer Failure Unit).Keeps Holds :=
  fun store holds => kept store holds

theorem keeps_perform (request : Request) :
    (perform request : Computation Store Request Answer Failure (Answer request)).Keeps Holds :=
  fun _ holds => ⟨holds, fun _ => holds⟩

theorem keeps_bind {first : Computation Store Request Answer Failure Result}
    {next : Result → Computation Store Request Answer Failure Final}
    (before : first.Keeps Holds) (after : ∀ result, (next result).Keeps Holds) :
    (first >>= next).Keeps Holds := by
  intro store holds
  apply Process.throughout_bind (before store holds)
  intro later outcome kept
  cases outcome with
  | ok result => exact after result later kept
  | error failure => exact kept

end Keeps

/-! ## Failing computations -/

/-- The computation passes every failing answer on. -/
def Raises {Cause : Type} (failing : (request : Request) → Cause → Answer request)
    (raised : Cause → Failure) (computation : Computation Store Request Answer Failure Result) :
    Prop :=
  ∀ store, (computation store).Raises failing raised

section Raises

variable {Cause : Type} {failing : (request : Request) → Cause → Answer request}
  {raised : Cause → Failure}

theorem raises_pure (result : Result) :
    (pure result : Computation Store Request Answer Failure Result).Raises failing raised :=
  fun _ => trivial

theorem raises_fail (failure : Failure) :
    (fail failure : Computation Store Request Answer Failure Result).Raises failing raised :=
  fun _ => trivial

theorem raises_get :
    (get : Computation Store Request Answer Failure Store).Raises failing raised :=
  fun _ => trivial

theorem raises_modify (change : Store → Store) :
    (modify change : Computation Store Request Answer Failure Unit).Raises failing raised :=
  fun _ => trivial

theorem raises_bind {first : Computation Store Request Answer Failure Result}
    {next : Result → Computation Store Request Answer Failure Final}
    (before : first.Raises failing raised) (after : ∀ result, (next result).Raises failing raised) :
    (first >>= next).Raises failing raised := by
  intro store
  exact Process.raises_bind (fun _ _ => rfl) (before store) fun middle result => after result middle

end Raises

/-! ## Served computations -/

variable {policy : (request : Request) → Option (Answer request)}

/-- Under the policy the computation performs exactly `requests` and ends with
the given store and result. -/
def Serves (policy : (request : Request) → Option (Answer request))
    (computation : Computation Store Request Answer Failure Result) (start : Store)
    (requests : List Request) (final : Store) (result : Result) : Prop :=
  (computation start).serve policy = (requests, .done final (.ok result))

theorem serves_pure (store : Store) (result : Result) :
    Serves policy (pure result : Computation Store Request Answer Failure Result) store []
      store result := rfl

theorem serves_bind {first : Computation Store Request Answer Failure Result}
    {next : Result → Computation Store Request Answer Failure Final}
    {start middle final : Store} {result : Result} {value : Final} {before after : List Request}
    (left : Serves policy first start before middle result)
    (right : Serves policy (next result) middle after final value) :
    Serves policy (first >>= next) start (before ++ after) final value := by
  unfold Serves at *
  change ((first start).bind _).serve policy = _
  rw [Process.serve_bind left]
  change (before ++ ((next result middle).serve policy).1,
    ((next result middle).serve policy).2) = _
  rw [right]

end Computation

end BitcoinPeers.Foundation
