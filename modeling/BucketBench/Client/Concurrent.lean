import BucketBench.Client.Outcome
import BucketBench.Text.Quoted

set_option autoImplicit false

/-!
# Clients that work side by side

All clients start together. A client that finishes adds its outcome to a shared list and is then done; one
that breaks off adds nothing. The clients are joined in the order in which they were added, and joining one
that broke off adds a failure for it. What happens is a list of events, and `run?` says what list of outcomes they
lead to, or that they cannot happen in this order.
-/

namespace BucketBench.Concurrent

structure Client where
  label : String
  kind : ClientKind
deriving DecidableEq

/-- How a client ends: with a result, or broken off for a reason. -/
inductive Ending where
  | finished (success : Bool) (detail : String)
  | aborted (reason : String)
deriving DecidableEq

inductive Progress where
  | working
  | reported
  | done
  | aborted (reason : String)
deriving DecidableEq

/-- What can happen, to the client with a number or to the join that comes next. -/
inductive Event where
  | report (client : Nat) (success : Bool) (detail : String)
  | resolve (client : Nat)
  | abort (client : Nat) (reason : String)
  | join
deriving DecidableEq

/-- The clients under way, the outcomes so far, and how many clients were joined. -/
structure Run where
  progress : List Progress
  outcomes : List Outcome
  joined : Nat

namespace Run

def start (clients : List Client) : Run := ⟨clients.map fun _ => .working, [], 0⟩

def abortedOutcome (c : Client) (reason : String) : Outcome := ⟨c.label, c.kind, false, s!"task aborted: {reason}"⟩

/-- What an event changes; none when it cannot happen now. -/
def step (clients : List Client) (r : Run) : Event → Option Run
  | .report i success detail =>
    match clients[i]?, r.progress[i]? with
    | some c, some .working =>
      some { r with
        progress := r.progress.set i .reported
        outcomes := r.outcomes ++ [⟨c.label, c.kind, success, detail⟩] }
    | _, _ => none
  | .resolve i =>
    match r.progress[i]? with
    | some .reported => some { r with progress := r.progress.set i .done }
    | _ => none
  | .abort i reason =>
    match r.progress[i]? with
    | some .working => some { r with progress := r.progress.set i (.aborted reason) }
    | _ => none
  | .join =>
    match clients[r.joined]?, r.progress[r.joined]? with
    | some _, some .done => some { r with joined := r.joined + 1 }
    | some c, some (.aborted reason) =>
      some { r with joined := r.joined + 1, outcomes := r.outcomes ++ [abortedOutcome c reason] }
    | _, _ => none

def isOver (clients : List Client) (r : Run) : Bool := r.joined == clients.length

end Run

def run? (clients : List Client) (events : List Event) : Option (List Outcome) := do
  let r ← events.foldlM (Run.step clients) (Run.start clients)
  if r.isOver clients then some r.outcomes else none

/-! ## Clients whose times are known -/

def endingEvents (i : Nat) : Ending → List Event
  | .finished success detail => [.report i success detail, .resolve i]
  | .aborted reason => [.abort i reason]

def joinsAfter (ended : List Nat) : Nat → Nat → List Event
  | 0, _ => []
  | fuel + 1, joined => if joined ∈ ended then .join :: joinsAfter ended fuel (joined + 1) else []

/-- The events when clients end one after the other, in groups that end at the same time. After each group as
many clients are joined as can be. -/
def eventsOf (count : Nat) : List (List (Nat × Ending)) → (ended : List Nat) → (joined : Nat) → List Event
  | [], _, _ => []
  | group :: rest, ended, joined =>
    let ended := ended ++ group.map (·.1)
    let joins := joinsAfter ended count joined
    group.flatMap (fun (i, e) => endingEvents i e) ++ joins ++ eventsOf count rest ended (joined + joins.length)

/-- The clients that end at each time, earlier times first and in the order of adding within one. -/
def groupsByTime (endings : List (Nat × Ending)) : List (List (Nat × Ending)) :=
  let numbered := endings.mapIdx fun i e => (e.1, i, e.2)
  let times := (numbered.map (·.1)).eraseDups.mergeSort
  times.map fun t => (numbered.filter (·.1 == t)).map (·.2)

def timedEvents (endings : List (Nat × Ending)) : List Event :=
  eventsOf endings.length (groupsByTime endings) [] 0

def panicReason (task text : String) : String := s!"task {task} panicked with message {Text.quoted text}"

def description (clients : List Client) : String :=
  let labels := String.intercalate ", " (clients.map fun c => Text.quoted c.label)
  "ConcurrentClients \x7b clients: [" ++ labels ++ "] \x7d"

end BucketBench.Concurrent
