import BucketBench.Error

set_option autoImplicit false

/-! # Outcomes of clients that worked side by side -/

namespace BucketBench

inductive ClientKind where
  | sdk
  | cli
deriving DecidableEq

def ClientKind.name : ClientKind → String
  | .sdk => "sdk"
  | .cli => "cli"

structure Outcome where
  client : String
  kind : ClientKind
  success : Bool
  detail : String
deriving DecidableEq

def Outcome.text (o : Outcome) : String :=
  let status := if o.success then "ok" else "failed"
  s!"{o.client} ({o.kind.name}): {status}: {o.detail}"

inductive Expectation where
  | allSucceed
  | anySucceed
deriving DecidableEq

namespace Expectation

def name : Expectation → String
  | .allSucceed => "AllSucceed"
  | .anySucceed => "AnySucceed"

/-- Whether outcomes are as expected; no outcomes at all never are. -/
def holds (e : Expectation) (outcomes : List Outcome) : Bool :=
  !outcomes.isEmpty &&
    match e with
    | .allSucceed => outcomes.all Outcome.success
    | .anySucceed => outcomes.any Outcome.success

def check (e : Expectation) (outcomes : List Outcome) : Except Error Unit :=
  if e.holds outcomes then .ok ()
  else
    let listed := String.intercalate "; " (outcomes.map Outcome.text)
    .error (.assertion s!"{e.name} not met: [{listed}]")

end Expectation

end BucketBench
