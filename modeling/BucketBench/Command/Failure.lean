import BucketBench.Error

set_option autoImplicit false

/-! # Commands that fail -/

namespace BucketBench

/-- What a command stumbled over: an error of the suite, or arguments that make no sense. -/
inductive Cause where
  | fault (e : Error)
  | arguments (text : String)
deriving DecidableEq

def Cause.text : Cause → String
  | .fault e => e.display
  | .arguments text => text

/-- A cause and what was being done, the outermost first. -/
structure Failure where
  contexts : List String
  cause : Cause
deriving DecidableEq

namespace Failure

def within {α : Type} (context : String) (r : Except Error α) : Except Failure α :=
  r.mapError fun e => ⟨[context], .fault e⟩

def ofArguments {α : Type} (r : Except String α) : Except Failure α := r.mapError fun text => ⟨[], .arguments text⟩

/-- The whole chain, from the outermost context down to the cause. -/
def chain (f : Failure) : List String := f.contexts ++ [f.cause.text]

def report (f : Failure) : String :=
  match f.chain with
  | [] => ""
  | [only] => "Error: " ++ only
  | first :: [cause] => "Error: " ++ first ++ "\n\nCaused by:\n    " ++ cause
  | first :: causes =>
    let numbered := causes.mapIdx fun i cause => "    " ++ toString i ++ ": " ++ cause
    "Error: " ++ first ++ "\n\nCaused by:\n" ++ String.intercalate "\n" numbered

end Failure

end BucketBench
