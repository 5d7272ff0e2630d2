import BucketBench.Number.Digits

set_option autoImplicit false

/-!
# Command grammars

A command has options, at most one free argument, and commands below it. Options that are shared are known to
all commands below the one they belong to as well.
-/

namespace BucketBench.CommandLine

inductive Form where
  | text
  /-- A path, which is not empty. -/
  | path
  | number
  | choice (among : List String)
deriving DecidableEq

inductive Takes where
  | nothing
  | one
  | many
deriving DecidableEq

structure OptionSpec where
  name : String
  letter : Option Char := none
  takes : Takes := .one
  form : Form := .text
  isRequired : Bool := false
  /-- An option that has to be given as well. -/
  needs : Option String := none
  /-- A variable of the environment that stands in for the option. -/
  environmentName : Option String := none
  isShared : Bool := false
deriving DecidableEq

/-- A command. The flag tells whether it can be asked for its version. -/
inductive CommandSpec where
  | mk (name : String) (hasVersion : Bool) (options : List OptionSpec) (argument : Option String)
      (commands : List CommandSpec)

namespace CommandSpec

def name : CommandSpec → String
  | mk name .. => name

def hasVersion : CommandSpec → Bool
  | mk _ v .. => v

def options : CommandSpec → List OptionSpec
  | mk _ _ options .. => options

def argument : CommandSpec → Option String
  | mk _ _ _ argument _ => argument

def commands : CommandSpec → List CommandSpec
  | mk _ _ _ _ commands => commands

end CommandSpec

/-- Why arguments are not carried out: help was asked for, or something is wrong with them. -/
inductive UsageFault where
  | helpWanted
  | versionWanted
  | nothingGiven
  | commandMissing
  | unknownCommand
  | unknownArgument
  | argumentMissing
  /-- A value that is missing, empty, or not among the choices. -/
  | badValue
  | notANumber
  | givenTwice
  | surplusValue
deriving DecidableEq

def UsageFault.exitCode : UsageFault → Nat
  | .helpWanted => 0
  | .versionWanted => 0
  | _ => 2

def Form.check (form : Form) (value : String) : Except UsageFault Unit :=
  match form with
  | .text => .ok ()
  | .path => if value.isEmpty then .error .badValue else .ok ()
  | .number => if (Digits.readExtended? value).isSome then .ok () else .error .notANumber
  | .choice among => if value ∈ among then .ok () else .error .badValue

end BucketBench.CommandLine
