import BucketBench.Client.CommandOutput
import BucketBench.Shell.Script
import BucketBench.World.Files

set_option autoImplicit false

/-!
# The state of a shell

Variables, files and what was written so far. Output goes to numbered captures, one of which is the standard
output and one the error output; substitutions and pipelines open further ones.
-/

namespace BucketBench.Shell

inductive Sink where
  | capture (number : Nat)
  | file (path : String)
  | nowhere
deriving DecidableEq

inductive Interruption where
  | exits
  /-- A signal ends the shell with a number. -/
  | killed (shell signal : Nat)
  | returns
  | breaks (loops : Nat)
  | continues (loops : Nat)
deriving DecidableEq

def firstShell : Nat := 4711

structure Machine where
  bindings : List (Octets × Octets) := []
  functions : List (Octets × Command) := []
  arguments : List Octets := []
  files : Files := Files.empty []
  captures : List Octets := [[], []]
  sinks : List (Nat × Sink) := [(1, .capture 0), (2, .capture 1)]
  input : Octets := []
  status : Nat := 0
  line : Nat := 1
  /-- The number by which the shell knows itself; a shell that it starts has the next one. -/
  number : Nat := firstShell
  /-- Whether a command that fails ends the shell. -/
  strict : Bool := false
  /-- Whether the command under way is only tested. -/
  tested : Bool := false

/-- Steps of a shell; an interruption keeps what was done before it. -/
abbrev Running (α : Type) := ExceptT Interruption (StateM Machine) α

def octets (b : Bytes) : Octets := b.map fun x => Char.ofNat x.toNat

def bytesOf (s : Octets) : Bytes := s.map fun c => c.toNat.toUInt8

def ofText (s : String) : Octets := octets (Bytes.ofText s)

def toText (s : Octets) : String := (bytesOf s).lenientText

namespace Running

def setStatus (n : Nat) : Running Unit := modify fun m => { m with status := n }

def appendFile (files : Files) (path : String) (s : Octets) : Files :=
  let before := match files.read path with
    | .ok c => c.toBytes
    | .error _ => []
  ((files.write path (.bytes (before ++ bytesOf s))).toOption).getD files

def write (descriptor : Nat) (s : Octets) : Running Unit :=
  modify fun m =>
    match m.sinks.lookup descriptor with
    | some (.capture n) => { m with captures := m.captures.modify n (· ++ s) }
    | some (.file path) => { m with files := appendFile m.files path s }
    | _ => m

def complainPlainly (text : String) : Running Unit := write 2 (ofText text ++ ['\n'])

/-- A complaint of the shell itself. The text holds bytes. -/
def complain (text : String) : Running Unit := do
  let m ← get
  write 2 (("sh: " ++ toString m.line ++ ": " ++ text).toList ++ ['\n'])

def exit {α : Type} (n : Nat) : Running α := do
  setStatus n
  throw .exits

/-- Runs steps that may change descriptors, and the input when it is their own, and sets these back. -/
def locally {α : Type} (ownInput : Bool) (steps : Running α) : Running α := do
  let before ← get
  let restore : Running Unit := modify fun m =>
    { m with sinks := before.sinks, input := if ownInput then before.input else m.input }
  try
    let r ← steps
    restore
    return r
  catch e =>
    restore
    throw e

def asCondition (steps : Running Unit) : Running Unit := do
  let before := (← get).tested
  modify fun m => { m with tested := true }
  steps
  modify fun m => { m with tested := before }

/-- Runs steps in a shell of their own: what they write stays, what they set does not. -/
def inSubshell (steps : Running Unit) : Running Unit := do
  let before ← get
  let restore : Running Unit := modify fun m =>
    { before with captures := m.captures, files := m.files, input := m.input, status := m.status }
  try
    steps
    restore
  catch e =>
    restore
    match e with
    | .killed .. => throw e
    | _ => return ()

def captured (steps : Running Unit) : Running Octets := do
  let before ← get
  let n := before.captures.length
  set { before with captures := before.captures ++ [[]], sinks := (1, .capture n) :: before.sinks.filter (·.1 ≠ 1) }
  inSubshell steps
  let m ← get
  set { m with captures := m.captures.take n, sinks := before.sinks }
  return (m.captures[n]?).getD []

def valueOf (name : Octets) : Running (Option Octets) := return (← get).bindings.lookup name

def setVariable (name value : Octets) : Running Unit :=
  modify fun m => { m with bindings := (name, value) :: m.bindings.filter (·.1 ≠ name) }

def unsetVariable (name : Octets) : Running Unit :=
  modify fun m => { m with bindings := m.bindings.filter (·.1 ≠ name) }

end Running

end BucketBench.Shell
