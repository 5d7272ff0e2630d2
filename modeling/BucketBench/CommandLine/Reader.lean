import BucketBench.CommandLine.Grammar
import BucketBench.Text.Blank

set_option autoImplicit false

/-!
# Reading command lines

Arguments are read from left to right, each command with the options known to it. The value of an option is
checked only when the next option or free argument begins, or at the end of its command; so an argument that
is not known at all is reported before a bad value in front of it, and everything that is wrong with a command
below comes before what is wrong above it.
-/

namespace BucketBench.CommandLine

inductive Source where
  | environment
  | arguments
deriving DecidableEq

structure Given where
  option : String
  values : List String
  source : Source
deriving DecidableEq

structure Level where
  command : String
  given : List Given
deriving DecidableEq

structure Progress where
  given : List Given := []
  /-- An option whose value is still to come or to be checked. -/
  pending : Option (OptionSpec × Option String) := none
  /-- Whether the next argument is the value that the option waits for. -/
  waiting : Bool := false
  /-- Whether only free arguments follow. -/
  onlyFree : Bool := false
  hasFree : Bool := false

namespace Progress

def values? (p : Progress) (option : String) : Option (List String) :=
  (p.given.find? (·.option == option)).map (·.values)

/-- Notes values of an option that takes many, or the one of any other. -/
def note (p : Progress) (o : OptionSpec) (values : List String) : Except UsageFault Progress :=
  match p.values? o.name with
  | none => .ok { p with given := p.given ++ [⟨o.name, values, .arguments⟩] }
  | some _ =>
    if o.takes = .many then
      .ok { p with
        given := p.given.map fun g => if g.option = o.name then { g with values := g.values ++ values } else g }
    else .error .givenTwice

/-- Checks a value and notes it; that an option is given twice counts more than its value. -/
def take (p : Progress) (o : OptionSpec) (value : String) : Except UsageFault Progress := do
  let p ← p.note o [value]
  o.form.check value
  return p

def settle (p : Progress) : Except UsageFault Progress :=
  let q := { p with pending := none, waiting := false }
  match p.pending with
  | none => .ok q
  | some (o, some value) => q.take o value
  | some (_, none) => .error .badValue

/-- Begins an option, with its value when that is attached. -/
def start (p : Progress) (o : OptionSpec) (attached : Option String) : Except UsageFault Progress := do
  let p ← p.settle
  match attached with
  | some value => p.take o value
  | none => return { p with pending := some (o, none), waiting := true }

def switch (p : Progress) (o : OptionSpec) : Except UsageFault Progress := do
  (← p.settle).note o []

end Progress

structure Known where
  options : List OptionSpec
  hasVersion : Bool

namespace Known

/-- The option `--help`, and `--version` where there is one, stand beside the others. -/
def isHelp (name : String) : Bool := name == "help"

def isVersion (k : Known) (name : String) : Bool := k.hasVersion && name == "version"

end Known

/-- Reads `--name` or `--name=value`. -/
def readLong (k : Known) (p : Progress) (s : List Char) : Except UsageFault Progress :=
  let (name, attached) := match Text.splitFirst? '=' s with
    | some (name, value) => (String.ofList name, some (String.ofList value))
    | none => (String.ofList s, none)
  match k.options.find? (·.name == name) with
  | some o =>
    if o.takes = .nothing then
      match attached with
      | some _ => .error .surplusValue
      | none => p.switch o
    else p.start o attached
  | none =>
    if Known.isHelp name || k.isVersion name then
      if attached.isSome then .error .surplusValue
      else do
        let _ ← p.settle
        throw (if Known.isHelp name then .helpWanted else .versionWanted)
    else .error .unknownArgument

/-- Reads the letters behind one dash; what follows the letter of an option with a value is that value. -/
def readShort (k : Known) : Progress → List Char → Except UsageFault Progress
  | p, [] => .ok p
  | p, c :: rest =>
    match k.options.find? (·.letter == some c) with
    | some o =>
      if o.takes = .nothing then do readShort k (← p.switch o) rest
      else
        match rest with
        | [] => p.start o none
        | '=' :: value => p.start o (some (String.ofList value))
        | value => p.start o (some (String.ofList value))
    | none =>
      if c = 'h' then do
        let _ ← p.settle
        throw .helpWanted
      else if k.hasVersion && c = 'V' then do
        let _ ← p.settle
        throw .versionWanted
      else .error .unknownArgument

def readFree (spec : CommandSpec) (p : Progress) (value : String) : Except UsageFault Progress :=
  match spec.argument with
  | some name =>
    if p.hasFree then .error .unknownArgument
    else do
      let p ← p.settle
      return { p with given := p.given ++ [⟨name, [value], .arguments⟩], hasFree := true }
  | none =>
    if spec.commands.isEmpty || (p.onlyFree && (value == "help" || spec.commands.any (·.name == value))) then
      .error .unknownArgument
    else .error .unknownCommand

def readArgument (spec : CommandSpec) (k : Known) (p : Progress) (s : String) : Except UsageFault Progress :=
  if p.onlyFree then readFree spec p s
  else
    match s.toList with
    | '-' :: '-' :: [] => .ok { p with onlyFree := true, waiting := false }
    | '-' :: '-' :: rest => readLong k p rest
    | '-' :: c :: rest => readShort k p (c :: rest)
    | _ =>
      match p.waiting, p.pending with
      | true, some (o, _) => .ok { p with pending := some (o, some s), waiting := false }
      | _, _ => readFree spec p s

/-- Follows the names behind the word `help`. -/
def followHelp : CommandSpec → List String → UsageFault
  | _, [] => .helpWanted
  | spec, name :: rest =>
    match spec.commands.find? (·.name == name) with
    | some sub => followHelp sub rest
    | none =>
      if name == "help" && !spec.commands.isEmpty then
        if rest.isEmpty then .helpWanted else .unknownCommand
      else .unknownCommand

/-- Adds what the environment says about options that were not given. -/
def addVariables (environment : String → Option String) (p : Progress) : List OptionSpec → Except UsageFault Progress
  | [] => .ok p
  | o :: rest => do
    match p.values? o.name, o.environmentName.bind environment with
    | none, some value =>
      o.form.check value
      addVariables environment { p with given := p.given ++ [⟨o.name, [value], .environment⟩] } rest
    | _, _ => addVariables environment p rest

def checkComplete (spec : CommandSpec) (k : Known) (p : Progress) : Except UsageFault Unit :=
  let isGiven (name : String) : Bool := (p.values? name).isSome
  let isMissing (o : OptionSpec) : Bool :=
    (o.isRequired && !isGiven o.name)
      || (isGiven o.name && (o.needs.map fun other => !isGiven other).getD false)
  if k.options.any isMissing || (spec.argument.isSome && !p.hasFree) then .error .argumentMissing else .ok ()

def finish (environment : String → Option String) (spec : CommandSpec) (k : Known) (isLast : Bool) (p : Progress) :
    Except UsageFault Level := do
  let p ← p.settle
  let p ← addVariables environment p k.options
  if isLast && !spec.commands.isEmpty then
    throw (if p.given.isEmpty then .nothingGiven else .commandMissing)
  checkComplete spec k p
  return ⟨spec.name, p.given⟩

/-- Reads the arguments of a command and of the one below it that they go on to. -/
def readLevels (environment : String → Option String) (spec : CommandSpec) (shared : List OptionSpec) (p : Progress) :
    List String → Except UsageFault (List Level)
  | [] => do return [← finish environment spec ⟨spec.options ++ shared, spec.hasVersion⟩ true p]
  | s :: rest => do
    let k : Known := ⟨spec.options ++ shared, spec.hasVersion⟩
    match (if p.onlyFree || p.waiting then none else spec.commands.find? (·.name == s)) with
    | some sub =>
      let levels ← readLevels environment sub (shared ++ spec.options.filter (·.isShared)) {} rest
      return (← finish environment spec k false p) :: levels
    | none =>
      if s == "help" && !spec.commands.isEmpty && !p.onlyFree && !p.waiting then throw (followHelp spec rest)
      else readLevels environment spec shared (← readArgument spec k p s) rest

def read (environment : String → Option String) (spec : CommandSpec) (args : List String) :
    Except UsageFault (List Level) :=
  readLevels environment spec [] {} args

/-! ## What was given -/

/-- The values of an option over all levels: the deepest ones, unless those come from the environment only. -/
def valuesOf (option : String) (levels : List Level) : Option (List String) :=
  let found := levels.filterMap fun l => l.given.find? (·.option == option)
  (((found.filter (·.source == .arguments)).getLast?).orElse fun _ => found.getLast?).map (·.values)

def textOf (option : String) (levels : List Level) : Option String :=
  (valuesOf option levels).bind List.head?

end BucketBench.CommandLine
