import BucketBench.CommandLine.Reader
import BucketBench.TestConfig.Gather

set_option autoImplicit false

/-!
# The commands of the suite

What the suite can be asked to do on the command line, and the grammar of it.
-/

namespace BucketBench

inductive OutputFormat where
  | text
  | json
deriving DecidableEq

/-- A measurement as it is given; the number of seconds may be one that is not finite. -/
structure Measurement where
  build : String
  test : String
  operation : String
  duration : Option Double
  failed : Bool
  fields : List String

inductive TimingsCommand where
  | record (m : Measurement)
  | find (filter : String)
  | count (filter : String)
  | distinct (field filter : String)

inductive Command where
  | showConfig (request : TestConfig.Request)
  | updateConfig (setup : String) (assignments removals : List String)
  | encrypt (text : String)
  | decrypt (token : String)
  | timings (format : OutputFormat) (command : TimingsCommand)
  | version

structure Invocation where
  settingsFile : Option String
  command : Command

namespace Invocation

open CommandLine

/-! ## The grammar -/

def filterOption : OptionSpec := { name := "filter" }

def showSpec : CommandSpec :=
  .mk "show" false
    [{ name := "fpath", letter := 'f', form := .path },
     { name := "config-key", needs := "fpath" },
     { name := "target", letter := 't' },
     { name := "target-key", needs := "target" }] none []

def updateSpec : CommandSpec :=
  .mk "update" false
    [{ name := "setupname", letter := 's', isRequired := true },
     { name := "set", takes := .many },
     { name := "unset", takes := .many }] none []

def recordSpec : CommandSpec :=
  .mk "record" false
    [{ name := "build", isRequired := true },
     { name := "test", isRequired := true },
     { name := "operation", isRequired := true },
     { name := "duration", form := .number, isRequired := true },
     { name := "failed", takes := .nothing },
     { name := "field", takes := .many }] none []

def timingsSpec : CommandSpec :=
  .mk "timings" false
    [{ name := "format", letter := 'f', form := .choice ["text", "json"], isShared := true }] none
    [recordSpec, .mk "find" false [filterOption] none [], .mk "count" false [filterOption] none [],
     .mk "distinct" false [filterOption] (some "field") []]

def settingsVariable : String := "S3QA_CONFIG"

def spec : CommandSpec :=
  .mk "s3qa" true
    [{ name := "config", letter := 'c', form := .path, environmentName := settingsVariable, isShared := true }] none
    [.mk "config" false [] none [showSpec, updateSpec],
     .mk "secret" false [] none [.mk "encrypt" false [] (some "value") [], .mk "decrypt" false [] (some "token") []],
     timingsSpec,
     .mk "version" false [] none []]

/-! ## From arguments to commands -/

def format (levels : List Level) : OutputFormat :=
  if textOf "format" levels = some "json" then .json else .text

def measurement (levels : List Level) : Measurement :=
  let text (option : String) : String := (textOf option levels).getD ""
  { build := text "build", test := text "test", operation := text "operation",
    duration := (Digits.readExtended? (text "duration")).getD none,
    failed := (valuesOf "failed" levels).isSome,
    fields := (valuesOf "field" levels).getD [] }

def command? (levels : List Level) : Option Command :=
  let text (option : String) : String := (textOf option levels).getD ""
  let filter := (textOf "filter" levels).getD "{}"
  match levels.map Level.command with
  | [_, "config", "show"] =>
    some (.showConfig ⟨textOf "fpath" levels, textOf "config-key" levels, textOf "target" levels,
      textOf "target-key" levels⟩)
  | [_, "config", "update"] =>
    some (.updateConfig (text "setupname") ((valuesOf "set" levels).getD []) ((valuesOf "unset" levels).getD []))
  | [_, "secret", "encrypt"] => some (.encrypt (text "value"))
  | [_, "secret", "decrypt"] => some (.decrypt (text "token"))
  | [_, "timings", "record"] => some (.timings (format levels) (.record (measurement levels)))
  | [_, "timings", "find"] => some (.timings (format levels) (.find filter))
  | [_, "timings", "count"] => some (.timings (format levels) (.count filter))
  | [_, "timings", "distinct"] => some (.timings (format levels) (.distinct (text "field") filter))
  | [_, "version"] => some .version
  | _ => none

def ofArguments (environment : String → Option String) (args : List String) : Except UsageFault Invocation := do
  let levels ← read environment spec args
  match command? levels with
  | some command => return ⟨textOf "config" levels, command⟩
  | none => throw .commandMissing

end Invocation

end BucketBench
