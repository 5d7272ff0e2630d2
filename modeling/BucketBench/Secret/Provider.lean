import BucketBench.Error
import BucketBench.World.Environment

set_option autoImplicit false

/-!
# Where secrets come from

A provider answers with the value of a secret or with an error. Several secrets are looked up in the order
they are asked for, and the first one that is missing decides the error.
-/

namespace BucketBench

structure SecretProvider where
  secret : String → Except Error String

namespace SecretProvider

def fixed (values : List (String × String)) : SecretProvider where
  secret id :=
    match values.find? fun v => v.1 == id with
    | some v => .ok v.2
    | none => .error (.secret (.notSet id))

/-- Secrets read from the variables whose names are `lead` and the identifier. -/
def environment (env : Environment) (lead : String) : SecretProvider where
  secret id :=
    match env.text? (lead ++ id) with
    | some value => .ok value
    | none => .error (.secret (.variableNotSet id (lead ++ id)))

/-- The values of several secrets with their identifiers, in the order asked for. -/
def secrets (provider : SecretProvider) : List String → Except Error (List (String × String))
  | [] => .ok []
  | id :: rest => do
    let value ← provider.secret id
    let more ← provider.secrets rest
    return (id, value) :: more

end SecretProvider

end BucketBench
